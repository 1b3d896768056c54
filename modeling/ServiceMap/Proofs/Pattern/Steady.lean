import Mathlib.Data.List.Forall2
import ServiceMap.Proofs.Pattern.Segments
import ServiceMap.Proofs.Source.Veiled

/-!
# Matching around literals

What a pattern finds in two texts that differ within literals. A pattern that passes over a literal
as a whole, or stops before it, takes the same stretches in both. Which patterns do is found by going
through their parts: each is tried alike at places outside of literals, or at those inside of them
too.
-/

namespace ServiceMap

open Text Source

/-! ## Places and matches as they look from outside -/

/-- A remembered stretch without what it holds of string literals. -/
def Capture.outline (c : Capture) : Nat × Nat × Option (List Char) :=
  (c.start, c.stop, quoteless? c.text)

/-- Remembered stretches without what they hold of string literals. -/
def outlines (captures : List (Nat × Capture)) : List (Nat × Nat × Nat × Option (List Char)) :=
  captures.map fun entry => (entry.1, entry.2.outline)

/-- Where a place is and what is remembered there. -/
def Place.outline (p : Place) : Nat × List (Nat × Nat × Nat × Option (List Char)) :=
  (p.index, outlines p.captures)

/-- A match without what it holds of string literals. -/
def Match.outline (m : Match) : Nat × Nat × List (Nat × Nat × Nat × Option (List Char)) :=
  (m.start, m.stop, outlines m.captures)

/-- Two places of texts that differ within literals, with the same stretches remembered. -/
structure Place.Alike (hidden : Bool) (p q : Place) : Prop where
  rest : Veiled hidden p.rest q.rest
  before : hidden = false → p.before = q.before
  index : p.index = q.index
  captures : outlines p.captures = outlines q.captures

namespace Place.Alike

variable {hidden : Bool} {p q : Place}

theorem outline (h : Alike hidden p q) : p.outline = q.outline := by
  rw [Place.outline, Place.outline, h.index, h.captures]

theorem remember {p' q' : Place} (h : Alike hidden p q) (hbegun : Alike false p' q')
    (slot : Nat) : Alike hidden (p.remember slot p') (q.remember slot q') where
  rest := h.rest
  before := h.before
  index := h.index
  captures := by
    have htext := hbegun.rest.quoteless?_take (p.index - p'.index)
    show (slot, p'.index, p.index, quoteless? (p'.rest.take (p.index - p'.index)))
        :: outlines p.captures
      = (slot, q'.index, q.index, quoteless? (q'.rest.take (q.index - q'.index)))
        :: outlines q.captures
    rw [htext, h.index, hbegun.index, h.captures]

end Place.Alike

/-! ## Parts of patterns -/

/-- Both treat places alike: those outside of literals, and those inside too if `inside`. -/
def Follow.Agree (inside : Bool) (f g : Follow) : Prop :=
  ∀ (hidden : Bool) (p q : Place), (hidden = true → inside = true) → p.Alike hidden q →
    (f p).map Place.outline = (g q).map Place.outline

/-- The pattern is tried alike at places outside of literals, and inside too if `start`, as long as
what follows treats alike the places outside, and inside too if `stop`. -/
def Pattern.Steady (start stop : Bool) (pattern : Pattern) : Prop :=
  ∀ (limit : Nat) (f g : Follow), Follow.Agree stop f g →
    Follow.Agree start (pattern.run limit · f) (pattern.run limit · g)

namespace Pattern.Steady

variable {first second body : Pattern} {accepts : Char → Bool} {a b c : Bool}

theorem ofInside (h : first.Steady true b) : first.Steady a b :=
  fun limit f g hfg hidden p q _ hpq => h limit f g hfg hidden p q (fun _ => rfl) hpq

theorem toInside (h : first.Steady a false) : first.Steady a b :=
  fun limit f g hfg => h limit f g fun hidden p q hhidden hpq =>
    hfg hidden p q (fun hinside => absurd (hhidden hinside) Bool.noConfusion) hpq

theorem empty : Pattern.empty.Steady a a :=
  fun _ _ _ hfg => hfg

theorem seq (hfirst : first.Steady a b) (hsecond : second.Steady b c) :
    (first ++ second).Steady a c :=
  fun limit f g hfg => hfirst limit _ _ (hsecond limit f g hfg)

theorem orElse_congr {α : Type} {x x' y y' : Option Place} {view : Place → α}
    (hx : x.map view = x'.map view) (hy : y.map view = y'.map view) :
    (x <|> y).map view = (x' <|> y').map view := by
  cases x with
  | none =>
      cases x' with
      | none => exact hy
      | some q => exact nomatch hx
  | some p =>
      cases x' with
      | none => exact nomatch hx
      | some q => exact hx

theorem either (hfirst : first.Steady a b) (hsecond : second.Steady a b) :
    (Pattern.either first second).Steady a b :=
  fun limit f g hfg hidden p q hhidden hpq =>
    orElse_congr (hfirst limit f g hfg hidden p q hhidden hpq)
      (hsecond limit f g hfg hidden p q hhidden hpq)

theorem opt (h : first.Steady false b) : (Pattern.opt first).Steady false b :=
  h.either empty.toInside

/-- A round that is tried alike may be repeated. -/
theorem rounds (h : body.Steady a a) (eager : Bool) : (Pattern.rounds body eager).Steady a a := by
  intro limit f g hfg
  have hrun : ∀ left, Follow.Agree a
      (runRounds (fun q next => body.run limit q next) eager left · f)
      (runRounds (fun q next => body.run limit q next) eager left · g) := by
    intro left
    induction left with
    | zero => exact hfg
    | succ left ih =>
        intro hidden p q hhidden hpq
        have honward := h limit
          (fun p' => if p'.index = p.index then none
            else runRounds (fun q next => body.run limit q next) eager left p' f)
          (fun q' => if q'.index = q.index then none
            else runRounds (fun q next => body.run limit q next) eager left q' g)
          (fun hidden' p' q' hhidden' hpq' => by
            dsimp only
            by_cases hsame : p'.index = p.index
            · rw [if_pos hsame, if_pos (hpq'.index.symm.trans (hsame.trans hpq.index))]
            · rw [if_neg hsame, if_neg fun hback =>
                hsame (hpq'.index.trans (hback.trans hpq.index.symm))]
              exact ih hidden' p' q' hhidden' hpq')
          hidden p q hhidden hpq
        have hstay := hfg hidden p q hhidden hpq
        cases eager with
        | true => exact orElse_congr honward hstay
        | false => exact orElse_congr hstay honward
  exact hrun limit

/-- A stretch that begins outside of literals is remembered alike. -/
theorem capture (h : body.Steady false b) (slot : Nat) :
    (Pattern.capture slot body).Steady false b := by
  intro limit f g hfg hidden p q hhidden hpq
  refine h limit _ _ (fun hidden' p' q' hhidden' hpq' => ?_) hidden p q hhidden hpq
  cases hidden with
  | false => exact hfg hidden' _ _ hhidden' (hpq'.remember hpq slot)
  | true => exact absurd (hhidden rfl) Bool.noConfusion

theorem isSome_congr {x y : Option Place} (h : x.map Place.outline = y.map Place.outline) :
    x.isSome = y.isSome := by
  rw [← Option.isSome_map, h, Option.isSome_map]

/-- What is only looked at may end anywhere. -/
theorem ahead (h : body.Steady false b) : (Pattern.ahead body).Steady false false := by
  intro limit f g hfg hidden p q hhidden hpq
  have hseen := isSome_congr
    (h limit some some (fun _ _ _ _ hpq' => congrArg some hpq'.outline) hidden p q hhidden hpq)
  have hfollow := hfg hidden p q hhidden hpq
  show (if (body.run limit p some).isSome then f p else none).map Place.outline
    = (if (body.run limit q some).isSome then g q else none).map Place.outline
  rw [hseen]
  split
  · exact hfollow
  · rfl

theorem lineStart : Pattern.lineStart.Steady false false := by
  intro limit f g hfg hidden p q hhidden hpq
  cases hidden with
  | true => exact absurd (hhidden rfl) Bool.noConfusion
  | false =>
      have hfollow := hfg false p q hhidden hpq
      have hstart : p.atLineStart = q.atLineStart := by
        rw [Place.atLineStart, Place.atLineStart, hpq.before rfl]
      show (if p.atLineStart then f p else none).map Place.outline
        = (if q.atLineStart then g q else none).map Place.outline
      rw [hstart]
      split
      · exact hfollow
      · rfl

theorem wordEdge : Pattern.wordEdge.Steady false false := by
  intro limit f g hfg hidden p q hhidden hpq
  cases hidden with
  | true => exact absurd (hhidden rfl) Bool.noConfusion
  | false =>
      have hfollow := hfg false p q hhidden hpq
      have hhead : p.rest.head? = q.rest.head? := hpq.rest.head?
      have hedge : p.atWordEdge = q.atWordEdge := by
        rw [Place.atWordEdge, Place.atWordEdge, hpq.before rfl, hhead]
      show (if p.atWordEdge then f p else none).map Place.outline
        = (if q.atWordEdge then g q else none).map Place.outline
      rw [hedge]
      split
      · exact hfollow
      · rfl

/-- A character that is not hidden in a literal is read alike; one that is hidden is read alike if
all of its kind are taken, or none. -/
theorem char (hquote : accepts '"' = true → b = true)
    (hplain : a = true → (b = true ∧ ∀ c, isPlain c = true → accepts c = true)
      ∨ ∀ c, isPlain c = true → accepts c = false) :
    (Pattern.char accepts).Steady a b := by
  rintro limit f g hfg hidden ⟨before, s, index, captures⟩ ⟨before', t, index', captures'⟩ hhidden
    ⟨hrest, hbefore, rfl, hcaptures⟩
  dsimp only at hrest hbefore hcaptures
  unfold run
  dsimp only
  cases hrest with
  | nil => rfl
  | same c hrest =>
      dsimp only
      split
      · exact hfg false _ _ Bool.noConfusion ⟨hrest, fun _ => rfl, rfl, hcaptures⟩
      · rfl
  | opening hrest =>
      dsimp only
      split
      · rename_i haccepts
        exact hfg true _ _ (fun _ => hquote haccepts) ⟨hrest, Bool.noConfusion, rfl, hcaptures⟩
      · rfl
  | @within c d _ _ hc hd _ _ hrest =>
      dsimp only
      rcases hplain (hhidden rfl) with ⟨hb, hall⟩ | hnone
      · rw [if_pos (hall c hc), if_pos (hall d hd)]
        exact hfg true _ _ (fun _ => hb) ⟨hrest, Bool.noConfusion, rfl, hcaptures⟩
      · rw [if_neg (by rw [hnone c hc]; exact Bool.false_ne_true),
          if_neg (by rw [hnone d hd]; exact Bool.false_ne_true)]
  | closing hrest =>
      dsimp only
      split
      · exact hfg false _ _ Bool.noConfusion ⟨hrest, fun _ => rfl, rfl, hcaptures⟩
      · rfl

/-- The places after a number of characters are alike, one by one. -/
theorem stops_alike (hquote : accepts '"' = true → a = true)
    (hplain : a = true → ∀ c, isPlain c = true → accepts c = true)
    {captures captures' : List (Nat × Capture)} (hcaptures : outlines captures = outlines captures')
    {hidden : Bool} {s t : List Char} (h : Veiled hidden s t) :
    ∀ {before before' : Option Char} (index : Nat), (hidden = true → a = true) →
      (hidden = false → before = before') →
        List.Forall₂ (fun p q : Place => ∃ hidden, (hidden = true → a = true) ∧ p.Alike hidden q)
          (Place.stops accepts before index captures s)
          (Place.stops accepts before' index captures' t) := by
  induction h with
  | nil =>
      intro before before' index hhidden hbefore
      exact .cons ⟨false, hhidden, .nil, hbefore, rfl, hcaptures⟩ .nil
  | @same c s t hrest ih =>
      intro before before' index hhidden hbefore
      refine .cons ⟨false, hhidden, .same c hrest, hbefore, rfl, hcaptures⟩ ?_
      split
      · exact ih (index + 1) Bool.noConfusion fun _ => rfl
      · exact .nil
  | opening hrest ih =>
      intro before before' index hhidden hbefore
      refine .cons ⟨false, hhidden, .opening hrest, hbefore, rfl, hcaptures⟩ ?_
      split
      · rename_i haccepts
        exact ih (index + 1) (fun _ => hquote haccepts) Bool.noConfusion
      · exact .nil
  | @within c d s t hc hd hleft hright hrest ih =>
      intro before before' index hhidden hbefore
      have ha := hhidden rfl
      refine .cons ⟨true, hhidden, .within hc hd hleft hright hrest, hbefore, rfl, hcaptures⟩ ?_
      rw [if_pos (hplain ha c hc), if_pos (hplain ha d hd)]
      exact ih (index + 1) (fun _ => ha) Bool.noConfusion
  | closing hrest ih =>
      intro before before' index hhidden hbefore
      refine .cons ⟨true, hhidden, .closing hrest, hbefore, rfl, hcaptures⟩ ?_
      split
      · exact ih (index + 1) Bool.noConfusion fun _ => rfl
      · exact .nil

theorem findSome?_congr {α : Type} {view : Place → α} {related : Place → Place → Prop}
    {f g : Follow} (hfg : ∀ p q, related p q → (f p).map view = (g q).map view)
    {ps qs : List Place} (h : List.Forall₂ related ps qs) :
    (ps.findSome? f).map view = (qs.findSome? g).map view := by
  induction h with
  | nil => rfl
  | cons hpq _ ih =>
      have hfirst := hfg _ _ hpq
      rw [List.findSome?_cons, List.findSome?_cons]
      split
      · rename_i p hp
        rw [hp] at hfirst
        split
        · rename_i q hq
          rwa [hq] at hfirst
        · rename_i hq
          rw [hq] at hfirst
          exact nomatch hfirst
      · rename_i hp
        rw [hp] at hfirst
        split
        · rename_i q hq
          rw [hq] at hfirst
          exact nomatch hfirst
        · exact ih

/-- Characters of a class are passed over alike, if all that are hidden in literals belong to it or
literals are not entered. -/
theorem chars (hquote : accepts '"' = true → a = true)
    (hplain : a = true → ∀ c, isPlain c = true → accepts c = true) (eager : Bool) :
    (Pattern.chars accepts eager).Steady a a := by
  rintro limit f g hfg hidden ⟨before, s, index, captures⟩ ⟨before', t, index', captures'⟩ hhidden
    ⟨hrest, hbefore, rfl, hcaptures⟩
  dsimp only at hrest hbefore hcaptures
  have hstops := stops_alike hquote hplain hcaptures hrest index hhidden hbefore
  have hfg' : ∀ p q : Place, (∃ hidden, (hidden = true → a = true) ∧ p.Alike hidden q) →
      (f p).map Place.outline = (g q).map Place.outline :=
    fun p q ⟨hidden, hhidden, hpq⟩ => hfg hidden p q hhidden hpq
  unfold run
  dsimp only
  rw [Place.stopsBack_eq, Place.stopsBack_eq, List.append_nil, List.append_nil]
  cases eager with
  | true => exact findSome?_congr hfg' (List.rel_reverse hstops)
  | false => exact findSome?_congr hfg' hstops

/-! ## Common forms -/

/-- Every character but a mark may be hidden in a literal. -/
theorem bne_of_isPlain {d : Char} (hd : isPlain d = false) (c : Char) (hc : isPlain c = true) :
    (c != d) = true :=
  bne_iff_ne.mpr (ne_of_isPlain hc hd)

theorem not_contains_of_isPlain {excluded : List Char} (h : excluded.any isPlain = false)
    (c : Char) (hc : isPlain c = true) : (!excluded.contains c) = true := by
  have hmem : c ∉ excluded := fun hmem => List.any_eq_false.mp h c hmem hc
  simpa using hmem

/-- A character of a class without the double quote. -/
theorem charOutside (h : accepts '"' = false) : (Pattern.char accepts).Steady false false :=
  char (fun hquote => absurd (hquote.symm.trans h) Bool.noConfusion) Bool.noConfusion

/-- A mark is never taken for a character of a literal. -/
theorem mark {d : Char} (hd : isPlain d = false) (hquote : d ≠ '"') :
    (Pattern.char (· == d)).Steady true false :=
  char (fun h => absurd (beq_iff_eq.mp h).symm hquote)
    fun _ => Or.inr fun _ hc => beq_false_of_ne (ne_of_isPlain hc hd)

theorem many (h : accepts '"' = false) : (Pattern.many accepts).Steady false false :=
  chars (fun hquote => absurd (hquote.symm.trans h) Bool.noConfusion) Bool.noConfusion true

theorem many1 (h : accepts '"' = false) : (Pattern.many1 accepts).Steady false false :=
  (charOutside h).seq (many h)

/-- Any characters that are no marks, among others. -/
theorem manyInside (h : ∀ c, isPlain c = true → accepts c = true) :
    (Pattern.many accepts).Steady true true :=
  chars (fun _ => rfl) (fun _ => h) true

theorem many1Inside (h : ∀ c, isPlain c = true → accepts c = true) :
    (Pattern.many1 accepts).Steady true true :=
  (char (fun _ => rfl) fun _ => Or.inl ⟨rfl, h⟩).seq (manyInside h)

theorem ofChars {text : List Char} (h : '"' ∉ text) : (Pattern.ofChars text).Steady false false := by
  induction text with
  | nil => exact empty
  | cons c text ih =>
      have hc : (Pattern.char (· == c)).Steady false false :=
        charOutside (beq_false_of_ne fun heq => h (heq ▸ List.mem_cons_self))
      cases text with
      | nil => exact hc
      | cons d text => exact hc.seq (ih fun hmem => h (List.mem_cons_of_mem c hmem))

theorem lit {text : String} (h : '"' ∉ text.toList) : (Pattern.lit text).Steady false false :=
  ofChars h

theorem oneOf {texts : List String} (h : ∀ text ∈ texts, '"' ∉ text.toList) :
    (Pattern.oneOf texts).Steady false false := by
  induction texts with
  | nil => exact charOutside rfl
  | cons first texts ih =>
      have hfirst : (Pattern.lit first).Steady false false := lit (h first List.mem_cons_self)
      cases texts with
      | nil => exact hfirst
      | cons second texts =>
          exact hfirst.either (ih fun text htext => h text (List.mem_cons_of_mem first htext))

theorem markLit {text : String} {d : Char} (htext : text.toList = [d]) (hd : isPlain d = false)
    (hquote : d ≠ '"') : (Pattern.lit text).Steady true false := by
  rw [Pattern.lit, htext]
  exact mark hd hquote

/-- What stands between two marks is passed over as a whole. -/
theorem between {opening closing : String} {d : Char} (hopening : '"' ∉ opening.toList)
    (haccepts : ∀ c, isPlain c = true → accepts c = true) (hclosing : closing.toList = [d])
    (hd : isPlain d = false) (hquote : d ≠ '"') :
    (Pattern.lit opening ++ Pattern.many accepts ++ Pattern.lit closing).Steady false false :=
  ((lit hopening).seq (manyInside haccepts).ofInside).seq (markLit hclosing hd hquote)

end Pattern.Steady

/-! ## Matches -/

theorem lookup_outlines (captures : List (Nat × Capture)) (slot : Nat) :
    (outlines captures).lookup slot = (captures.lookup slot).map Capture.outline := by
  induction captures with
  | nil => rfl
  | cons entry captures ih =>
      show ((entry.1, entry.2.outline) :: outlines captures).lookup slot = _
      rw [List.lookup_cons, List.lookup_cons, ih]
      cases slot == entry.1 <;> rfl

namespace Match

variable {m n : Match}

theorem start_congr (h : m.outline = n.outline) : m.start = n.start :=
  congrArg Prod.fst h

theorem stop_congr (h : m.outline = n.outline) : m.stop = n.stop :=
  congrArg (·.2.1) h

theorem capture?_congr (h : m.outline = n.outline) (slot : Nat) :
    (m.capture? slot).map Capture.outline = (n.capture? slot).map Capture.outline := by
  rw [Match.capture?, Match.capture?, ← lookup_outlines, ← lookup_outlines,
    show outlines m.captures = outlines n.captures from congrArg (·.2.2) h]

theorem groupStart_congr (h : m.outline = n.outline) (slot : Nat) :
    m.groupStart slot = n.groupStart slot := by
  have hstart : ∀ x : Option Capture, x.map Capture.start
      = (x.map Capture.outline).map Prod.fst := by
    intro x
    rw [Option.map_map]
    rfl
  rw [Match.groupStart, Match.groupStart, hstart, hstart, capture?_congr h, start_congr h]

theorem quoteless?_group (h : m.outline = n.outline) (slot : Nat) :
    quoteless? (m.group slot) = quoteless? (n.group slot) := by
  have hcapture := capture?_congr h slot
  unfold Match.group Match.group?
  cases hm : m.capture? slot with
  | none =>
      rw [hm] at hcapture
      rw [Option.map_eq_none_iff.mp hcapture.symm]
  | some capture =>
      rw [hm] at hcapture
      obtain ⟨other, hn, hother⟩ := Option.map_eq_some_iff.mp hcapture.symm
      rw [hn]
      exact (congrArg (·.2.2) hother).symm

theorem group_congr (h : m.outline = n.outline) {slot : Nat} (hquote : '"' ∉ m.group slot) :
    m.group slot = n.group slot :=
  eq_of_quoteless? hquote (quoteless?_group h slot)

end Match

namespace Pattern

variable {pattern : Pattern}

/-- A match that starts outside of literals is found in both texts. -/
def FoundAlike (pattern : Pattern) : Prop :=
  ∀ (limit : Nat) (p q : Place), p.Alike false q →
    (pattern.matchHere? limit p).map Match.outline
      = (pattern.matchHere? limit q).map Match.outline

theorem Steady.foundAlike {b : Bool} (hpattern : pattern.Steady false b) :
    pattern.FoundAlike := by
  intro limit p q h
  have hrun := hpattern limit some some (fun _ _ _ _ hpq => congrArg some hpq.outline)
    false p q Bool.noConfusion h
  have houtline : ∀ here : Place, (pattern.matchHere? limit here).map Match.outline
      = ((pattern.run limit here some).map Place.outline).map fun last => (here.index, last) := by
    intro here
    rw [Pattern.matchHere?, Option.map_map, Option.map_map]
    rfl
  rw [houtline, houtline, hrun, h.index]

theorem FoundAlike.congr {pattern' : Pattern} (hpattern : pattern.matchHere? = pattern'.matchHere?)
    (h : pattern'.FoundAlike) : pattern.FoundAlike := by
  intro limit p q hpq
  rw [hpattern]
  exact h limit p q hpq

/-- No match starts within a literal. -/
def SilentInside (pattern : Pattern) : Prop :=
  ∀ (limit : Nat) (c : Char) (s t : List Char) (index : Nat), c ≠ '\n' → Veiled true s t →
    pattern.matchHere? limit ⟨some c, s, index, []⟩ = none

theorem StartsLine.silentInside (h : pattern.StartsLine) : pattern.SilentInside :=
  fun _ _ _ _ _ hc _ => matchHere?_eq_none_of_before h hc

theorem SilentInside.congr {pattern' : Pattern}
    (hpattern : pattern.matchHere? = pattern'.matchHere?) (h : pattern'.SilentInside) :
    pattern.SilentInside := by
  intro limit c s t index hc hveiled
  rw [hpattern]
  exact h limit c s t index hc hveiled

/-- Every stretch that the pattern describes names a kind of type, without a double quote before. -/
def LeadsToKind (pattern : Pattern) : Prop :=
  ∀ before taken rest, pattern.Takes before taken rest →
    ∃ front kind more, taken = front ++ (kind.toList ++ more) ∧ '"' ∉ front ∧ kind ∈ typeKinds

theorem LeadsToKind.seq {first : Pattern} (h : first.LeadsToKind) (second : Pattern) :
    (first ++ second).LeadsToKind := by
  rintro before _ rest ⟨_, t, rfl, hfirst, -⟩
  obtain ⟨front, kind, more, rfl, hfront, hkind⟩ := h _ _ _ hfirst
  exact ⟨front, kind, more ++ t, by simp only [List.append_assoc], hfront, hkind⟩

/-- The literals of texts that differ within literals name no kind of type. -/
theorem LeadsToKind.silentInside (h : pattern.LeadsToKind) : pattern.SilentInside := by
  intro limit c s t index _ hveiled
  refine Option.eq_none_iff_forall_ne_some.mpr fun m hm => ?_
  obtain ⟨_, rest, rfl, htakes, -, -⟩ := takes_of_matchHere? hm
  obtain ⟨front, kind, more, rfl, hfront, hkind⟩ := h _ _ _ htakes
  have hall : ∀ kind ∈ typeKinds, kind.toList ≠ [] ∧ kind.toList.head? ≠ some '"' := by decide
  obtain ⟨hne, hhead⟩ := hall kind hkind
  rw [List.append_assoc, List.append_assoc] at hveiled
  refine hveiled.namesNoKind_after hfront ?_ kind hkind (List.prefix_append _ _)
  rwa [List.head?_append_of_ne_nil _ hne]

/-- The character before a place is no newline. -/
def AfterNoNewline (before : Option Char) : Prop :=
  ∃ c, before = some c ∧ c ≠ '\n'

theorem afterNoNewline_of_isPlain {c : Char} (h : isPlain c = true) : AfterNoNewline (some c) :=
  ⟨c, rfl, ne_of_isPlain h (by decide)⟩

/-- One character on: the same is found if it is here and from the next place on. -/
theorem allFrom_cons_congr {limit index : Nat} {before before' : Option Char} {c d : Char}
    {s t : List Char}
    (hhere : (pattern.matchHere? limit ⟨before, c :: s, index, []⟩).map Match.outline
      = (pattern.matchHere? limit ⟨before', d :: t, index, []⟩).map Match.outline)
    (htail : ∀ resume, (pattern.allFrom limit resume (some c) (index + 1) s).map Match.outline
      = (pattern.allFrom limit resume (some d) (index + 1) t).map Match.outline) (resume : Nat) :
    (pattern.allFrom limit resume before index (c :: s)).map Match.outline
      = (pattern.allFrom limit resume before' index (d :: t)).map Match.outline := by
  unfold Pattern.allFrom
  by_cases hresume : index < resume
  · rw [if_pos hresume, if_pos hresume]
    exact htail resume
  rw [if_neg hresume, if_neg hresume]
  cases hm : pattern.matchHere? limit ⟨before, c :: s, index, []⟩ with
  | none =>
      rw [hm] at hhere
      rw [Option.map_eq_none_iff.mp hhere.symm]
      exact htail resume
  | some m =>
      rw [hm] at hhere
      obtain ⟨n, hn, hmn⟩ := Option.map_eq_some_iff.mp hhere.symm
      rw [hn]
      dsimp only
      rw [List.map_cons, List.map_cons, hmn, Match.stop_congr hmn, htail]

/-- **The same matches.** What is found around literals does not depend on what they hold. -/
theorem FoundAlike.allFrom (hpattern : pattern.FoundAlike) (hsilent : pattern.SilentInside)
    (limit : Nat) {hidden : Bool} {s t : List Char} (h : Veiled hidden s t) :
    ∀ (resume : Nat) {before before' : Option Char} (index : Nat),
      (hidden = false → before = before') →
        (hidden = true → AfterNoNewline before ∧ AfterNoNewline before') →
          (pattern.allFrom limit resume before index s).map Match.outline
            = (pattern.allFrom limit resume before' index t).map Match.outline := by
  -- within a literal nothing is found in either text
  have hnone : ∀ {before before' : Option Char} {s t : List Char} (index : Nat),
      Veiled true s t → AfterNoNewline before ∧ AfterNoNewline before' →
        (pattern.matchHere? limit ⟨before, s, index, []⟩).map Match.outline
          = (pattern.matchHere? limit ⟨before', t, index, []⟩).map Match.outline := by
    rintro _ _ s t index h ⟨⟨c, rfl, hc⟩, d, rfl, hd⟩
    rw [hsilent limit c s t index hc h, hsilent limit d t s index hd h.symm]
  induction h with
  | nil =>
      intro resume before before' index hbefore _
      rw [hbefore rfl]
  | @same c s t hrest ih =>
      intro resume before before' index hbefore _
      refine allFrom_cons_congr ?_ (fun resume => ?_) resume
      · exact hpattern limit _ _ ⟨.same c hrest, hbefore, rfl, rfl⟩
      · exact ih resume (index + 1) (fun _ => rfl) Bool.noConfusion
  | opening hrest ih =>
      intro resume before before' index hbefore _
      refine allFrom_cons_congr ?_ (fun resume => ?_) resume
      · exact hpattern limit _ _ ⟨.opening hrest, hbefore, rfl, rfl⟩
      · have hquote : AfterNoNewline (some '"') := ⟨'"', rfl, by decide⟩
        exact ih resume (index + 1) Bool.noConfusion fun _ => ⟨hquote, hquote⟩
  | @within c d s t hc hd hleft hright hrest ih =>
      intro resume before before' index _ hbefore
      refine allFrom_cons_congr ?_ (fun resume => ?_) resume
      · exact hnone index (.within hc hd hleft hright hrest) (hbefore rfl)
      · exact ih resume (index + 1) Bool.noConfusion fun _ =>
          ⟨afterNoNewline_of_isPlain hc, afterNoNewline_of_isPlain hd⟩
  | closing hrest ih =>
      intro resume before before' index _ hbefore
      refine allFrom_cons_congr ?_ (fun resume => ?_) resume
      · exact hnone index (.closing hrest) (hbefore rfl)
      · exact ih resume (index + 1) (fun _ => rfl) Bool.noConfusion

theorem FoundAlike.findAll (hpattern : pattern.FoundAlike) (hsilent : pattern.SilentInside)
    {s t : List Char} (h : Veiled false s t) :
    (pattern.findAll s).map Match.outline = (pattern.findAll t).map Match.outline := by
  rw [Pattern.findAll, Pattern.findAll, h.length_eq]
  exact hpattern.allFrom hsilent t.length h 0 0 (fun _ => rfl) Bool.noConfusion

end Pattern

/-- The same is found in a body. -/
theorem Pattern.FoundAlike.findBetween {pattern : Pattern}
    (hpattern : pattern.FoundAlike) (hsilent : pattern.SilentInside) {s t rest : List Char}
    (h : Veiled false s t) {brace stop : Nat} (hbrace : s.drop brace = '\x7b' :: rest)
    (hstop : groupEnd s brace = .ok stop) :
    (pattern.findBetween s (brace + 1) stop).map Match.outline
      = (pattern.findBetween t (brace + 1) stop).map Match.outline := by
  obtain ⟨hbody, hs, ht⟩ := h.body hbrace hstop
  rw [Pattern.findBetween, Pattern.findBetween, if_neg (Nat.succ_ne_zero _),
    if_neg (Nat.succ_ne_zero _), Nat.add_sub_cancel, hs, ht, hbody.length_eq]
  exact hpattern.allFrom hsilent _ hbody 0 (brace + 1) (fun _ => rfl) Bool.noConfusion

end ServiceMap
