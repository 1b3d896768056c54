import ServiceMap.Proofs.Pattern.Places

/-!
# What a pattern takes

The stretches of text that a pattern describes, said without the order in which they are tried. A
run that succeeds has taken one of them; it has remembered stretches only under the numbers that
occur in the pattern.
-/

namespace ServiceMap

/-- The last character of a text, or else the character before the text. -/
def lastOr (before : Option Char) (s : List Char) : Option Char :=
  s.getLast?.or before

@[simp] theorem lastOr_nil (before : Option Char) : lastOr before [] = before := rfl

theorem lastOr_none (s : List Char) : lastOr none s = s.getLast? :=
  Option.or_none

theorem lastOr_cons (before : Option Char) (c : Char) (s : List Char) :
    lastOr before (c :: s) = lastOr (some c) s := by
  rw [lastOr, lastOr, List.getLast?_cons]
  cases s.getLast? <;> rfl

theorem lastOr_append (before : Option Char) (s t : List Char) :
    lastOr before (s ++ t) = lastOr (lastOr before s) t := by
  induction s generalizing before with
  | nil => rfl
  | cons c s ih => rw [List.cons_append, lastOr_cons, lastOr_cons, ih]

theorem lastOr_snoc (before : Option Char) (s : List Char) (c : Char) :
    lastOr before (s ++ [c]) = some c := by
  rw [lastOr_append]
  rfl

/-- A stretch behind a character is a stretch from the character on. -/
theorem place_cons (before : Option Char) (c : Char) (s t : List Char) (index : Nat) :
    (⟨lastOr (some c) s, t, index + 1 + s.length, []⟩ : Place)
      = ⟨lastOr before (c :: s), t, index + (c :: s).length, []⟩ := by
  rw [lastOr_cons, List.length_cons, Nat.add_assoc, Nat.add_comm 1]

/-- The place after a stretch of the text, with stretches remembered on the way. -/
def Place.after (p : Place) (taken rest : List Char) (new : List (Nat × Capture)) : Place :=
  ⟨lastOr p.before taken, rest, p.index + taken.length, new ++ p.captures⟩

namespace Place

theorem after_after (p : Place) (s t r r' : List Char) (new more : List (Nat × Capture)) :
    (p.after s r new).after t r' more = p.after (s ++ t) r' (more ++ new) := by
  simp only [after, lastOr_append, List.length_append, Nat.add_assoc, List.append_assoc]

end Place

namespace Pattern

/-- Any number of stretches one after the other, none of them empty. -/
inductive Rounds (takes : Option Char → List Char → List Char → Prop) :
    Option Char → List Char → List Char → Prop where
  | none (before : Option Char) (rest : List Char) : Rounds takes before [] rest
  | more {before : Option Char} {s t rest : List Char} (nonempty : s ≠ [])
      (first : takes before s (t ++ rest)) (others : Rounds takes (lastOr before s) t rest) :
      Rounds takes before (s ++ t) rest

/-- The pattern describes a stretch that stands between a character, if any, and a rest. -/
def Takes : Pattern → (before : Option Char) → (taken rest : List Char) → Prop
  | .empty, _, taken, _ => taken = []
  | .char accepts, _, taken, _ => ∃ c, accepts c = true ∧ taken = [c]
  | .wordEdge, before, taken, rest =>
    taken = [] ∧ before.any Text.isWord ≠ rest.head?.any Text.isWord
  | .lineStart, before, taken, _ => taken = [] ∧ before.all (· == '\n') = true
  | .textEnd, _, taken, rest => taken = [] ∧ rest = []
  | .seq first second, before, taken, rest =>
    ∃ s t, taken = s ++ t ∧ first.Takes before s (t ++ rest)
      ∧ second.Takes (lastOr before s) t rest
  | .either first second, before, taken, rest =>
    first.Takes before taken rest ∨ second.Takes before taken rest
  | .chars accepts _, _, taken, _ => ∀ c ∈ taken, accepts c = true
  | .rounds body _, before, taken, rest => Rounds body.Takes before taken rest
  | .capture _ body, before, taken, rest => body.Takes before taken rest
  | .ahead body, before, taken, rest =>
    taken = [] ∧ ∃ s t, rest = s ++ t ∧ body.Takes before s t

/-- The numbers under which a pattern remembers stretches. -/
def slots : Pattern → List Nat
  | .empty | .char _ | .wordEdge | .lineStart | .textEnd | .chars .. => []
  | .seq first second | .either first second => first.slots ++ second.slots
  | .rounds body _ | .ahead body => body.slots
  | .capture slot body => slot :: body.slots

/-! ## The single forms -/

section Forms

variable {before : Option Char} {taken rest : List Char}

theorem takes_opt {body : Pattern} :
    (opt body).Takes before taken rest ↔ body.Takes before taken rest ∨ taken = [] := Iff.rfl

theorem takes_many {accepts : Char → Bool} :
    (many accepts).Takes before taken rest ↔ ∀ c ∈ taken, accepts c = true := Iff.rfl

theorem takes_many1 {accepts : Char → Bool} :
    (many1 accepts).Takes before taken rest ↔
      taken ≠ [] ∧ ∀ c ∈ taken, accepts c = true := by
  constructor
  · rintro ⟨_, t, rfl, ⟨c, hc, rfl⟩, ht⟩
    refine ⟨List.cons_ne_nil c t, fun d hd => ?_⟩
    rcases List.mem_cons.mp hd with rfl | hd
    · exact hc
    · exact ht d hd
  · rintro ⟨hne, hall⟩
    obtain ⟨c, t, rfl⟩ := List.exists_cons_of_ne_nil hne
    exact ⟨[c], t, rfl, ⟨c, hall c List.mem_cons_self, rfl⟩,
      fun d hd => hall d (List.mem_cons_of_mem c hd)⟩

theorem takes_ofChars {text : List Char} :
    (ofChars text).Takes before taken rest ↔ taken = text := by
  induction text generalizing before taken with
  | nil => exact Iff.rfl
  | cons c text ih =>
      cases text with
      | nil =>
          constructor
          · rintro ⟨d, hd, rfl⟩
            rw [beq_iff_eq.mp hd]
          · rintro rfl
            exact ⟨c, beq_self_eq_true c, rfl⟩
      | cons d text =>
          constructor
          · rintro ⟨_, t, rfl, ⟨e, he, rfl⟩, ht⟩
            rw [beq_iff_eq.mp he, ih.mp ht]
            rfl
          · rintro rfl
            exact ⟨[c], d :: text, rfl, ⟨c, beq_self_eq_true c, rfl⟩, ih.mpr rfl⟩

theorem takes_lit {text : String} :
    (lit text).Takes before taken rest ↔ taken = text.toList := takes_ofChars

theorem takes_oneOf {texts : List String} :
    (oneOf texts).Takes before taken rest ↔ ∃ text ∈ texts, taken = text.toList := by
  induction texts with
  | nil =>
      constructor
      · rintro ⟨c, hc, -⟩
        exact absurd hc Bool.false_ne_true
      · rintro ⟨text, htext, -⟩
        exact absurd htext List.not_mem_nil
  | cons first texts ih =>
      cases texts with
      | nil =>
          rw [oneOf, takes_lit]
          simp
      | cons second texts =>
          show (lit first).Takes before taken rest ∨ (oneOf _).Takes before taken rest ↔ _
          rw [takes_lit, ih]
          simp

end Forms

/-! ## Characters of stretches -/

/-- Whether a character may occur in what a pattern describes. -/
def mayTake (c : Char) : Pattern → Bool
  | .empty | .wordEdge | .lineStart | .textEnd | .ahead _ => false
  | .char accepts | .chars accepts _ => accepts c
  | .seq first second | .either first second => first.mayTake c || second.mayTake c
  | .rounds body _ | .capture _ body => body.mayTake c

theorem not_mem_of_rounds {takes : Option Char → List Char → List Char → Prop} {c : Char}
    (htakes : ∀ before taken rest, takes before taken rest → c ∉ taken) {before : Option Char}
    {taken rest : List Char} (h : Rounds takes before taken rest) : c ∉ taken := by
  induction h with
  | none before rest => exact List.not_mem_nil
  | more _ first _ ih =>
      intro hmem
      rcases List.mem_append.mp hmem with hmem | hmem
      · exact htakes _ _ _ first hmem
      · exact ih hmem

theorem not_mem_of_takes {pattern : Pattern} {c : Char} (hc : pattern.mayTake c = false) :
    ∀ {before : Option Char} {taken rest : List Char},
      pattern.Takes before taken rest → c ∉ taken := by
  induction pattern with
  | empty =>
      rintro _ _ _ rfl
      exact List.not_mem_nil
  | wordEdge | lineStart | textEnd | ahead =>
      rintro _ _ _ ⟨rfl, -⟩
      exact List.not_mem_nil
  | char accepts =>
      rintro _ _ _ ⟨d, hd, rfl⟩ hmem
      obtain rfl := List.mem_singleton.mp hmem
      exact Bool.false_ne_true (hc.symm.trans hd)
  | chars accepts eager =>
      intro _ _ _ htakes hmem
      exact Bool.false_ne_true (hc.symm.trans (htakes c hmem))
  | seq first second ihFirst ihSecond =>
      rintro _ _ _ ⟨s, t, rfl, hfirst, hsecond⟩ hmem
      obtain ⟨hleft, hright⟩ := Bool.or_eq_false_iff.mp hc
      rcases List.mem_append.mp hmem with hmem | hmem
      · exact ihFirst hleft hfirst hmem
      · exact ihSecond hright hsecond hmem
  | either first second ihFirst ihSecond =>
      intro _ _ _ htakes
      obtain ⟨hleft, hright⟩ := Bool.or_eq_false_iff.mp hc
      rcases htakes with htakes | htakes
      · exact ihFirst hleft htakes
      · exact ihSecond hright htakes
  | rounds body eager ih => exact not_mem_of_rounds fun _ _ _ => ih hc
  | capture slot body ih => exact ih hc

/-! ## A run takes what its pattern describes -/

theorem mem_stops {accepts : Char → Bool} {p : Place} (rest : List Char) :
    ∀ {before : Option Char} {index : Nat} {captures : List (Nat × Capture)},
      p ∈ Place.stops accepts before index captures rest →
        ∃ s r, rest = s ++ r ∧ (∀ c ∈ s, accepts c = true)
          ∧ p = ⟨lastOr before s, r, index + s.length, captures⟩ := by
  induction rest with
  | nil =>
      intro before index captures hp
      rw [Place.stops, List.mem_singleton] at hp
      exact ⟨[], [], rfl, by simp, hp⟩
  | cons c rest ih =>
      intro before index captures hp
      rw [Place.stops, List.mem_cons] at hp
      rcases hp with rfl | hp
      · exact ⟨[], c :: rest, rfl, by simp, rfl⟩
      · split at hp
        · rename_i hc
          obtain ⟨s, r, rfl, hs, rfl⟩ := ih hp
          refine ⟨c :: s, r, rfl, ?_, ?_⟩
          · intro d hd
            rcases List.mem_cons.mp hd with rfl | hd
            · exact hc
            · exact hs d hd
          · rw [lastOr_cons, List.length_cons, Nat.add_assoc, Nat.add_comm 1]
        · exact absurd hp List.not_mem_nil

/-- What is known of a run that succeeds: it came to a place after a stretch that the pattern
describes, and what follows succeeds there. -/
def Passes (pattern : Pattern) (p : Place) (follow : Follow) (last : Place) : Prop :=
  ∃ taken rest new, p.rest = taken ++ rest ∧ pattern.Takes p.before taken rest
    ∧ (∀ entry ∈ new, entry.1 ∈ pattern.slots) ∧ follow (p.after taken rest new) = some last

section Passes

variable {pattern part whole : Pattern} {p : Place} {follow : Follow} {last : Place}

/-- A pattern that describes the empty stretch passes where what follows succeeds at once. -/
theorem Passes.stay (htakes : pattern.Takes p.before [] p.rest) (h : follow p = some last) :
    pattern.Passes p follow last :=
  ⟨[], p.rest, [], rfl, htakes, by simp, h⟩

theorem Passes.mono (h : part.Passes p follow last) (hslots : part.slots ⊆ whole.slots)
    (htakes : ∀ taken rest, part.Takes p.before taken rest → whole.Takes p.before taken rest) :
    whole.Passes p follow last := by
  obtain ⟨taken, rest, new, hrest, hpart, hnew, h⟩ := h
  exact ⟨taken, rest, new, hrest, htakes taken rest hpart,
    fun entry hentry => hslots (hnew entry hentry), h⟩

/-- A stretch in front of the one that a part of the pattern takes. -/
theorem Passes.behind {s r : List Char} {new : List (Nat × Capture)}
    (h : part.Passes (p.after s r new) follow last) (hs : p.rest = s ++ r)
    (hnew : ∀ entry ∈ new, entry.1 ∈ whole.slots) (hslots : part.slots ⊆ whole.slots)
    (htakes : ∀ t rest, r = t ++ rest → part.Takes (lastOr p.before s) t rest →
      whole.Takes p.before (s ++ t) rest) :
    whole.Passes p follow last := by
  obtain ⟨t, rest, more, hr, hpart, hmore, h⟩ := h
  refine ⟨s ++ t, rest, more ++ new, ?_, htakes t rest hr hpart, ?_, ?_⟩
  · rw [hs, show r = t ++ rest from hr, List.append_assoc]
  · intro entry hentry
    rcases List.mem_append.mp hentry with hentry | hentry
    · exact hslots (hmore entry hentry)
    · exact hnew entry hentry
  · rw [← Place.after_after]
    exact h

end Passes

theorem runRounds_passes {step : Place → Follow → Option Place} {body : Pattern}
    (hstep : ∀ p follow last, step p follow = some last → body.Passes p follow last)
    (eager : Bool) (limit : Nat) :
    ∀ (p : Place) (follow : Follow) (last : Place),
      runRounds step eager limit p follow = some last →
        (rounds body eager).Passes p follow last := by
  induction limit with
  | zero =>
      intro p follow last h
      exact .stay (Rounds.none _ _) h
  | succ limit ih =>
      intro p follow last h
      rcases runRounds_succ_eq_some h with h | h
      · exact .stay (Rounds.none _ _) h
      · obtain ⟨s, r, new, hs, hbody, hslots, h⟩ := hstep p _ last h
        dsimp only at h
        split at h
        · exact nomatch h
        · rename_i hindex
          have hne : s ≠ [] := by
            rintro rfl
            exact hindex rfl
          refine (ih _ follow last h).behind hs hslots (List.Subset.refl _) fun t rest hr hrounds => ?_
          exact Rounds.more hne (hr ▸ hbody) hrounds

/-- **Runs are sound.** A run that succeeds has taken a stretch that the pattern describes. -/
theorem run_passes (limit : Nat) (pattern : Pattern) :
    ∀ (p : Place) (follow : Follow) (last : Place),
      pattern.run limit p follow = some last → pattern.Passes p follow last := by
  induction pattern with
  | empty =>
      intro p follow last h
      exact .stay rfl h
  | char accepts =>
      intro p follow last h
      unfold run at h
      split at h
      · exact nomatch h
      · rename_i c rest hrest
        split at h
        · rename_i hc
          exact ⟨[c], rest, [], hrest, ⟨c, hc, rfl⟩, by simp, h⟩
        · exact nomatch h
  | wordEdge =>
      intro p follow last h
      unfold run at h
      split at h
      · rename_i hedge
        exact .stay ⟨rfl, bne_iff_ne.mp hedge⟩ h
      · exact nomatch h
  | lineStart =>
      intro p follow last h
      unfold run at h
      split at h
      · rename_i hstart
        exact .stay ⟨rfl, hstart⟩ h
      · exact nomatch h
  | textEnd =>
      intro p follow last h
      unfold run at h
      split at h
      · rename_i hend
        exact .stay ⟨rfl, List.isEmpty_iff.mp hend⟩ h
      · exact nomatch h
  | seq first second ihFirst ihSecond =>
      intro p follow last h
      obtain ⟨s, r, new, hs, hfirst, hnew, h⟩ := ihFirst p _ last h
      refine (ihSecond _ follow last h).behind hs
        (fun entry hentry => List.mem_append_left _ (hnew entry hentry))
        (List.subset_append_right _ _) fun t rest hr hsecond => ?_
      exact ⟨s, t, rfl, hr ▸ hfirst, hsecond⟩
  | either first second ihFirst ihSecond =>
      intro p follow last h
      rcases orElse_eq_some h with h | h
      · exact (ihFirst p follow last h).mono (List.subset_append_left _ _) fun _ _ => Or.inl
      · exact (ihSecond p follow last h).mono (List.subset_append_right _ _) fun _ _ => Or.inr
  | chars accepts eager =>
      intro p follow last h
      obtain ⟨q, hq, h⟩ := run_chars_eq_some h
      obtain ⟨s, r, hs, hall, rfl⟩ := mem_stops p.rest hq
      exact ⟨s, r, [], hs, hall, by simp, h⟩
  | rounds body eager ih =>
      intro p follow last h
      exact runRounds_passes ih eager limit p follow last h
  | capture slot body ih =>
      intro p follow last h
      obtain ⟨s, r, new, hs, htakes, hnew, h⟩ := ih p _ last h
      refine ⟨s, r, (slot, ⟨p.index, p.index + s.length, p.rest⟩) :: new, hs, htakes, ?_, h⟩
      intro entry hentry
      rcases List.mem_cons.mp hentry with rfl | hentry
      · exact List.mem_cons_self
      · exact List.mem_cons_of_mem _ (hnew entry hentry)
  | ahead body ih =>
      intro p follow last h
      unfold run at h
      split at h
      · rename_i hahead
        obtain ⟨q, hq⟩ := Option.isSome_iff_exists.mp hahead
        obtain ⟨s, r, new, hs, htakes, -, -⟩ := ih p some q hq
        exact .stay ⟨rfl, s, r, hs, htakes⟩ h
      · exact nomatch h

/-! ## Matches -/

/-- A match of a pattern at a place is a stretch that the pattern describes. -/
theorem takes_of_matchHere? {pattern : Pattern} {limit : Nat} {here : Place} {m : Match}
    (h : pattern.matchHere? limit here = some m) :
    ∃ taken rest, here.rest = taken ++ rest ∧ pattern.Takes here.before taken rest
      ∧ m.start = here.index ∧ m.stop = here.index + taken.length := by
  obtain ⟨last, hrun, rfl⟩ := Option.map_eq_some_iff.mp h
  obtain ⟨taken, rest, new, hrest, htakes, -, hlast⟩ := run_passes limit pattern here _ last hrun
  obtain rfl := Option.some.inj hlast
  exact ⟨taken, rest, hrest, htakes, rfl, rfl⟩

theorem group?_of_lookup {m : Match} {slot start stop : Nat} {t r : List Char}
    (h : m.captures.lookup slot = some ⟨start, stop, t ++ r⟩) (hstop : stop = start + t.length) :
    m.group? slot = some t := by
  unfold Match.group? Match.capture?
  rw [h, hstop]
  show some ((t ++ r).take (start + t.length - start)) = some t
  rw [Nat.add_sub_cancel_left, List.take_left]

theorem group_of_lookup {m : Match} {slot start stop : Nat} {t r : List Char}
    (h : m.captures.lookup slot = some ⟨start, stop, t ++ r⟩) (hstop : stop = start + t.length) :
    m.group slot = t := by
  rw [Match.group, group?_of_lookup h hstop, Option.getD_some]

/-- What a match remembers of a part of its pattern, if no later part is remembered under the same
number. -/
theorem captured_of_matchHere? {front body : Pattern} (tail : Pattern) {slot limit : Nat}
    {here : Place} {m : Match} (hslot : slot ∉ tail.slots)
    (h : (front ++ capture slot body ++ tail).matchHere? limit here = some m) :
    ∃ s t u rest, here.rest = s ++ (t ++ (u ++ rest))
      ∧ front.Takes here.before s (t ++ (u ++ rest))
      ∧ body.Takes (lastOr here.before s) t (u ++ rest)
      ∧ tail.Takes (lastOr here.before (s ++ t)) u rest
      ∧ m.group slot = t
      ∧ m.stop = here.index + (s.length + t.length + u.length) := by
  obtain ⟨last, hrun, rfl⟩ := Option.map_eq_some_iff.mp h
  obtain ⟨s, r, old, hs, hfront, -, hrun⟩ := run_passes limit front here _ last hrun
  obtain ⟨t, r', inner, rfl, hbody, -, hrun⟩ := run_passes limit body _ _ last hrun
  obtain ⟨u, rest, new, rfl, htail, hnew, hlast⟩ := run_passes limit tail _ _ last hrun
  obtain rfl := Option.some.inj hlast
  refine ⟨s, t, u, rest, hs, hfront, hbody, lastOr_append .. ▸ htail, ?_, ?_⟩
  · have hnone : new.lookup slot = none :=
      List.lookup_eq_none_iff.mpr fun entry hentry => bne_iff_ne.mpr fun heq =>
        hslot (heq ▸ hnew entry hentry)
    have hlookup : ∀ others : List (Nat × Capture),
        (new ++ (slot, ⟨here.index + s.length, here.index + s.length + t.length,
            t ++ (u ++ rest)⟩) :: others).lookup slot
          = some ⟨here.index + s.length, here.index + s.length + t.length, t ++ (u ++ rest)⟩ := by
      intro others
      rw [List.lookup_append, hnone, List.lookup_cons_self]
      rfl
    exact group_of_lookup (hlookup (inner ++ (old ++ here.captures))) rfl
  · show here.index + s.length + t.length + u.length = _
    omega

/-- A run of a pattern that remembers nothing leaves what is remembered as it is. -/
theorem run_passes_bare {pattern : Pattern} (hslots : pattern.slots = []) {limit : Nat} {p : Place}
    {follow : Follow} {last : Place} (h : pattern.run limit p follow = some last) :
    ∃ taken rest, p.rest = taken ++ rest ∧ pattern.Takes p.before taken rest
      ∧ follow (p.after taken rest []) = some last := by
  obtain ⟨taken, rest, new, hrest, htakes, hnew, hlast⟩ := run_passes limit pattern p follow last h
  have hnil : new = [] := by
    refine List.eq_nil_iff_forall_not_mem.mpr fun entry hentry => ?_
    exact List.not_mem_nil (hslots ▸ hnew entry hentry)
  rw [hnil] at hlast
  exact ⟨taken, rest, hrest, htakes, hlast⟩

/-- What a match remembers of three parts of its pattern, if the parts between remember nothing. -/
theorem captured_three {A B G C D E F : Pattern} (hA : A.slots = []) (hB : B.slots = [])
    (hG : G.slots = []) (hC : C.slots = []) (hD : D.slots = []) (hE : E.slots = [])
    (hF : F.slots = []) {limit : Nat} {here : Place} {m : Match}
    (h : (A ++ (capture 1 B ++ (G ++ (capture 2 C ++ (D ++ (capture 3 E ++ F)))))).matchHere?
      limit here = some m) :
    ∃ a b g c d e f rest,
      here.rest = a ++ (b ++ (g ++ (c ++ (d ++ (e ++ (f ++ rest))))))
        ∧ A.Takes here.before a (b ++ (g ++ (c ++ (d ++ (e ++ (f ++ rest))))))
        ∧ (∃ before, B.Takes before b (g ++ (c ++ (d ++ (e ++ (f ++ rest))))))
        ∧ (∃ before, G.Takes before g (c ++ (d ++ (e ++ (f ++ rest)))))
        ∧ (∃ before, C.Takes before c (d ++ (e ++ (f ++ rest))))
        ∧ (∃ before, D.Takes before d (e ++ (f ++ rest)))
        ∧ (∃ before, E.Takes before e (f ++ rest))
        ∧ (∃ before, F.Takes before f rest)
        ∧ m.group 1 = b ∧ m.group 2 = c ∧ m.group 3 = e
        ∧ m.stop = here.index + (a ++ (b ++ (g ++ (c ++ (d ++ (e ++ f)))))).length := by
  obtain ⟨last, hrun, rfl⟩ := Option.map_eq_some_iff.mp h
  obtain ⟨a, r, ha, hA, hrun⟩ := run_passes_bare hA hrun
  obtain ⟨b, r, rfl, hB, hrun⟩ := run_passes_bare hB hrun
  obtain ⟨g, r, rfl, hG, hrun⟩ := run_passes_bare hG hrun
  obtain ⟨c, r, rfl, hC, hrun⟩ := run_passes_bare hC hrun
  obtain ⟨d, r, rfl, hD, hrun⟩ := run_passes_bare hD hrun
  obtain ⟨e, r, rfl, hE, hrun⟩ := run_passes_bare hE hrun
  obtain ⟨f, rest, rfl, hF, hlast⟩ := run_passes_bare hF hrun
  obtain rfl := Option.some.inj hlast
  refine ⟨a, b, g, c, d, e, f, rest, ha, hA, ⟨_, hB⟩, ⟨_, hG⟩, ⟨_, hC⟩, ⟨_, hD⟩, ⟨_, hE⟩, ⟨_, hF⟩,
    group_of_lookup (t := b) rfl rfl, group_of_lookup (t := c) rfl rfl,
    group_of_lookup (t := e) rfl rfl, ?_⟩
  show here.index + a.length + b.length + g.length + c.length + d.length + e.length + f.length = _
  simp only [List.length_append, Nat.add_assoc]

/-- A match that was found starts somewhere in the text. -/
theorem split_of_mem_allFrom {pattern : Pattern} {limit : Nat} {m : Match} (rest : List Char) :
    ∀ {resume : Nat} {before : Option Char} {index : Nat},
      m ∈ pattern.allFrom limit resume before index rest →
        ∃ done more, rest = done ++ more
          ∧ pattern.matchHere? limit ⟨lastOr before done, more, index + done.length, []⟩
            = some m := by
  induction rest with
  | nil =>
      intro resume before index hm
      unfold allFrom at hm
      split at hm
      · exact absurd hm List.not_mem_nil
      · exact ⟨[], [], rfl, Option.mem_toList.mp hm⟩
  | cons c rest ih =>
      intro resume before index hm
      have later : ∀ {resume}, m ∈ pattern.allFrom limit resume (some c) (index + 1) rest →
          ∃ done more, c :: rest = done ++ more
            ∧ pattern.matchHere? limit ⟨lastOr before done, more, index + done.length, []⟩
              = some m := by
        intro resume hm
        obtain ⟨done, more, rfl, hmatch⟩ := ih hm
        refine ⟨c :: done, more, rfl, ?_⟩
        rw [lastOr_cons, List.length_cons, Nat.add_comm done.length, ← Nat.add_assoc]
        exact hmatch
      unfold allFrom at hm
      split at hm
      · exact later hm
      · split at hm
        · rename_i found hfound
          rcases List.mem_cons.mp hm with rfl | hm
          · exact ⟨[], c :: rest, rfl, hfound⟩
          · exact later hm
        · exact later hm

/-- The leftmost match starts somewhere in the text. -/
theorem split_of_firstFrom? {pattern : Pattern} {limit : Nat} {m : Match} (rest : List Char) :
    ∀ {before : Option Char} {index : Nat},
      pattern.firstFrom? limit before index rest = some m →
        ∃ done more, rest = done ++ more
          ∧ pattern.matchHere? limit ⟨lastOr before done, more, index + done.length, []⟩
            = some m := by
  induction rest with
  | nil =>
      intro before index h
      exact ⟨[], [], rfl, h⟩
  | cons c rest ih =>
      intro before index h
      unfold firstFrom? at h
      split at h
      · rename_i found hfound
        obtain rfl := Option.some.inj h
        exact ⟨[], c :: rest, rfl, hfound⟩
      · obtain ⟨done, more, rfl, hmatch⟩ := ih h
        refine ⟨c :: done, more, rfl, ?_⟩
        rw [lastOr_cons, List.length_cons, Nat.add_comm done.length, ← Nat.add_assoc]
        exact hmatch

end Pattern

end ServiceMap
