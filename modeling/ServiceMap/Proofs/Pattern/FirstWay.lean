import Mathlib.Data.List.TakeWhile
import ServiceMap.Proofs.Pattern.Complete

/-!
# The first way to match

What a pattern takes where several ways to match are open. A pattern takes a stretch first if a run
succeeds by this stretch whenever what follows succeeds after it. Forms that follow one another take
their stretches one after the other; a repetition takes as much as it can, or as little as what
follows allows; an optional part is passed over only where it cannot match, alone or together with
what follows. The second branch of a choice counts only where the first one fails, and an eager
repetition of a pattern takes a stretch for each round, until the pattern fails.
-/

namespace ServiceMap.Pattern

/-- The first way in which a pattern matches at a place: the stretch it takes, what is left of the
text, and what is remembered on the way. -/
structure TakesFirst (pattern : Pattern) (limit : Nat) (p : Place) (taken rest : List Char)
    (new : List (Nat × Capture)) : Prop where
  text : p.rest = taken ++ rest
  first : ∀ follow last, follow (p.after taken rest new) = some last →
    pattern.run limit p follow = some last

/-- There is no way to match a pattern at a place. -/
def Fails (pattern : Pattern) (limit : Nat) (p : Place) : Prop :=
  ∀ follow, pattern.run limit p follow = none

section

variable {limit : Nat} {p : Place} {taken rest : List Char} {new : List (Nat × Capture)}

theorem fails_of_not_takes {pattern : Pattern}
    (h : ∀ taken rest, p.rest = taken ++ rest → ¬pattern.Takes p.before taken rest) :
    pattern.Fails limit p := by
  intro follow
  refine Option.eq_none_iff_forall_ne_some.mpr fun last hlast => ?_
  obtain ⟨taken, rest, _, htext, htakes, -, -⟩ := run_passes limit pattern p follow last hlast
  exact h taken rest htext htakes

/-! ## Forms that follow one another -/

theorem TakesFirst.append {first second : Pattern} {t rest' : List Char}
    {more : List (Nat × Capture)} (hfirst : first.TakesFirst limit p taken rest new)
    (hsecond : second.TakesFirst limit (p.after taken rest new) t rest' more) :
    (first ++ second).TakesFirst limit p (taken ++ t) rest' (more ++ new) where
  text := by
    rw [hfirst.text, List.append_assoc]
    exact congrArg (taken ++ ·) hsecond.text
  first := by
    intro follow last h
    refine hfirst.first _ last (hsecond.first follow last ?_)
    rwa [Place.after_after]

theorem takesFirst_append_assoc {first second third : Pattern} :
    (first ++ second ++ third).TakesFirst limit p taken rest new
      ↔ (first ++ (second ++ third)).TakesFirst limit p taken rest new :=
  ⟨fun h => ⟨h.text, h.first⟩, fun h => ⟨h.text, h.first⟩⟩

theorem TakesFirst.opt {body : Pattern} (h : body.TakesFirst limit p taken rest new) :
    (opt body).TakesFirst limit p taken rest new where
  text := h.text
  first := by
    intro follow last hlast
    show (body.run limit p follow <|> follow p) = some last
    rw [h.first follow last hlast]
    rfl

theorem TakesFirst.opt_append {body tail : Pattern}
    (h : (body ++ tail).TakesFirst limit p taken rest new) :
    (Pattern.opt body ++ tail).TakesFirst limit p taken rest new where
  text := h.text
  first := by
    intro follow last hlast
    have hbody : body.run limit p (fun q => tail.run limit q follow) = some last :=
      h.first follow last hlast
    show (body.run limit p _ <|> tail.run limit p follow) = some last
    rw [hbody]
    rfl

theorem Fails.opt {body : Pattern} (h : body.Fails limit p) :
    (opt body).TakesFirst limit p [] p.rest [] where
  text := rfl
  first := by
    intro follow last hlast
    show (body.run limit p follow <|> follow p) = some last
    rw [h follow]
    exact hlast

theorem TakesFirst.capture {body : Pattern} (slot : Nat)
    (h : body.TakesFirst limit p taken rest new) :
    (capture slot body).TakesFirst limit p taken rest
      ((slot, ⟨p.index, p.index + taken.length, p.rest⟩) :: new) where
  text := h.text
  first := fun follow last hlast => h.first (fun q => follow (q.remember slot p)) last hlast

theorem takesFirst_wordEdge (h : p.before.any Text.isWord ≠ p.rest.head?.any Text.isWord) :
    wordEdge.TakesFirst limit p [] p.rest [] where
  text := rfl
  first := by
    intro follow last hlast
    have hedge : p.atWordEdge = true := bne_iff_ne.mpr h
    rw [run, if_pos hedge]
    exact hlast

theorem takesFirst_char {accepts : Char → Bool} {c : Char} (htext : p.rest = c :: rest)
    (hc : accepts c = true) : (char accepts).TakesFirst limit p [c] rest [] where
  text := htext
  first := by
    intro follow last hlast
    rw [run, htext]
    show (if accepts c then follow (p.next c rest) else none) = some last
    rw [if_pos hc]
    exact hlast

theorem takesFirst_ofChars (text : List Char) :
    ∀ {p : Place}, p.rest = text ++ rest → (ofChars text).TakesFirst limit p text rest [] := by
  induction text with
  | nil =>
      intro p htext
      obtain rfl : p.rest = rest := htext
      exact ⟨rfl, fun follow last hlast => hlast⟩
  | cons c text ih =>
      intro p htext
      cases text with
      | nil => exact takesFirst_char htext (beq_self_eq_true c)
      | cons d text =>
          have hfirst : (char (· == c)).TakesFirst limit p [c] (d :: text ++ rest) [] :=
            takesFirst_char htext (beq_self_eq_true c)
          exact hfirst.append (ih rfl)

theorem takesFirst_lit {s : String} (htext : p.rest = s.toList ++ rest) :
    (lit s).TakesFirst limit p s.toList rest [] :=
  takesFirst_ofChars s.toList htext

end

/-! ## Repetitions -/

/-- The places that a repetition may stop at are those before, at and after the end of a stretch of
its class. -/
theorem stops_split {accepts : Char → Bool} (rest : List Char) (captures : List (Nat × Capture))
    (s : List Char) :
    ∀ (before : Option Char) (index : Nat), (∀ c ∈ s, accepts c = true) →
      ∃ nearer farther, Place.stops accepts before index captures (s ++ rest)
          = nearer ++ ⟨lastOr before s, rest, index + s.length, captures⟩ :: farther
        ∧ (∀ q ∈ nearer, ∃ d e, s = d ++ e ∧ e ≠ []
          ∧ q = ⟨lastOr before d, e ++ rest, index + d.length, captures⟩)
        ∧ ∀ q ∈ farther, ∃ d e, rest = d ++ e ∧ d ≠ [] ∧ (∀ c ∈ d, accepts c = true)
          ∧ q = ⟨lastOr before (s ++ d), e, index + (s ++ d).length, captures⟩ := by
  induction s with
  | nil =>
      intro before index _
      cases rest with
      | nil =>
          refine ⟨[], [], rfl, fun q hq => absurd hq List.not_mem_nil, fun q hq => ?_⟩
          exact absurd hq List.not_mem_nil
      | cons c rest =>
          refine ⟨[], _, rfl, fun q hq => absurd hq List.not_mem_nil, fun q hq => ?_⟩
          split at hq
          · rename_i hc
            obtain ⟨d, e, rfl, hd, rfl⟩ := mem_stops rest hq
            refine ⟨c :: d, e, rfl, List.cons_ne_nil c d, ?_, ?_⟩
            · intro x hx
              rcases List.mem_cons.mp hx with rfl | hx
              · exact hc
              · exact hd x hx
            · rw [List.nil_append, lastOr_cons, List.length_cons, Nat.add_assoc, Nat.add_comm 1]
          · exact absurd hq List.not_mem_nil
  | cons c s ih =>
      intro before index hs
      obtain ⟨nearer, farther, hstops, hnearer, hfarther⟩ :=
        ih (some c) (index + 1) fun d hd => hs d (List.mem_cons_of_mem c hd)
      have hplace : ∀ t : List Char, index + 1 + t.length = index + (c :: t).length := by
        intro t
        rw [List.length_cons]
        omega
      refine ⟨⟨before, c :: s ++ rest, index, captures⟩ :: nearer, farther, ?_, ?_, ?_⟩
      · rw [List.cons_append, Place.stops, if_pos (hs c List.mem_cons_self), hstops, lastOr_cons,
          hplace]
        rfl
      · intro q hq
        rcases List.mem_cons.mp hq with rfl | hq
        · exact ⟨[], c :: s, rfl, List.cons_ne_nil c s, rfl⟩
        · obtain ⟨d, e, rfl, he, rfl⟩ := hnearer q hq
          exact ⟨c :: d, e, rfl, he, by rw [lastOr_cons, hplace]⟩
      · intro q hq
        obtain ⟨d, e, rfl, hd, hall, rfl⟩ := hfarther q hq
        exact ⟨d, e, rfl, hd, hall, by rw [List.cons_append, lastOr_cons, hplace]⟩

section

variable {accepts : Char → Bool} {limit : Nat} {p last : Place} {follow : Follow}
  {s rest : List Char}

/-- An eager repetition stops where what follows succeeds, if it succeeds at no place beyond. -/
theorem run_chars_eager (limit : Nat) (htext : p.rest = s ++ rest) (hs : ∀ c ∈ s, accepts c = true)
    (hlast : follow (p.after s rest []) = some last)
    (hbeyond : ∀ d e, rest = d ++ e → d ≠ [] → (∀ c ∈ d, accepts c = true) →
      follow (p.after (s ++ d) e []) = none) :
    (chars accepts true).run limit p follow = some last := by
  obtain ⟨nearer, farther, hstops, -, hfarther⟩ :=
    stops_split rest p.captures s p.before p.index hs
  rw [run, if_pos rfl, Place.stopsBack_eq, List.append_nil, htext, hstops, List.reverse_append,
    List.reverse_cons, List.append_assoc, List.findSome?_append,
    List.findSome?_eq_none_iff.mpr]
  · rw [Option.none_or, List.singleton_append]
    exact (List.findSome?_cons_of_isSome (Option.isSome_of_eq_some hlast)).trans hlast
  · intro q hq
    obtain ⟨d, e, hde, hd, hall, rfl⟩ := hfarther q (List.mem_reverse.mp hq)
    exact hbeyond d e hde hd hall

/-- A reluctant repetition stops where what follows succeeds, if it succeeds at no place before. -/
theorem run_chars_reluctant (limit : Nat) (htext : p.rest = s ++ rest)
    (hs : ∀ c ∈ s, accepts c = true) (hlast : follow (p.after s rest []) = some last)
    (hbefore : ∀ d e, s = d ++ e → e ≠ [] → follow (p.after d (e ++ rest) []) = none) :
    (chars accepts false).run limit p follow = some last := by
  obtain ⟨nearer, farther, hstops, hnearer, -⟩ :=
    stops_split rest p.captures s p.before p.index hs
  rw [run, if_neg Bool.false_ne_true, htext, hstops, List.findSome?_append,
    List.findSome?_eq_none_iff.mpr]
  · rw [Option.none_or]
    exact (List.findSome?_cons_of_isSome (Option.isSome_of_eq_some hlast)).trans hlast
  · intro q hq
    obtain ⟨d, e, hde, he, rfl⟩ := hnearer q hq
    exact hbefore d e hde he

theorem takesFirst_many (htext : p.rest = s ++ rest) (hs : ∀ c ∈ s, accepts c = true)
    (hrest : ∀ c ∈ rest.head?, accepts c = false) :
    (many accepts).TakesFirst limit p s rest [] where
  text := htext
  first := by
    intro follow last hlast
    refine run_chars_eager limit htext hs hlast fun d e hde hd hall => ?_
    obtain ⟨c, d, rfl⟩ := List.exists_cons_of_ne_nil hd
    subst hde
    exact absurd ((hrest c rfl).symm.trans (hall c List.mem_cons_self)) Bool.false_ne_true

theorem takesFirst_many1 (htext : p.rest = s ++ rest) (hne : s ≠ [])
    (hs : ∀ c ∈ s, accepts c = true) (hrest : ∀ c ∈ rest.head?, accepts c = false) :
    (many1 accepts).TakesFirst limit p s rest [] := by
  obtain ⟨c, s, rfl⟩ := List.exists_cons_of_ne_nil hne
  have hfirst : (char accepts).TakesFirst limit p [c] (s ++ rest) [] :=
    takesFirst_char htext (hs c List.mem_cons_self)
  exact hfirst.append (takesFirst_many rfl (fun d hd => hs d (List.mem_cons_of_mem c hd)) hrest)

/-- An eager repetition before a character goes up to its last occurrence. -/
theorem takesFirst_many_char {c : Char} {t : List Char} (htext : p.rest = s ++ c :: (t ++ rest))
    (hs : ∀ d ∈ s ++ c :: t, accepts d = true) (ht : c ∉ t)
    (hrest : ∀ d ∈ rest.head?, accepts d = false) :
    (many accepts ++ char (· == c)).TakesFirst limit p (s ++ [c]) (t ++ rest) [] where
  text := by rw [htext, List.append_assoc]; rfl
  first := by
    intro follow last hlast
    have hc : accepts c = true := hs c (List.mem_append_right _ List.mem_cons_self)
    refine run_chars_eager limit htext (fun d hd => hs d (List.mem_append_left _ hd)) ?_ ?_
    · have hchar : (char (· == c)).TakesFirst limit (p.after s (c :: (t ++ rest)) []) [c]
          (t ++ rest) [] := takesFirst_char rfl (beq_self_eq_true c)
      refine hchar.first follow last ?_
      rwa [Place.after_after]
    · intro d e hde hd hall
      -- what stands beyond is no longer of the class, or it is not the character
      refine fails_of_not_takes ?_ follow
      rintro _ more hmore ⟨x, hx, rfl⟩
      obtain rfl := beq_iff_eq.mp hx
      obtain rfl : e = x :: more := hmore
      obtain ⟨y, d, rfl⟩ := List.exists_cons_of_ne_nil hd
      obtain ⟨rfl, htail⟩ := List.cons.inj hde
      rcases List.append_eq_append_iff.mp htail with ⟨a, hd', hmore⟩ | ⟨a, ht', hmore⟩
      · cases a with
        | nil =>
            have hhead : x ∈ rest.head? := by
              rw [show rest = x :: more from hmore]
              rfl
            exact Bool.false_ne_true ((hrest x hhead).symm.trans hc)
        | cons z a =>
            have hhead : z ∈ rest.head? := by
              rw [hmore]
              rfl
            have hz : z ∈ x :: d := by
              rw [hd']
              simp
            exact Bool.false_ne_true ((hrest z hhead).symm.trans (hall z hz))
      · cases a with
        | nil =>
            have hhead : x ∈ rest.head? := by
              rw [← show x :: more = rest from hmore]
              rfl
            exact Bool.false_ne_true ((hrest x hhead).symm.trans hc)
        | cons z a =>
            obtain ⟨rfl, -⟩ := List.cons.inj hmore
            exact ht (by rw [ht']; simp)

/-- A reluctant repetition before a character goes up to its first occurrence. -/
theorem takesFirst_few_char {c : Char} (htext : p.rest = s ++ c :: rest)
    (hs : ∀ d ∈ s, accepts d = true) (hc : c ∉ s) :
    (few accepts ++ char (· == c)).TakesFirst limit p (s ++ [c]) rest [] where
  text := by rw [htext, List.append_assoc]; rfl
  first := by
    intro follow last hlast
    refine run_chars_reluctant limit htext hs ?_ ?_
    · have hchar : (char (· == c)).TakesFirst limit (p.after s (c :: rest) []) [c] rest [] :=
        takesFirst_char rfl (beq_self_eq_true c)
      refine hchar.first follow last ?_
      rwa [Place.after_after]
    · intro d e hde he
      refine fails_of_not_takes ?_ follow
      rintro _ more hmore ⟨x, hx, rfl⟩
      obtain rfl := beq_iff_eq.mp hx
      obtain ⟨y, e, rfl⟩ := List.exists_cons_of_ne_nil he
      obtain ⟨rfl, -⟩ := List.cons.inj (show y :: (e ++ x :: rest) = x :: more from hmore)
      exact hc (by rw [hde]; simp)

/-- A reluctant repetition is remembered up to the first place at which what follows can match. -/
theorem takesFirst_few1_captured {tail : Pattern} {slot : Nat} {t rest' : List Char}
    {new : List (Nat × Capture)} (htext : p.rest = s ++ rest) (hne : s ≠ [])
    (hs : ∀ c ∈ s, accepts c = true)
    (htail : tail.TakesFirst limit
      (p.after s rest [(slot, ⟨p.index, p.index + s.length, p.rest⟩)]) t rest' new)
    (hbefore : ∀ d e more, s = d ++ e → d ≠ [] → e ≠ [] →
      tail.Fails limit (p.after d (e ++ rest) more)) :
    (capture slot (few1 accepts) ++ tail).TakesFirst limit p (s ++ t) rest'
      (new ++ [(slot, ⟨p.index, p.index + s.length, p.rest⟩)]) where
  text := by
    rw [htext, List.append_assoc]
    exact congrArg (s ++ ·) htail.text
  first := by
    intro follow last hlast
    obtain ⟨c, s, rfl⟩ := List.exists_cons_of_ne_nil hne
    have hfirst : (char accepts).TakesFirst limit p [c] (s ++ rest) [] :=
      takesFirst_char htext (hs c List.mem_cons_self)
    refine hfirst.first (fun q => (chars accepts false).run limit q fun r =>
      tail.run limit (r.remember slot p) follow) last ?_
    refine run_chars_reluctant limit rfl (fun d hd => hs d (List.mem_cons_of_mem c hd)) ?_ ?_
    · rw [Place.after_after]
      refine htail.first follow last ?_
      rwa [Place.after_after]
    · intro d e hde he
      rw [Place.after_after]
      exact hbefore (c :: d) e [(slot, ⟨p.index, p.index + (c :: d).length, p.rest⟩)]
        (by rw [hde]; rfl) (List.cons_ne_nil c d) he follow

end

/-! ## Matches -/

/-- The match of a pattern at a place, by the first way. -/
theorem matchHere?_of_takesFirst {pattern : Pattern} {limit : Nat} {here : Place}
    {taken rest : List Char} {new : List (Nat × Capture)}
    (h : pattern.TakesFirst limit here taken rest new) :
    pattern.matchHere? limit here
      = some ⟨⟨here.index, here.index + taken.length, here.rest⟩, new ++ here.captures⟩ := by
  rw [matchHere?, h.first some _ rfl]
  rfl

/-- A match whose first part is known, if the second part may take nothing. What is remembered in the
first part is then known too. -/
theorem matchHere?_append {first second : Pattern} {limit : Nat} {here : Place}
    {taken rest : List Char} {new : List (Nat × Capture)}
    (hfirst : first.TakesFirst limit here taken rest new)
    (hsecond : second.Takes (lastOr here.before taken) [] rest) (hlimit : here.rest.length ≤ limit) :
    ∃ t r more, rest = t ++ r ∧ (∀ entry ∈ more, entry.1 ∈ second.slots)
      ∧ (first ++ second).matchHere? limit here
        = some ⟨⟨here.index, here.index + (taken ++ t).length, here.rest⟩,
          more ++ new ++ here.captures⟩ := by
  have hleft : (here.after taken rest new).rest.length ≤ limit := by
    rw [hfirst.text, List.length_append] at hlimit
    exact Nat.le_trans (Nat.le_add_left _ _) hlimit
  obtain ⟨last, hlast⟩ := Option.isSome_iff_exists.mp <|
    run_isSome limit second (here.after taken rest new) some [] rest rfl hleft hsecond
      fun _ => rfl
  obtain ⟨t, r, more, htext, -, hmore, hend⟩ := run_passes limit second _ some last hlast
  refine ⟨t, r, more, htext, hmore, ?_⟩
  obtain rfl := Option.some.inj hend
  have hrun : (first ++ second).run limit here some = some _ := hfirst.first _ _ hlast
  rw [matchHere?, hrun, Place.after_after]
  rfl

theorem group?_of_not_mem {whole : Capture} {more captures : List (Nat × Capture)} {slot : Nat}
    (h : ∀ entry ∈ more, entry.1 ≠ slot) :
    Match.group? ⟨whole, more ++ captures⟩ slot = Match.group? ⟨whole, captures⟩ slot := by
  have hnone : more.lookup slot = none :=
    List.lookup_eq_none_iff.mpr fun entry hentry => bne_iff_ne.mpr (h entry hentry).symm
  rw [Match.group?, Match.group?, Match.capture?, Match.capture?, List.lookup_append, hnone,
    Option.none_or]

/-! ## Choices -/

section Choices

variable {first second body : Pattern} {limit : Nat} {p : Place} {taken rest : List Char}
  {new : List (Nat × Capture)}

theorem TakesFirst.left (h : first.TakesFirst limit p taken rest new) :
    (either first second).TakesFirst limit p taken rest new where
  text := h.text
  first := by
    intro follow last hlast
    show (first.run limit p follow <|> second.run limit p follow) = some last
    rw [h.first follow last hlast]
    rfl

theorem Fails.right (hfirst : first.Fails limit p)
    (h : second.TakesFirst limit p taken rest new) :
    (either first second).TakesFirst limit p taken rest new where
  text := h.text
  first := by
    intro follow last hlast
    show (first.run limit p follow <|> second.run limit p follow) = some last
    rw [hfirst follow]
    exact h.first follow last hlast

/-- An optional part is left out where it fails together with what follows it. -/
theorem Fails.opt_append {tail : Pattern} (hbody : (body ++ tail).Fails limit p)
    (h : tail.TakesFirst limit p taken rest new) :
    (Pattern.opt body ++ tail).TakesFirst limit p taken rest new where
  text := h.text
  first := by
    intro follow last hlast
    have hrun : body.run limit p (fun q => tail.run limit q follow) = none := hbody follow
    show (body.run limit p _ <|> tail.run limit p follow) = some last
    rw [hrun]
    exact h.first follow last hlast

theorem Fails.append (h : first.Fails limit p) (second : Pattern) : (first ++ second).Fails limit p :=
  fun follow => h fun q => second.run limit q follow

theorem fails_lit {s : String} {c : Char} {t : List Char} (htext : s.toList = c :: t)
    (h : p.rest.head? ≠ some c) : (lit s).Fails limit p := by
  refine fails_of_not_takes fun taken rest hrest htakes => h ?_
  rw [hrest, takes_lit.mp htakes, htext]
  rfl

/-- There is an edge before a name that does not go on from the left. -/
theorem takesFirst_edge_of_word {c : Char} {s : List Char} (hc : Text.isWord c = true)
    (hbefore : ∀ d ∈ p.before, Text.isWord d = false) (htext : p.rest = c :: s) :
    wordEdge.TakesFirst limit p [] p.rest [] := by
  refine takesFirst_wordEdge ?_
  rw [htext, List.head?_cons, Option.any_some, hc]
  cases hp : p.before with
  | none => decide
  | some d =>
      rw [Option.any_some, hbefore d hp]
      decide

/-- An eager repetition takes all characters of its class. -/
theorem takesFirst_many_whole (accepts : Char → Bool) :
    (many accepts).TakesFirst limit p (p.rest.takeWhile accepts) (p.rest.dropWhile accepts) [] := by
  refine takesFirst_many List.takeWhile_append_dropWhile.symm
    (fun c hc => List.mem_takeWhile_imp hc) fun c hc => ?_
  have hnot := List.head?_dropWhile_not accepts p.rest
  rw [hc] at hnot
  simpa using hnot

/-! ## Rounds -/

/-- Rounds of a pattern that takes each stretch of a list first, one after the other, and then fails. -/
inductive TakesRounds (body : Pattern) (limit : Nat) : Place → List (List Char) → List Char → Prop where
  | done {p : Place} (fails : body.Fails limit p) : TakesRounds body limit p [] p.rest
  | round {p : Place} {s rest : List Char} {stretches : List (List Char)} (nonempty : s ≠ [])
      (first : body.TakesFirst limit p s (stretches.flatten ++ rest) [])
      (others : TakesRounds body limit (p.after s (stretches.flatten ++ rest) []) stretches rest) :
      TakesRounds body limit p (s :: stretches) rest

theorem TakesRounds.text {stretches : List (List Char)}
    (h : TakesRounds body limit p stretches rest) : p.rest = stretches.flatten ++ rest := by
  cases h with
  | done => rfl
  | round nonempty first others => rw [first.text, List.flatten_cons, List.append_assoc]

theorem TakesRounds.runRounds {stretches : List (List Char)} {rounds : Nat}
    (h : TakesRounds body limit p stretches rest) (hrounds : stretches.length ≤ rounds)
    (follow : Follow) (last : Place)
    (hlast : follow (p.after stretches.flatten rest []) = some last) :
    runRounds (fun q next => body.run limit q next) true rounds p follow = some last := by
  induction h generalizing rounds with
  | done fails =>
      cases rounds with
      | zero => exact hlast
      | succ rounds =>
          rw [Pattern.runRounds, if_pos rfl, fails]
          exact hlast
  | @round p s rest stretches nonempty first others ih =>
      obtain ⟨rounds, rfl⟩ : ∃ n, rounds = n + 1 := ⟨rounds - 1, by
        rw [List.length_cons] at hrounds
        omega⟩
      have hmoved : (p.after s (stretches.flatten ++ rest) []).index ≠ p.index := by
        have hpos := List.length_pos_iff.mpr nonempty
        show p.index + s.length ≠ p.index
        omega
      have honward : body.run limit p (fun q => if q.index = p.index then none
          else Pattern.runRounds (fun q next => body.run limit q next) true rounds q follow)
          = some last := by
        refine first.first _ last ?_
        rw [if_neg hmoved]
        refine ih (Nat.le_of_succ_le_succ hrounds) ?_
        rw [Place.after_after]
        exact hlast
      rw [Pattern.runRounds, if_pos rfl, honward]
      rfl

/-- An eager repetition takes all rounds. -/
theorem TakesRounds.star {stretches : List (List Char)}
    (h : TakesRounds body limit p stretches rest) (hlimit : stretches.length ≤ limit) :
    (star body).TakesFirst limit p stretches.flatten rest [] where
  text := h.text
  first := h.runRounds hlimit

end Choices

end ServiceMap.Pattern
