import ServiceMap.Pattern.Matching

/-!
# Places that a run goes through

A run of a pattern moves from place to place, one character at a time. What holds of the place where
it begins and is kept by each move holds of the place that it hands to what follows, and a relation
that each move is a step of holds between the two places. That every place is one of the text itself
is such a property, so that the end of a match tells what stands before it.
-/

namespace ServiceMap

/-- A stretch that a match remembers starts where one of its entries says. -/
theorem Match.groupStart_mem (m : Match) (slot : Nat) :
    m.groupStart slot = m.start ∨ ∃ entry ∈ m.captures, m.groupStart slot = entry.2.start := by
  unfold Match.groupStart Match.capture?
  cases hlookup : m.captures.lookup slot with
  | none => exact Or.inl rfl
  | some capture =>
      obtain ⟨before, after, heq, -⟩ := List.lookup_eq_some_iff.mp hlookup
      refine Or.inr ⟨(slot, capture), ?_, rfl⟩
      rw [heq]
      exact List.mem_append_right _ List.mem_cons_self

/-! ## Where a run gets to -/

/-- A relation that holds between a place and the places that a run comes to from there: going one
character on and remembering the stretch since an earlier place are steps of it. -/
structure Place.HoldsAlong (reaches : Place → Place → Prop) : Prop where
  refl : ∀ p, reaches p p
  trans : ∀ {p q r}, reaches p q → reaches q r → reaches p r
  next : ∀ p c rest, p.rest = c :: rest → reaches p (p.next c rest)
  remember : ∀ {begun p} slot, reaches begun p → reaches begun (p.remember slot begun)

namespace Place

variable {reaches : Place → Place → Prop}

theorem stops_reached (h : HoldsAlong reaches) (accepts : Char → Bool) (rest : List Char) :
    ∀ (before : Option Char) (index : Nat) (captures : List (Nat × Capture)),
      ∀ p ∈ stops accepts before index captures rest,
        reaches ⟨before, rest, index, captures⟩ p := by
  induction rest with
  | nil =>
      intro before index captures p hp
      rw [stops, List.mem_singleton] at hp
      exact hp ▸ h.refl _
  | cons c rest ih =>
      intro before index captures p hp
      rw [stops, List.mem_cons] at hp
      rcases hp with rfl | hp
      · exact h.refl _
      · split at hp
        · exact h.trans (h.next _ c rest rfl) (ih (some c) (index + 1) captures p hp)
        · exact absurd hp (List.not_mem_nil)

end Place

namespace Pattern

variable {reaches : Place → Place → Prop}

theorem orElse_eq_some {first second : Option Place} {last : Place}
    (h : (first <|> second) = some last) : first = some last ∨ second = some last := by
  cases first with
  | none => exact Or.inr h
  | some p => exact Or.inl h

/-- Rounds that succeed end at once, or go on after one more round. -/
theorem runRounds_succ_eq_some {step : Place → Follow → Option Place} {eager : Bool} {limit : Nat}
    {p last : Place} {follow : Follow}
    (h : runRounds step eager (limit + 1) p follow = some last) :
    follow p = some last ∨ (step p fun q =>
      if q.index = p.index then none else runRounds step eager limit q follow) = some last := by
  rw [runRounds] at h
  cases eager with
  | true => exact (orElse_eq_some h).symm
  | false => exact orElse_eq_some h

/-- A repetition that succeeds ends at one of its places. The order in which they are tried is left
out. -/
theorem run_chars_eq_some {accepts : Char → Bool} {eager : Bool} {limit : Nat} {p last : Place}
    {follow : Follow} (h : (chars accepts eager).run limit p follow = some last) :
    ∃ q ∈ Place.stops accepts p.before p.index p.captures p.rest, follow q = some last := by
  rw [run, Place.stopsBack_eq, List.append_nil] at h
  cases eager with
  | true =>
      obtain ⟨q, hq, h⟩ := List.exists_of_findSome?_eq_some h
      exact ⟨q, List.mem_reverse.mp hq, h⟩
  | false => exact List.exists_of_findSome?_eq_some h

theorem runRounds_reaches (hreaches : Place.HoldsAlong reaches)
    {step : Place → Follow → Option Place}
    (hstep : ∀ p follow last, step p follow = some last →
      ∃ q, reaches p q ∧ follow q = some last)
    (eager : Bool) (limit : Nat) :
    ∀ (p : Place) (follow : Follow) (last : Place),
      runRounds step eager limit p follow = some last →
        ∃ q, reaches p q ∧ follow q = some last := by
  induction limit with
  | zero =>
      intro p follow last h
      exact ⟨p, hreaches.refl p, h⟩
  | succ limit ih =>
      intro p follow last h
      rcases runRounds_succ_eq_some h with h | h
      · exact ⟨p, hreaches.refl p, h⟩
      · -- the round hands over a place, from which the rounds left go on
        obtain ⟨q, hq, h⟩ := hstep p _ last h
        split at h
        · exact nomatch h
        · obtain ⟨r, hr, h⟩ := ih q follow last h
          exact ⟨r, hreaches.trans hq hr, h⟩

/-- **What a run hands over.** A run that succeeds has come to a place at which what follows
succeeds, and that place is reached from where the run began. -/
theorem run_reaches (hreaches : Place.HoldsAlong reaches) (limit : Nat) (pattern : Pattern) :
    ∀ (p : Place) (follow : Follow) (last : Place),
      pattern.run limit p follow = some last → ∃ q, reaches p q ∧ follow q = some last := by
  induction pattern with
  | empty =>
      intro p follow last h
      exact ⟨p, hreaches.refl p, h⟩
  | char accepts =>
      intro p follow last h
      unfold run at h
      split at h
      · exact nomatch h
      · rename_i c rest hrest
        split at h
        · exact ⟨p.next c rest, hreaches.next p c rest hrest, h⟩
        · exact nomatch h
  | wordEdge | lineStart | textEnd =>
      intro p follow last h
      unfold run at h
      split at h
      · exact ⟨p, hreaches.refl p, h⟩
      · exact nomatch h
  | seq first second ihFirst ihSecond =>
      intro p follow last h
      obtain ⟨q, hq, h⟩ := ihFirst p _ last h
      obtain ⟨r, hr, h⟩ := ihSecond q follow last h
      exact ⟨r, hreaches.trans hq hr, h⟩
  | either first second ihFirst ihSecond =>
      intro p follow last h
      rcases orElse_eq_some h with h | h
      · exact ihFirst p follow last h
      · exact ihSecond p follow last h
  | chars accepts eager =>
      intro p follow last h
      obtain ⟨q, hq, h⟩ := run_chars_eq_some h
      exact ⟨q, Place.stops_reached hreaches accepts p.rest p.before p.index p.captures q hq, h⟩
  | rounds body eager ih =>
      intro p follow last h
      exact runRounds_reaches hreaches ih eager limit p follow last h
  | capture slot body ih =>
      intro p follow last h
      obtain ⟨q, hq, h⟩ := ih p _ last h
      exact ⟨q.remember slot p, hreaches.remember slot hq, h⟩
  | ahead body ih =>
      intro p follow last h
      unfold run at h
      split at h
      · exact ⟨p, hreaches.refl p, h⟩
      · exact nomatch h

end Pattern

/-! ## Properties kept by every move -/

/-- A property of places that is kept by going one character on and by remembering a stretch. -/
structure Place.KeptByMoves (inv : Place → Prop) : Prop where
  next : ∀ p c rest, inv p → p.rest = c :: rest → inv (p.next c rest)
  remember : ∀ p slot begun, inv p → inv begun → inv (p.remember slot begun)

theorem Place.KeptByMoves.holdsAlong {inv : Place → Prop} (h : KeptByMoves inv) :
    HoldsAlong fun p q => inv p → inv q where
  refl := fun _ hp => hp
  trans := fun hpq hqr hp => hqr (hpq hp)
  next := fun p c rest hrest hp => h.next p c rest hp hrest
  remember := fun slot hp hbegun => h.remember _ slot _ (hp hbegun) hbegun

/-- Every property kept by moves has been carried to the place that a run hands over. -/
theorem Pattern.run_kept {inv : Place → Prop} (hinv : Place.KeptByMoves inv) (limit : Nat)
    (pattern : Pattern) (p : Place) (follow : Follow) (last : Place)
    (h : pattern.run limit p follow = some last) (hp : inv p) :
    ∃ q, inv q ∧ follow q = some last := by
  obtain ⟨q, hq, hlast⟩ := run_reaches hinv.holdsAlong limit pattern p follow last h
  exact ⟨q, hq hp, hlast⟩

/-! ## Places of a text -/

/-- The place lies in this text. -/
def Place.IsIn (text : List Char) (p : Place) : Prop :=
  p.rest = text.drop p.index

theorem Place.isIn_keptByMoves (text : List Char) : KeptByMoves (IsIn text) where
  next := by
    intro p c rest hp hrest
    show rest = text.drop (p.index + 1)
    rw [← List.drop_drop, ← show p.rest = text.drop p.index from hp, hrest, List.drop_one,
      List.tail_cons]
  remember := by
    intro p slot begun hp _
    exact hp

namespace Pattern

/-- A match that was found starts at a place of the text. -/
theorem mem_allFrom {pattern : Pattern} {limit : Nat} {text : List Char} {m : Match}
    (rest : List Char) :
    ∀ (resume : Nat) (before : Option Char) (index : Nat), rest = text.drop index →
      m ∈ pattern.allFrom limit resume before index rest →
        ∃ here : Place, here.IsIn text ∧ pattern.matchHere? limit here = some m := by
  induction rest with
  | nil =>
      intro resume before index hrest hm
      unfold allFrom at hm
      split at hm
      · exact absurd hm (List.not_mem_nil)
      · exact ⟨⟨before, [], index, []⟩, hrest, Option.mem_toList.mp hm⟩
  | cons c rest ih =>
      intro resume before index hrest hm
      have hnext : rest = text.drop (index + 1) := by
        rw [← List.drop_drop, ← hrest, List.drop_one, List.tail_cons]
      unfold allFrom at hm
      split at hm
      · exact ih resume (some c) (index + 1) hnext hm
      · split at hm
        · rename_i found hfound
          rcases List.mem_cons.mp hm with rfl | hm
          · exact ⟨⟨before, c :: rest, index, []⟩, hrest, hfound⟩
          · exact ih found.stop (some c) (index + 1) hnext hm
        · exact ih resume (some c) (index + 1) hnext hm

/-- **The last character of a match.** A match of a pattern that ends in one character of a class
has such a character just before its end. -/
theorem last_of_mem_findAll {before : Pattern} {accepts : Char → Bool} {text : List Char}
    {m : Match} (hm : m ∈ (before ++ char accepts).findAll text) :
    ∃ c rest, text.drop (m.stop - 1) = c :: rest ∧ accepts c = true := by
  obtain ⟨here, hin, hmatch⟩ := mem_allFrom text 0 none 0 rfl hm
  obtain ⟨last, hrun, rfl⟩ := Option.map_eq_some_iff.mp hmatch
  obtain ⟨q, hq, hlast⟩ :=
    run_kept (Place.isIn_keptByMoves text) text.length before here _ last hrun hin
  unfold run at hlast
  split at hlast
  · exact nomatch hlast
  · rename_i c rest hrest
    split at hlast
    · rename_i haccepts
      obtain rfl := Option.some.inj hlast
      exact ⟨c, rest, hq.symm.trans hrest, haccepts⟩
    · exact nomatch hlast

end Pattern

end ServiceMap
