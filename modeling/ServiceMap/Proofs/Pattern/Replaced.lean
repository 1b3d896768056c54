import ServiceMap.Proofs.Pattern.FirstWay
import ServiceMap.Proofs.Pattern.Order
import ServiceMap.Proofs.Pattern.Segments

/-!
# Replaced matches

What is left of a text whose matches are replaced, read off from left to right: a character where no
match starts is kept, and a match gives way to its replacement. Known for what stands behind, it is
known for the whole.
-/

namespace ServiceMap.Pattern

/-- What is left of a text, wherever it stands, when the matches of a pattern are replaced. -/
def Leaves (pattern : Pattern) (new s r : List Char) : Prop :=
  ∀ (limit : Nat) (before : Option Char) (index : Nat),
    substitute new s index (pattern.allFrom limit 0 before index s) = r

section

variable {pattern : Pattern} {new s t r taken : List Char} {c mark : Char}

theorem Leaves.replaceAll_eq (h : Leaves pattern new s r) : pattern.replaceAll new s = r :=
  h s.length none 0

theorem substitute_cons {done : Nat} {found : List Match}
    (h : ∀ m ∈ found.head?, done + 1 ≤ m.start ∧ m.start ≤ m.stop) :
    substitute new (c :: s) done found = c :: substitute new s (done + 1) found := by
  cases found with
  | nil => rfl
  | cons m found =>
      obtain ⟨hstart, hstop⟩ := h m rfl
      rw [substitute, substitute, show m.start - done = m.start - (done + 1) + 1 by omega,
        show m.stop - done = m.stop - (done + 1) + 1 by omega, List.take_succ_cons,
        List.drop_succ_cons]
      rfl

/-- A character where no match starts is kept. -/
theorem Leaves.skip (hnone : ∀ limit before index,
    pattern.matchHere? limit ⟨before, c :: s, index, []⟩ = none) (h : Leaves pattern new s r) :
    Leaves pattern new (c :: s) (c :: r) := by
  intro limit before index
  rw [allFrom, if_neg (Nat.not_lt_zero index), hnone]
  dsimp only
  rw [substitute_cons, h]
  intro m hm
  rw [← allFrom_of_le s (Nat.le_refl (index + 1))] at hm
  obtain ⟨hstart, hordered⟩ := (allFrom_inOrder s _ _ _).1 m (List.mem_of_head? hm)
  exact ⟨hstart, hordered.start_le_stop⟩

/-- A match gives way to its replacement. -/
theorem Leaves.replace (hne : taken ≠ [])
    (hmatch : ∀ limit before index, ∃ m,
      pattern.matchHere? limit ⟨before, taken ++ s, index, []⟩ = some m ∧ m.start = index
        ∧ m.stop = index + taken.length)
    (h : Leaves pattern new s r) : Leaves pattern new (taken ++ s) (new ++ r) := by
  intro limit before index
  obtain ⟨m, hm, hstart, hstop⟩ := hmatch limit before index
  rw [allFrom_of_matchHere? hne hm hstop, substitute, hstart, hstop, Nat.sub_self,
    Nat.add_sub_cancel_left, List.drop_left, h]
  rfl

theorem Leaves.replace_first (hne : taken ≠ [])
    (hfirst : ∀ limit before index, ∃ captured,
      pattern.TakesFirst limit ⟨before, taken ++ s, index, []⟩ taken s captured)
    (h : Leaves pattern new s r) : Leaves pattern new (taken ++ s) (new ++ r) := by
  refine Leaves.replace hne (fun limit before index => ?_) h
  obtain ⟨captured, htakes⟩ := hfirst limit before index
  exact ⟨_, matchHere?_of_takesFirst htakes, rfl, rfl⟩

theorem StartsWith.leaves_of_not_mem (hpattern : pattern.StartsWith mark) (h : mark ∉ s) :
    Leaves pattern new s s := by
  intro limit before index
  rw [hpattern.allFrom_eq_nil h]
  rfl

theorem StartsWith.leaves_cons (hpattern : pattern.StartsWith mark) (hc : c ≠ mark)
    (h : Leaves pattern new s r) : Leaves pattern new (c :: s) (c :: r) :=
  h.skip fun _ _ _ => hpattern.matchHere?_eq_none fun heq => hc (Option.some.inj heq)

/-- A stretch without the mark is kept. -/
theorem StartsWith.leaves_append (hpattern : pattern.StartsWith mark) (hs : mark ∉ s)
    (h : Leaves pattern new t r) : Leaves pattern new (s ++ t) (s ++ r) := by
  induction s with
  | nil => exact h
  | cons c s ih =>
      exact hpattern.leaves_cons (fun heq => hs (heq ▸ List.mem_cons_self))
        (ih fun hmem => hs (List.mem_cons_of_mem c hmem))

/-- What is left of several pieces, if something is left of each one whatever pieces stand behind it. -/
theorem exists_leaves_flatMap {α : Type} {print : α → List Char} (leftOf : α → List Char → Prop)
    (pieces : List α) (h : Leaves pattern new t r)
    (hpiece : ∀ x ∈ pieces, ∀ (others : List α) rest,
      Leaves pattern new (others.flatMap print ++ t) rest →
      ∃ left, Leaves pattern new (print x ++ (others.flatMap print ++ t)) (left ++ rest)
        ∧ leftOf x left) :
    ∃ lefts : List (List Char), Leaves pattern new (pieces.flatMap print ++ t) (lefts.flatten ++ r)
      ∧ (∀ left ∈ lefts, ∃ x ∈ pieces, leftOf x left) ∧ ∀ x ∈ pieces, ∃ left ∈ lefts, leftOf x left := by
  induction pieces with
  | nil => exact ⟨[], h, fun _ h => absurd h List.not_mem_nil, fun _ h => absurd h List.not_mem_nil⟩
  | cons x others ih =>
      obtain ⟨lefts, hlefts, hof, hall⟩ := ih fun y hy => hpiece y (List.mem_cons_of_mem x hy)
      obtain ⟨left, hleft, hx⟩ := hpiece x List.mem_cons_self others _ hlefts
      refine ⟨left :: lefts, ?_, ?_, ?_⟩
      · rw [List.flatMap_cons, List.flatten_cons, List.append_assoc, List.append_assoc]
        exact hleft
      · intro other hother
        rcases List.mem_cons.mp hother with rfl | hother
        · exact ⟨x, List.mem_cons_self, hx⟩
        · obtain ⟨y, hy, hyleft⟩ := hof other hother
          exact ⟨y, List.mem_cons_of_mem x hy, hyleft⟩
      · intro y hy
        rcases List.mem_cons.mp hy with rfl | hy
        · exact ⟨left, List.mem_cons_self, hx⟩
        · obtain ⟨other, hother, hyleft⟩ := hall y hy
          exact ⟨other, List.mem_cons_of_mem left hother, hyleft⟩

end

end ServiceMap.Pattern
