import ServiceMap.Proofs.Pattern.Places
import ServiceMap.Text.Lines

/-!
# The order of matches

Matches are found from left to right: each one ends before the next one starts, and what it remembers
starts between its two ends. So positions in the matches of a text, and the lines they are on, never
go back.
-/

namespace ServiceMap

/-! ## Within a match -/

/-- The second place comes after the first, and so does the start of what was remembered on the
way. -/
def Place.Passed (p q : Place) : Prop :=
  p.index ≤ q.index
    ∧ ∀ entry ∈ q.captures,
        entry ∈ p.captures ∨ p.index ≤ entry.2.start ∧ entry.2.start ≤ q.index

theorem Place.passed_holdsAlong : HoldsAlong Passed where
  refl := fun p => ⟨Nat.le_refl _, fun _ hentry => Or.inl hentry⟩
  trans := by
    rintro p q r ⟨hpq, hq⟩ ⟨hqr, hr⟩
    refine ⟨Nat.le_trans hpq hqr, fun entry hentry => ?_⟩
    rcases hr entry hentry with hold | ⟨hle, hge⟩
    · exact (hq entry hold).imp_right fun h => ⟨h.1, Nat.le_trans h.2 hqr⟩
    · exact Or.inr ⟨Nat.le_trans hpq hle, hge⟩
  next := fun p c rest _ => ⟨Nat.le_succ _, fun _ hentry => Or.inl hentry⟩
  remember := by
    rintro begun p slot ⟨hle, h⟩
    refine ⟨hle, fun entry hentry => ?_⟩
    rcases List.mem_cons.mp hentry with rfl | hentry
    · exact Or.inr ⟨Nat.le_refl _, hle⟩
    · exact h entry hentry

/-- A match does not end before it starts, and what it remembers starts in between. -/
structure Match.IsOrdered (m : Match) : Prop where
  start_le_stop : m.start ≤ m.stop
  captures : ∀ entry ∈ m.captures, m.start ≤ entry.2.start ∧ entry.2.start ≤ m.stop

theorem Match.IsOrdered.groupStart {m : Match} (h : m.IsOrdered) (slot : Nat) :
    m.start ≤ m.groupStart slot ∧ m.groupStart slot ≤ m.stop := by
  rcases m.groupStart_mem slot with hstart | ⟨entry, hentry, hstart⟩
  · rw [hstart]
    exact ⟨Nat.le_refl _, h.start_le_stop⟩
  · rw [hstart]
    exact h.captures entry hentry

namespace Pattern

variable {pattern : Pattern} {limit : Nat}

theorem isOrdered_of_matchHere? {before : Option Char} {rest : List Char} {index : Nat} {m : Match}
    (h : pattern.matchHere? limit ⟨before, rest, index, []⟩ = some m) :
    m.start = index ∧ m.IsOrdered := by
  obtain ⟨last, hrun, rfl⟩ := Option.map_eq_some_iff.mp h
  obtain ⟨q, ⟨hle, hcaptures⟩, hlast⟩ :=
    run_reaches Place.passed_holdsAlong limit pattern _ _ last hrun
  obtain rfl := Option.some.inj hlast
  exact ⟨rfl, hle, fun entry hentry => (hcaptures entry hentry).resolve_left List.not_mem_nil⟩

/-! ## From match to match -/

/-- The one match lies before the other, and each is ordered. -/
structure Precedes (m n : Match) : Prop where
  left : m.IsOrdered
  right : n.IsOrdered
  stop_le_start : m.stop ≤ n.start

theorem allFrom_inOrder (rest : List Char) :
    ∀ (resume : Nat) (before : Option Char) (index : Nat),
      (∀ m ∈ pattern.allFrom limit resume before index rest, resume ≤ m.start ∧ m.IsOrdered)
        ∧ (pattern.allFrom limit resume before index rest).Pairwise Precedes := by
  induction rest with
  | nil =>
      intro resume before index
      rw [allFrom]
      split
      · exact ⟨fun m hm => absurd hm List.not_mem_nil, List.Pairwise.nil⟩
      · rename_i hresume
        refine ⟨fun m hm => ?_, ?_⟩
        · obtain ⟨hstart, hm⟩ := isOrdered_of_matchHere? (Option.mem_toList.mp hm)
          exact ⟨by omega, hm⟩
        · cases pattern.matchHere? limit ⟨before, [], index, []⟩ with
          | none => exact List.Pairwise.nil
          | some m => exact List.pairwise_singleton _ _
  | cons c rest ih =>
      intro resume before index
      rw [allFrom]
      split
      · exact ih resume (some c) (index + 1)
      · rename_i hresume
        split
        · rename_i m hmatch
          obtain ⟨hstart, hm⟩ := isOrdered_of_matchHere? hmatch
          obtain ⟨hlater, horder⟩ := ih m.stop (some c) (index + 1)
          have hle := hm.start_le_stop
          refine ⟨fun n hn => ?_, List.pairwise_cons.mpr ⟨fun n hn => ?_, horder⟩⟩
          · rcases List.mem_cons.mp hn with rfl | hn
            · exact ⟨by omega, hm⟩
            · obtain ⟨hstop, hn⟩ := hlater n hn
              exact ⟨by omega, hn⟩
          · obtain ⟨hstop, hn⟩ := hlater n hn
            exact ⟨hm, hn, hstop⟩
        · exact ih resume (some c) (index + 1)

/-- **Matches are in order.** -/
theorem findAll_inOrder (pattern : Pattern) (text : List Char) :
    (pattern.findAll text).Pairwise Precedes :=
  (allFrom_inOrder text 0 none 0).2

theorem Precedes.start_le {m n : Match} (h : Precedes m n) : m.start ≤ n.start :=
  Nat.le_trans h.left.start_le_stop h.stop_le_start

theorem Precedes.groupStart_le {m n : Match} (h : Precedes m n) (slot : Nat) :
    m.groupStart slot ≤ n.groupStart slot :=
  calc m.groupStart slot
      ≤ m.stop := (h.left.groupStart slot).2
    _ ≤ n.start := h.stop_le_start
    _ ≤ n.groupStart slot := (h.right.groupStart slot).1

end Pattern

/-- A later position is on the same line or a later one. -/
theorem Text.lineNumber_mono (text : List Char) {i j : Nat} (h : i ≤ j) :
    lineNumber text i ≤ lineNumber text j :=
  Nat.succ_le_succ (List.Sublist.count_le _ (List.take_sublist_take_left h))

end ServiceMap
