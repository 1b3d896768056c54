import ServiceMap.Proofs.Text.Lookup
import ServiceMap.Text.Case

/-!
# Capitals

Every character has a capital form, and none of the marks that stand between words, in paths or at
the ends of lines comes up in it, unless the character is that mark. So a word with a capital first
is a word still.
-/

namespace ServiceMap.Text

/-- The marks between the words of a name, the names of a path and the lines of a text. -/
def marks : List Char := ['_', '-', '.', '/', '\n']

/-- The tables of capitals lead to no mark, and each sequence has a character. -/
theorem upperSequences_spec : ∀ entry ∈ upperSequences,
    entry.2 ≠ [] ∧ ∀ code ∈ entry.2, Char.ofNat code ∉ marks := by
  decide +kernel

theorem upperRuns_spec : ∀ run ∈ upperRuns.toList,
    0 ≤ run.first + run.offset ∧ ∀ code ∈ marks.map Char.toNat,
      run.last + run.offset < code ∨ code < run.first + run.offset := by
  decide +kernel

theorem toNat_of_mark {n : Nat} (h : Char.ofNat n ∈ marks) : (Char.ofNat n).toNat = n := by
  by_cases hvalid : n.isValidChar
  · rw [Char.ofNat, dif_pos hvalid]
    rfl
  · have hnul : Char.ofNat n = Char.ofNat 0 := by
      rw [Char.ofNat, dif_neg hvalid]
      rfl
    rw [hnul] at h
    exact absurd h (by decide)

/-- A mark is the counterpart of no other character. -/
theorem counterpart_of_mark {n : Nat} (h : Char.ofNat (counterpart upperRuns n) ∈ marks) :
    counterpart upperRuns n = n := by
  have hcode := toNat_of_mark h
  revert h hcode
  rw [counterpart]
  cases hfound : upperRuns.find? fun r => r.first ≤ n && n ≤ r.last && (n - r.first) % r.stride == 0
  case none => exact fun _ _ => rfl
  case some run =>
      intro h hcode
      obtain ⟨hpositive, hmarks⟩ :=
        upperRuns_spec run (Array.mem_toList_iff.mpr (Array.mem_of_find?_eq_some hfound))
      have hmark := hmarks _ (List.mem_map_of_mem h)
      have hwithin := Array.find?_some hfound
      simp only [Bool.and_eq_true, decide_eq_true_eq] at hwithin
      dsimp only at hcode hmark ⊢
      omega

theorem upperChar_ne_nil (c : Char) : upperChar c ≠ [] := by
  unfold upperChar tableCase
  split
  · exact List.cons_ne_nil _ _
  · split
    case h_1 codes hcodes =>
        have hspec := upperSequences_spec (c.toNat, codes) (mem_of_lookup hcodes)
        exact fun h => hspec.1 (List.map_eq_nil_iff.mp h)
    case h_2 => exact List.cons_ne_nil _ _

/-- **Marks have no case.** A mark in the capital form of a character is that character. -/
theorem eq_of_mark_mem_upperChar {c mark : Char} (h : mark ∈ upperChar c) (hmark : mark ∈ marks) :
    mark = c := by
  unfold upperChar at h
  split at h
  case isTrue hascii =>
      have hsmall : ∀ n < 128, (Char.ofNat n).toUpper ∈ marks →
          (Char.ofNat n).toUpper = Char.ofNat n := by
        decide +kernel
      rw [List.mem_singleton] at h
      rw [h] at hmark ⊢
      have hsame := hsmall c.toNat hascii
      rw [Char.ofNat_toNat] at hsame
      exact hsame hmark
  case isFalse =>
      unfold tableCase at h
      split at h
      case h_1 codes hcodes =>
          have hspec := upperSequences_spec (c.toNat, codes) (mem_of_lookup hcodes)
          obtain ⟨code, hcode, rfl⟩ := List.mem_map.mp h
          exact absurd hmark (hspec.2 code hcode)
      case h_2 =>
          rw [List.mem_singleton] at h
          rw [h] at hmark ⊢
          rw [counterpart_of_mark hmark, Char.ofNat_toNat]

theorem upperFirst_ne_nil {s : List Char} (h : s ≠ []) : upperFirst s ≠ [] := by
  obtain ⟨c, s, rfl⟩ := List.exists_cons_of_ne_nil h
  exact List.append_ne_nil_of_left_ne_nil (upperChar_ne_nil c) s

/-- A capital first brings no mark in. -/
theorem mem_of_mark_mem_upperFirst {s : List Char} {mark : Char} (h : mark ∈ upperFirst s)
    (hmark : mark ∈ marks) : mark ∈ s := by
  cases s with
  | nil => exact h
  | cons c s =>
      rcases List.mem_append.mp h with h | h
      · exact eq_of_mark_mem_upperChar h hmark ▸ List.mem_cons_self
      · exact List.mem_cons_of_mem c h

end ServiceMap.Text
