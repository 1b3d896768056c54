import Mathlib.Data.List.Perm.Basic

/-!
# Lists of named values

Looking up a name in a list of names and values. Where the names differ, every entry is found by its
name, in whatever order the entries stand.
-/

namespace ServiceMap

variable {α β : Type} {entries others : List (String × α)} {name : String} {value : α}

theorem mem_of_lookup {κ : Type} [BEq κ] [LawfulBEq κ] {entries : List (κ × α)} {name : κ}
    (h : entries.lookup name = some value) : (name, value) ∈ entries := by
  rw [List.lookup_eq_some_iff] at h
  obtain ⟨before, after, rfl, -⟩ := h
  exact List.mem_append_right _ List.mem_cons_self

theorem lookup_of_mem (h : (entries.map Prod.fst).Nodup) (hmem : (name, value) ∈ entries) :
    entries.lookup name = some value := by
  induction entries with
  | nil => exact absurd hmem List.not_mem_nil
  | cons entry entries ih =>
      obtain ⟨hfirst, hrest⟩ := List.nodup_cons.mp h
      rw [List.lookup_cons]
      rcases List.mem_cons.mp hmem with rfl | hmem
      · rw [beq_self_eq_true]
      · have hne : name ≠ entry.1 := by
          rintro rfl
          exact hfirst (List.mem_map.mpr ⟨(entry.1, value), hmem, rfl⟩)
        rw [beq_eq_false_iff_ne.mpr hne]
        exact ih hrest hmem

/-- The order of entries whose names differ does not matter. -/
theorem lookup_of_perm (h : (entries.map Prod.fst).Nodup) (hperm : others.Perm entries)
    (name : String) : others.lookup name = entries.lookup name := by
  have hothers : (others.map Prod.fst).Nodup := (hperm.map Prod.fst).nodup_iff.mpr h
  refine Option.ext fun value => ⟨fun hfound => ?_, fun hfound => ?_⟩
  · exact lookup_of_mem h (hperm.mem_iff.mp (mem_of_lookup hfound))
  · exact lookup_of_mem hothers (hperm.mem_iff.mpr (mem_of_lookup hfound))

theorem lookup_map (f : α → β) (entries : List (String × α)) (name : String) :
    (entries.map fun entry => (entry.1, f entry.2)).lookup name = (entries.lookup name).map f := by
  induction entries with
  | nil => rfl
  | cons entry entries ih =>
      rw [List.map_cons, List.lookup_cons, List.lookup_cons, ih]
      split <;> rfl

end ServiceMap
