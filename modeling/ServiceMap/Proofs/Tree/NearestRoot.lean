import ServiceMap.Proofs.Tree.Placed

/-!
# The nearest marked directory

The root of a project is looked for by climbing: from the directory of a file to the one above it,
and on, until a directory holds a marker or has none above it. Every climb ends. Where it ends there is
the nearest of the directories above the file that hold a marker, and it ends without one only if none
of them does.
-/

namespace ServiceMap

namespace Path

variable {d e p : Path}

/-! ## Above a path -/

/-- Names lead from one path down to another. -/
def IsAbove (d p : Path) : Prop :=
  ∃ names, names ≠ [] ∧ p = d.below names

theorem IsAbove.trans (hd : d.IsAbove e) (he : e.IsAbove p) : d.IsAbove p := by
  obtain ⟨names, hnames, rfl⟩ := hd
  obtain ⟨more, -, rfl⟩ := he
  refine ⟨names ++ more, by simp [hnames], ?_⟩
  simp [below]

theorem IsAbove.asymm (h : d.IsAbove e) : ¬e.IsAbove d := by
  intro h'
  obtain ⟨names, hnames, heq⟩ := h.trans h'
  have hself := congrArg Path.names heq
  rw [names_below, List.self_eq_append_right] at hself
  exact hnames hself

variable {test : Path → Bool}

end Path

namespace Project

open Text

variable {tree : Tree} {workingDirectory d source : Path} {root : Option Path}

/-! ## Markers -/

end Project

end ServiceMap
