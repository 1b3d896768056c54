import Mathlib.Data.List.Sort
import ServiceMap.Proofs.Service.Context

/-!
# Edges of contexts

A context is given its edges by their positions, which are looked up file by file in an index,
sorted, and freed of repetitions. What comes of it is said here without the index: each context has
the edges that touch its own files, in their order. The files of a table are shared out among the
contexts, so that an edge stands in as many of them as there are services at its two ends.
-/

namespace ServiceMap

/-! ## Sorted and without repetition -/

section Sorted

variable {α : Type}

theorem eraseRepsBy_loop (same : α → α → Bool) (a : α) (xs done : List α) :
    List.eraseRepsBy.loop same a xs done
      = done.reverse ++ List.eraseRepsBy.loop same a xs [] := by
  induction xs generalizing a done with
  | nil =>
      rw [List.eraseRepsBy.loop, List.eraseRepsBy.loop, List.reverse_cons]
      rfl
  | cons b xs ih =>
      rw [List.eraseRepsBy.loop, List.eraseRepsBy.loop]
      cases same a b with
      | true => exact ih a done
      | false =>
          dsimp only
          rw [ih b (a :: done), ih b [a], List.reverse_cons, List.append_assoc]
          rfl

theorem eraseReps_cons_cons [BEq α] (a b : α) (xs : List α) :
    (a :: b :: xs).eraseReps
      = if a == b then (a :: xs).eraseReps else a :: (b :: xs).eraseReps := by
  show List.eraseRepsBy.loop _ a (b :: xs) [] = _
  rw [List.eraseRepsBy.loop]
  cases a == b with
  | true => rfl
  | false => exact eraseRepsBy_loop _ b xs [a]

variable [LinearOrder α]

/-- In a rising list repetitions stand next to each other. -/
theorem eraseReps_of_rising (xs : List α) (h : xs.Pairwise (· ≤ ·)) :
    xs.eraseReps.Pairwise (· < ·) ∧ ∀ a, a ∈ xs.eraseReps ↔ a ∈ xs := by
  cases xs with
  | nil => exact ⟨List.Pairwise.nil, fun _ => Iff.rfl⟩
  | cons a xs =>
      induction xs generalizing a with
      | nil => exact ⟨List.pairwise_singleton _ a, fun _ => Iff.rfl⟩
      | cons b xs ih =>
          obtain ⟨ha, hb⟩ := List.pairwise_cons.mp h
          rw [eraseReps_cons_cons]
          by_cases hab : a = b
          · subst hab
            obtain ⟨hlt, hmem⟩ := ih a hb
            rw [if_pos (beq_self_eq_true a)]
            refine ⟨hlt, fun c => ?_⟩
            rw [hmem, List.mem_cons, List.mem_cons, List.mem_cons]
            tauto
          · obtain ⟨hlt, hmem⟩ := ih b hb
            rw [if_neg (by simpa using hab)]
            refine ⟨List.pairwise_cons.mpr ⟨fun c hc => ?_, hlt⟩, fun c => ?_⟩
            · -- the first one is below the second, and that is below all others
              have hfirst : a < b := lt_of_le_of_ne (ha b List.mem_cons_self) hab
              rcases List.mem_cons.mp ((hmem c).mp hc) with rfl | hc
              · exact hfirst
              · exact lt_of_lt_of_le hfirst ((List.pairwise_cons.mp hb).1 c hc)
            · rw [List.mem_cons, hmem, ← List.mem_cons]

/-- Sorting and leaving out repetitions gives the same things, rising. -/
theorem eraseReps_mergeSort (xs : List α) :
    (xs.mergeSort fun a b => decide (a ≤ b)).eraseReps.Pairwise (· < ·)
      ∧ ∀ a, a ∈ (xs.mergeSort fun a b => decide (a ≤ b)).eraseReps ↔ a ∈ xs := by
  have hsorted : (xs.mergeSort fun a b => decide (a ≤ b)).Pairwise (· ≤ ·) := by
    refine (List.pairwise_mergeSort ?_ ?_ xs).imp of_decide_eq_true
    · intro a b c hab hbc
      exact decide_eq_true ((of_decide_eq_true hab).trans (of_decide_eq_true hbc))
    · intro a b
      rw [Bool.or_eq_true, decide_eq_true_eq, decide_eq_true_eq]
      exact le_total a b
  obtain ⟨hlt, hmem⟩ := eraseReps_of_rising _ hsorted
  exact ⟨hlt, fun a => (hmem a).trans (List.mergeSort_perm xs _).mem_iff⟩

end Sorted

namespace Service

/-! ## Positions of edges -/

/-- Whether an edge starts or ends at one of the files. -/
def isTouched (files : List String) (e : Edge) : Bool :=
  files.contains e.source || files.contains e.target

theorem isTouched_iff {files : List String} {e : Edge} :
    isTouched files e = true ↔ e.source ∈ files ∨ e.target ∈ files := by
  rw [isTouched, Bool.or_eq_true, List.contains_iff_mem, List.contains_iff_mem]

/-- The positions, rising, of the edges that start or end at one of the files. -/
def positionsTouching (files : List String) (edges : List Edge) : List Nat :=
  (List.range edges.length).filter fun i => edges[i]?.any (isTouched files)

theorem mem_positionsTouching {files : List String} {edges : List Edge} {i : Nat} :
    i ∈ positionsTouching files edges ↔ ∃ e, edges[i]? = some e ∧ isTouched files e = true := by
  rw [positionsTouching, List.mem_filter, List.mem_range, Option.any_eq_true]
  constructor
  · rintro ⟨-, e, he, htouched⟩
    exact ⟨e, he, htouched⟩
  · rintro ⟨e, he, htouched⟩
    exact ⟨(List.getElem?_eq_some_iff.mp he).1, e, he, htouched⟩

theorem positionsTouching_rising (files : List String) (edges : List Edge) :
    (positionsTouching files edges).Pairwise (· < ·) :=
  List.pairwise_lt_range.sublist List.filter_sublist

theorem positionsTouching_snoc (files : List String) (edges : List Edge) (e : Edge) :
    positionsTouching files (edges ++ [e])
      = positionsTouching files edges ++ if isTouched files e then [edges.length] else [] := by
  have hsame : ∀ i ∈ List.range edges.length,
      (edges ++ [e])[i]?.any (isTouched files) = edges[i]?.any (isTouched files) := by
    intro i hi
    rw [List.getElem?_append_left (List.mem_range.mp hi)]
  have hlast : (edges ++ [e])[edges.length]? = some e := by
    rw [List.getElem?_append_right (Nat.le_refl _), Nat.sub_self]
    rfl
  rw [positionsTouching, List.length_append, List.length_singleton, List.range_succ,
    List.filter_append, List.filter_congr hsame, List.filter_singleton, hlast, Option.any_some,
    cond_eq_ite]
  rfl

theorem edgesTouching_eq (files : List String) (edges : List Edge) :
    edgesTouching files edges = edges.filter (isTouched files) := rfl

/-- The edges at the positions are the edges that touch the files, in their order. -/
theorem filterMap_positionsTouching (files : List String) (edges : List Edge) :
    (positionsTouching files edges).filterMap (edges[·]?) = edgesTouching files edges := by
  induction edges using List.reverseRecOn with
  | nil => rfl
  | append_singleton edges e ih =>
      have hsame : ∀ i ∈ positionsTouching files edges, (edges ++ [e])[i]? = edges[i]? := by
        intro i hi
        obtain ⟨f, hf, -⟩ := mem_positionsTouching.mp hi
        exact List.getElem?_append_left (List.getElem?_eq_some_iff.mp hf).1
      have hlast : (edges ++ [e])[edges.length]? = some e := by simp
      rw [positionsTouching_snoc, List.filterMap_append, List.filterMap_congr hsame, ih,
        edgesTouching_eq, edgesTouching_eq, List.filter_append, List.filter_singleton, cond_eq_ite]
      by_cases h : isTouched files e = true
      · rw [if_pos h, if_pos h, List.filterMap_cons, hlast, List.filterMap_nil]
      · rw [if_neg h, if_neg h, List.filterMap_nil]

/-- Only which files there are counts, not how often or in which order. -/
theorem positionsTouching_congr {files files' : List String}
    (h : ∀ file, file ∈ files ↔ file ∈ files') (edges : List Edge) :
    positionsTouching files edges = positionsTouching files' edges := by
  refine (positionsTouching_rising files edges).eq_of_mem_iff
    (positionsTouching_rising files' edges) fun i => ?_
  simp only [mem_positionsTouching, isTouched_iff, h]

/-! ## The index -/

/-- The positions at which an index has a file. -/
def EdgeIndex.positions (index : EdgeIndex) (file : String) : List Nat :=
  (index.lookup file).getD []

theorem positions_addPosition (index : EdgeIndex) (file other : String) (i : Nat) :
    (addPosition other i index).positions file
      = index.positions file ++ if file == other then [i] else [] := by
  induction index with
  | nil =>
      show EdgeIndex.positions [(other, [i])] file = _
      rw [EdgeIndex.positions, List.lookup_cons]
      cases file == other <;> rfl
  | cons entry index ih =>
      obtain ⟨first, places⟩ := entry
      simp only [EdgeIndex.positions] at ih ⊢
      rw [addPosition]
      by_cases hfirst : first = other
      · subst hfirst
        rw [if_pos (beq_self_eq_true first), List.lookup_cons, List.lookup_cons]
        cases file == first with
        | true => rfl
        | false => exact (List.append_nil _).symm
      · rw [if_neg (by simpa using hfirst), List.lookup_cons, List.lookup_cons]
        by_cases hfile : file = first
        · subst hfile
          rw [beq_self_eq_true, beq_eq_false_iff_ne.mpr hfirst]
          exact (List.append_nil _).symm
        · rw [beq_eq_false_iff_ne.mpr hfile]
          exact ih

theorem indexEdges_snoc (edges : List Edge) (e : Edge) :
    indexEdges (edges ++ [e]) = addEdge (indexEdges edges) (e, edges.length) := by
  rw [indexEdges, indexEdges, List.zipIdx_append, List.foldl_append, Nat.zero_add]
  rfl

/-- A self edge is entered once, every other edge at both its ends. -/
theorem positions_addEdge (index : EdgeIndex) (file : String) (e : Edge) (i : Nat) :
    (addEdge index (e, i)).positions file
      = index.positions file ++ if isTouched [file] e then [i] else [] := by
  have htouched : isTouched [file] e = (file == e.source || file == e.target) := by
    rw [Bool.eq_iff_iff, isTouched_iff, Bool.or_eq_true, List.mem_singleton, List.mem_singleton,
      beq_iff_eq, beq_iff_eq, eq_comm, @eq_comm _ e.target]
  rw [htouched, addEdge]
  by_cases hself : e.target = e.source
  · rw [if_pos (by simpa using hself), positions_addPosition, hself, Bool.or_self]
  · rw [if_neg (by simpa using hself), positions_addPosition, positions_addPosition]
    by_cases hsource : file = e.source
    · have htarget : file ≠ e.target := fun h => hself (h.symm.trans hsource)
      rw [beq_eq_false_iff_ne.mpr htarget, beq_iff_eq.mpr hsource]
      exact List.append_nil _
    · rw [beq_eq_false_iff_ne.mpr hsource, Bool.false_or, if_neg Bool.false_ne_true,
        List.append_nil]

/-- **The index.** A file has in it the positions of the edges that start or end there. -/
theorem positions_indexEdges (file : String) (edges : List Edge) :
    (indexEdges edges).positions file = positionsTouching [file] edges := by
  induction edges using List.reverseRecOn with
  | nil => rfl
  | append_singleton edges e ih =>
      rw [indexEdges_snoc, positions_addEdge, ih, positionsTouching_snoc]

/-- The positions that are looked up for several files, sorted and without repetition, are those of
the edges that touch one of them. -/
theorem sortedPositions_indexEdges (files : List String) (edges : List Edge) :
    sortedPositions (files.flatMap (indexEdges edges).positions)
      = positionsTouching files edges := by
  obtain ⟨hrising, hmem⟩ := eraseReps_mergeSort (files.flatMap (indexEdges edges).positions)
  refine hrising.eq_of_mem_iff (positionsTouching_rising files edges) fun i => ?_
  rw [hmem, List.mem_flatMap, mem_positionsTouching]
  simp only [positions_indexEdges, mem_positionsTouching, isTouched_iff, List.mem_singleton]
  constructor
  · rintro ⟨file, hfile, e, he, rfl | rfl⟩
    · exact ⟨e, he, Or.inl hfile⟩
    · exact ⟨e, he, Or.inr hfile⟩
  · rintro ⟨e, he, hsource | htarget⟩
    · exact ⟨e.source, hsource, e, he, Or.inl rfl⟩
    · exact ⟨e.target, htarget, e, he, Or.inr rfl⟩

/-- Looking edges up in their index finds those that touch the files. -/
theorem edgesTouchingBy_indexEdges (files : List String) (edges : List Edge) :
    edgesTouchingBy (indexEdges edges) files edges = edgesTouching files edges := by
  rw [← filterMap_positionsTouching, ← sortedPositions_indexEdges]
  rfl

theorem positionsTouching_map_getElem? (files : List String) (edges : List Edge) :
    (positionsTouching files edges).map (edges[·]?) = (edgesTouching files edges).map some := by
  rw [← filterMap_positionsTouching, List.map_filterMap_some_eq_filter_map_isSome]
  symm
  rw [List.filter_eq_self]
  intro found hfound
  obtain ⟨i, hi, rfl⟩ := List.mem_map.mp hfound
  obtain ⟨e, he, -⟩ := mem_positionsTouching.mp hi
  simp [he]

/-- **The index finds what a scan finds.** The edges of any files, looked up in the index, are those
that a scan of all edges keeps, in the same order and as often: every position that is looked up is
that of an edge, and neither the order of the files nor their repetitions count. -/
theorem index_finds_what_a_scan_finds (files : List String) (edges : List Edge) :
    edgesTouchingBy (indexEdges edges) files edges = edgesTouching files edges
      ∧ (sortedPositions (files.flatMap (indexEdges edges).positions)).map (edges[·]?)
        = (edgesTouching files edges).map some
      ∧ ∀ listed : List String, (∀ file, file ∈ listed ↔ file ∈ files) →
        edgesTouchingBy (indexEdges edges) listed edges = edgesTouching files edges := by
  refine ⟨edgesTouchingBy_indexEdges files edges, ?_, ?_⟩
  · rw [sortedPositions_indexEdges]
    exact positionsTouching_map_getElem? files edges
  · intro listed hlisted
    rw [edgesTouchingBy_indexEdges, ← filterMap_positionsTouching, ← filterMap_positionsTouching,
      positionsTouching_congr hlisted]

end Service

end ServiceMap
