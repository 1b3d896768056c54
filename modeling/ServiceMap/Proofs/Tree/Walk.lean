import Mathlib.Data.List.Sort
import Mathlib.Data.String.Basic
import ServiceMap.Proofs.Tree.Descent
import ServiceMap.Tree.Discovery

/-!
# What a walk finds

In a well-formed tree a walk finds each file once, by a path that leads to it, and only files whose
names it wants. It finds them in one order: the files of a directory as their names order them, and
then what lies below its directories, as those are ordered.
-/

namespace ServiceMap

namespace Discovery

open Node

variable {skipped wanted : String → Bool}

/-! ## One directory -/

theorem walkEntries_eq (entries : List (String × Node)) :
    walkEntries skipped wanted entries = entries.map fun entry =>
      (entry.1, if skipped entry.1 then [] else walk skipped wanted entry.2) := by
  induction entries with
  | nil => rfl
  | cons entry entries ih => rw [walkEntries, ih, List.map_cons]

theorem mem_fileNames {entries : List (String × Node)} {name : String} :
    name ∈ fileNames entries ↔ ∃ content modified, (name, .file content modified) ∈ entries := by
  rw [fileNames, List.mem_filterMap]
  constructor
  · rintro ⟨⟨other, node⟩, hmem, hname⟩
    cases node with
    | dir entries => exact nomatch hname
    | file content modified =>
        obtain rfl := Option.some.inj hname
        exact ⟨content, modified, hmem⟩
  · rintro ⟨content, modified, hmem⟩
    exact ⟨_, hmem, rfl⟩

theorem fileNames_sublist (entries : List (String × Node)) :
    (fileNames entries).Sublist (entries.map Prod.fst) := by
  induction entries with
  | nil => exact List.Sublist.slnil
  | cons entry entries ih =>
      obtain ⟨name, node⟩ := entry
      cases node with
      | dir below => exact ih.cons name
      | file content modified => exact ih.cons_cons name

/-- A walk of a directory finds its files and what walks of its directories find. -/
theorem mem_walk_dir {entries : List (String × Node)} {names : List String} :
    names ∈ walk skipped wanted (.dir entries) ↔
      (∃ name content modified, (name, .file content modified) ∈ entries ∧ wanted name = true
        ∧ names = [name])
      ∨ ∃ name node rest, (name, node) ∈ entries ∧ rest ∈ walk skipped wanted node
        ∧ skipped name = false ∧ names = name :: rest := by
  rw [walk, List.mem_append, walkEntries_eq]
  constructor
  · rintro (hfile | hdir)
    · obtain ⟨name, hname, rfl⟩ := List.mem_map.mp hfile
      obtain ⟨hname, hwanted⟩ := List.mem_filter.mp (List.mem_mergeSort.mp hname)
      obtain ⟨content, modified, hmem⟩ := mem_fileNames.mp hname
      exact Or.inl ⟨name, content, modified, hmem, hwanted, rfl⟩
    · obtain ⟨found, hfound, hnames⟩ := List.mem_flatMap.mp hdir
      obtain ⟨⟨name, node⟩, hmem, rfl⟩ := List.mem_map.mp (List.mem_mergeSort.mp hfound)
      obtain ⟨rest, hrest, rfl⟩ := List.mem_map.mp hnames
      dsimp only at hrest
      split at hrest
      · exact absurd hrest List.not_mem_nil
      · rename_i hskipped
        exact Or.inr ⟨name, node, rest, hmem, hrest, Bool.eq_false_iff.mpr hskipped, rfl⟩
  · rintro (⟨name, content, modified, hmem, hwanted, rfl⟩
      | ⟨name, node, rest, hmem, hrest, hskipped, rfl⟩)
    · refine Or.inl (List.mem_map.mpr ⟨name, ?_, rfl⟩)
      rw [sortNames, List.mem_mergeSort, List.mem_filter]
      exact ⟨mem_fileNames.mpr ⟨content, modified, hmem⟩, hwanted⟩
    · refine Or.inr (List.mem_flatMap.mpr ⟨(name, walk skipped wanted node), ?_, ?_⟩)
      · rw [sortByName, List.mem_mergeSort]
        exact List.mem_map.mpr ⟨(name, node), hmem, by rw [hskipped]; rfl⟩
      · exact List.mem_map.mpr ⟨rest, hrest, rfl⟩

/-! ## Whole trees -/

/-- **What a walk finds.** Every path that a walk finds leads to a file whose name is wanted. -/
theorem below?_of_mem_walk {names : List String} :
    ∀ {node : Node}, node.IsWellFormed → names ∈ walk skipped wanted node →
      (∃ content modified, below? node names = some (.file content modified))
        ∧ ∃ name, names.getLast? = some name ∧ wanted name = true := by
  induction names with
  | nil =>
      intro node hnode h
      cases node with
      | file content modified => exact nomatch h
      | dir entries =>
          rcases mem_walk_dir.mp h with ⟨_, _, _, _, _, hnil⟩ | ⟨_, _, _, _, _, _, hnil⟩
          · exact nomatch hnil
          · exact nomatch hnil
  | cons first names ih =>
      intro node hnode h
      cases node with
      | file content modified => exact nomatch h
      | dir entries =>
          obtain ⟨hdistinct, hentries⟩ := hnode
          rcases mem_walk_dir.mp h with ⟨name, content, modified, hmem, hwanted, heq⟩
            | ⟨name, node, rest, hmem, hrest, -, heq⟩
          · obtain ⟨rfl, rfl⟩ := List.cons.inj heq
            refine ⟨⟨content, modified, ?_⟩, first, rfl, hwanted⟩
            rw [below?, lookup_of_mem hdistinct hmem]
            rfl
          · -- the path goes on below a directory, where the induction takes over
            obtain ⟨rfl, rfl⟩ := List.cons.inj heq
            obtain ⟨⟨content, modified, hbelow⟩, name, hlast, hwanted⟩ :=
              ih (hentries.of_mem hmem).2 hrest
            refine ⟨⟨content, modified, ?_⟩, name, ?_, hwanted⟩
            · rw [below?, lookup_of_mem hdistinct hmem]
              exact hbelow
            · rw [List.getLast?_cons, hlast]
              rfl

theorem ne_nil_of_mem_walk {node : Node} {names : List String}
    (h : names ∈ walk skipped wanted node) : names ≠ [] := by
  cases node with
  | file content modified => exact nomatch h
  | dir entries =>
      rcases mem_walk_dir.mp h with ⟨_, _, _, _, _, rfl⟩ | ⟨_, _, _, _, _, _, rfl⟩
      · exact List.cons_ne_nil _ _
      · exact List.cons_ne_nil _ _

/-- **A walk misses nothing.** It finds a path just when the path leads to a file with a wanted name
through directories that are not skipped. -/
theorem mem_walk_iff {dirs : List String} {last : String} :
    ∀ {node : Node}, node.IsWellFormed →
      (dirs ++ [last] ∈ walk skipped wanted node ↔
        (∃ content modified, below? node (dirs ++ [last]) = some (.file content modified))
          ∧ (∀ dir ∈ dirs, skipped dir = false) ∧ wanted last = true) := by
  induction dirs with
  | nil =>
      intro node hnode
      cases node with
      | file content modified => simp [walk, below?]
      | dir entries =>
          obtain ⟨hdistinct, -⟩ := hnode
          rw [List.nil_append, mem_walk_dir]
          constructor
          · rintro (⟨name, content, modified, hmem, hwanted, heq⟩ | ⟨name, node, rest, -, hrest, -, heq⟩)
            · obtain ⟨rfl, -⟩ := List.cons.inj heq
              refine ⟨⟨content, modified, ?_⟩, by simp, hwanted⟩
              rw [below?, lookup_of_mem hdistinct hmem]
              rfl
            · exact absurd (List.cons.inj heq).2.symm (ne_nil_of_mem_walk hrest)
          · rintro ⟨⟨content, modified, hbelow⟩, -, hwanted⟩
            obtain ⟨node, hentry, hnode⟩ := Option.bind_eq_some_iff.mp hbelow
            obtain rfl := Option.some.inj hnode
            exact Or.inl ⟨last, content, modified, mem_of_lookup hentry, hwanted, rfl⟩
  | cons dir dirs ih =>
      intro node hnode
      cases node with
      | file content modified => simp [walk, below?]
      | dir entries =>
          obtain ⟨hdistinct, hentries⟩ := hnode
          rw [List.cons_append, mem_walk_dir, List.forall_mem_cons]
          constructor
          · rintro (⟨name, -, -, -, -, heq⟩ | ⟨name, node, rest, hmem, hrest, hskipped, heq⟩)
            · exact absurd (List.cons.inj heq).2 (by simp)
            · obtain ⟨rfl, rfl⟩ := List.cons.inj heq
              obtain ⟨hfile, hdirs, hwanted⟩ := (ih (hentries.of_mem hmem).2).mp hrest
              rw [below?, lookup_of_mem hdistinct hmem]
              exact ⟨hfile, ⟨hskipped, hdirs⟩, hwanted⟩
          · rintro ⟨⟨content, modified, hbelow⟩, ⟨hskipped, hdirs⟩, hwanted⟩
            obtain ⟨node, hentry, hbelow⟩ := Option.bind_eq_some_iff.mp hbelow
            have hmem := mem_of_lookup hentry
            have hrest := (ih (hentries.of_mem hmem).2).mpr ⟨⟨_, _, hbelow⟩, hdirs, hwanted⟩
            exact Or.inr ⟨dir, node, _, hmem, hrest, hskipped, rfl⟩

/-! ## The order of paths -/

/-- Whether a path is listed before another. Where two paths part, a file comes before what lies
below a directory; among files and among directories the names decide. -/
inductive ListedBefore : List String → List String → Prop where
  | files {a b : String} (h : a < b) : ListedBefore [a] [b]
  | file {a b : String} {rest : List String} (hrest : rest ≠ []) : ListedBefore [a] (b :: rest)
  | directories {a b : String} {rest rest' : List String} (hrest : rest ≠ []) (hrest' : rest' ≠ [])
      (h : a < b) : ListedBefore (a :: rest) (b :: rest')
  | inside {a : String} {rest rest' : List String} (h : ListedBefore rest rest') :
      ListedBefore (a :: rest) (a :: rest')

namespace ListedBefore

theorem ne_nil {p q : List String} (h : ListedBefore p q) : p ≠ [] ∧ q ≠ [] := by
  cases h <;> exact ⟨List.cons_ne_nil _ _, List.cons_ne_nil _ _⟩

/-- Of two paths at most one comes before the other. -/
theorem asymm {p q : List String} (h : ListedBefore p q) : ¬ListedBefore q p := by
  induction h with
  | files h =>
      intro h'
      cases h' with
      | files h' => exact lt_asymm h h'
      | file hrest => exact hrest rfl
      | directories hrest => exact hrest rfl
      | inside h' => exact h'.ne_nil.1 rfl
  | file hrest =>
      intro h'
      cases h' with
      | files => exact hrest rfl
      | file hrest' => exact hrest' rfl
      | directories _ hrest' => exact hrest' rfl
      | inside h' => exact h'.ne_nil.2 rfl
  | directories hrest hrest' h =>
      intro h'
      cases h' with
      | files => exact hrest rfl
      | file => exact hrest' rfl
      | directories _ _ h' => exact lt_asymm h h'
      | inside => exact lt_irrefl _ h
  | inside h ih =>
      intro h'
      cases h' with
      | files => exact h.ne_nil.1 rfl
      | file => exact h.ne_nil.2 rfl
      | directories _ _ h' => exact lt_irrefl _ h'
      | inside h' => exact ih h'

theorem ne {p q : List String} (h : ListedBefore p q) : p ≠ q := by
  rintro rfl
  exact h.asymm h

theorem append_left {p q : List String} (h : ListedBefore p q) (front : List String) :
    ListedBefore (front ++ p) (front ++ q) := by
  induction front with
  | nil => exact h
  | cons name front ih => exact .inside ih

end ListedBefore

/-- Things whose names differ stand in the strict order of their names once they are sorted. -/
theorem pairwise_mergeSort_of_nodup {α : Type} (name : α → String) {xs : List α}
    (h : (xs.map name).Nodup) :
    (xs.mergeSort fun a b => decide (name a ≤ name b)).Pairwise fun a b => name a < name b := by
  have hsorted : (xs.mergeSort fun a b => decide (name a ≤ name b)).Pairwise
      fun a b => decide (name a ≤ name b) = true := by
    refine List.pairwise_mergeSort ?_ ?_ xs
    · intro a b c hab hbc
      exact decide_eq_true ((of_decide_eq_true hab).trans (of_decide_eq_true hbc))
    · intro a b
      rw [Bool.or_eq_true, decide_eq_true_eq, decide_eq_true_eq]
      exact le_total _ _
  have hdistinct := List.pairwise_map.mp
    (((List.mergeSort_perm xs fun a b => decide (name a ≤ name b)).map name).nodup_iff.mpr h)
  exact (hsorted.and hdistinct).imp fun ⟨hle, hne⟩ => lt_of_le_of_ne (of_decide_eq_true hle) hne

theorem ne_nil_of_mem_walkEntries {entries : List (String × Node)}
    {entry : String × List (List String)} (hentry : entry ∈ walkEntries skipped wanted entries)
    {names : List String} (hnames : names ∈ entry.2) : names ≠ [] := by
  rw [walkEntries_eq] at hentry
  obtain ⟨⟨name, node⟩, -, rfl⟩ := List.mem_map.mp hentry
  dsimp only at hnames
  split at hnames
  · exact absurd hnames List.not_mem_nil
  · exact ne_nil_of_mem_walk hnames

mutual

/-- **A walk keeps the order.** What a walk of a well-formed tree finds stands in the order of
paths. -/
theorem pairwise_walk : ∀ {node : Node}, node.IsWellFormed →
    (walk skipped wanted node).Pairwise ListedBefore
  | .file .., _ => by
      rw [walk]
      exact .nil
  | .dir entries, ⟨hdistinct, hentries⟩ => by
      rw [walk, List.pairwise_append]
      refine ⟨?_, ?_, ?_⟩
      · refine List.pairwise_map.mpr ((pairwise_mergeSort_of_nodup id ?_).imp .files)
        rw [List.map_id]
        exact ((fileNames_sublist entries).nodup hdistinct).filter _
      · have hperm := List.mergeSort_perm (walkEntries skipped wanted entries)
          fun a b => decide (a.1 ≤ b.1)
        refine List.pairwise_flatMap.mpr ⟨fun entry hentry => ?_, ?_⟩
        · exact List.pairwise_map.mpr
            ((pairwise_walkEntries hentries entry (hperm.mem_iff.mp hentry)).imp .inside)
        · refine (pairwise_mergeSort_of_nodup Prod.fst ?_).imp_of_mem ?_
          · rw [walkEntries_eq, List.map_map]
            exact hdistinct
          · intro a b ha hb hlt p hp q hq
            obtain ⟨rest, hrest, rfl⟩ := List.mem_map.mp hp
            obtain ⟨rest', hrest', rfl⟩ := List.mem_map.mp hq
            exact .directories (ne_nil_of_mem_walkEntries (hperm.mem_iff.mp ha) hrest)
              (ne_nil_of_mem_walkEntries (hperm.mem_iff.mp hb) hrest') hlt
      · intro p hp q hq
        obtain ⟨name, -, rfl⟩ := List.mem_map.mp hp
        obtain ⟨entry, hentry, hq⟩ := List.mem_flatMap.mp hq
        obtain ⟨rest, hrest, rfl⟩ := List.mem_map.mp hq
        exact .file (ne_nil_of_mem_walkEntries (List.mem_mergeSort.mp hentry) hrest)

theorem pairwise_walkEntries : ∀ {entries : List (String × Node)}, AreWellFormed entries →
    ∀ entry ∈ walkEntries skipped wanted entries, entry.2.Pairwise ListedBefore
  | [], _, entry, hentry => by
      rw [walkEntries] at hentry
      exact absurd hentry List.not_mem_nil
  | (name, node) :: entries, ⟨_, hnode, hentries⟩, entry, hentry => by
      rw [walkEntries] at hentry
      rcases List.mem_cons.mp hentry with rfl | hentry
      · dsimp only
        split
        · exact .nil
        · exact pairwise_walk hnode
      · exact pairwise_walkEntries hentries entry hentry

end

/-- **No path twice.** A walk of a well-formed tree finds no path twice. -/
theorem nodup_walk {node : Node} (h : node.IsWellFormed) : (walk skipped wanted node).Nodup :=
  (pairwise_walk h).imp ListedBefore.ne

end Discovery

end ServiceMap
