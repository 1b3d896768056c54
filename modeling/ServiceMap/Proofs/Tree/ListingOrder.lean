import Mathlib.Data.Option.Basic
import ServiceMap.Proofs.Tree.Discovered

/-!
# The order of a listing

The entries of a directory stand in no particular order. What is found in a tree and how the files
of a tree are listed does not depend on it: the files come out as their names order them, those of a
directory before those of its directories.
-/

namespace ServiceMap

namespace Node

/-! ## Trees that differ in the order of entries -/

/-- Two trees that are the same up to the order in which their directories hold their entries. -/
inductive Reordered : Node → Node → Prop where
  | file (content : ByteArray) (modified : Instant) :
      Reordered (.file content modified) (.file content modified)
  | dir {entries others : List (String × Node)}
      (hnames : (others.map Prod.fst).Perm (entries.map Prod.fst))
      (hnodes : ∀ name node other, (name, node) ∈ entries → (name, other) ∈ others →
        Reordered node other) :
      Reordered (.dir entries) (.dir others)

theorem areWellFormed_iff {entries : List (String × Node)} :
    AreWellFormed entries ↔ ∀ entry ∈ entries, IsFileName entry.1 ∧ entry.2.IsWellFormed := by
  induction entries with
  | nil => simp [AreWellFormed]
  | cons entry entries ih => simp [AreWellFormed, ih, and_assoc]

theorem exists_of_mem_names {entries : List (String × Node)} {name : String}
    (h : name ∈ entries.map Prod.fst) : ∃ node, (name, node) ∈ entries := by
  obtain ⟨⟨_, node⟩, hmem, rfl⟩ := List.mem_map.mp h
  exact ⟨node, hmem⟩

/-- What stands in two lists under one name stands there at one place, if the names are the same. -/
theorem rel_of_forall₂ {R : Node → Node → Prop} {entries others : List (String × Node)}
    (h : List.Forall₂ (fun entry other => entry.1 = other.1 ∧ R entry.2 other.2) entries others) :
    others.map Prod.fst = entries.map Prod.fst ∧ ((entries.map Prod.fst).Nodup →
      ∀ name node other, (name, node) ∈ entries → (name, other) ∈ others → R node other) := by
  induction h with
  | nil => exact ⟨rfl, fun _ _ _ _ hnode => absurd hnode List.not_mem_nil⟩
  | @cons entry other entries others hfirst _ ih =>
      obtain ⟨hnames, hrest⟩ := ih
      obtain ⟨hname, hrel⟩ := hfirst
      refine ⟨by rw [List.map_cons, List.map_cons, hnames, hname], fun hdistinct => ?_⟩
      obtain ⟨hnew, hdistinct⟩ := List.nodup_cons.mp hdistinct
      intro name node other hnode hother
      rcases List.mem_cons.mp hnode with rfl | hnode <;>
        rcases List.mem_cons.mp hother with rfl | hother
      · exact hrel
      · have hagain := List.mem_map_of_mem (f := Prod.fst) hother
        rw [hnames] at hagain
        exact absurd hagain hnew
      · rw [hname] at hnew
        exact absurd (List.mem_map_of_mem (f := Prod.fst) hnode) hnew
      · exact hrest hdistinct name node other hnode hother

/-- A directory is reordered by reordering its entries and what stands under each name. -/
theorem reordered_of_perm {entries middle others : List (String × Node)}
    (hdistinct : (entries.map Prod.fst).Nodup) (hperm : others.Perm middle)
    (hnodes : List.Forall₂ (fun entry other => entry.1 = other.1 ∧ Reordered entry.2 other.2)
      entries middle) : Reordered (.dir entries) (.dir others) := by
  obtain ⟨hnames, hrel⟩ := rel_of_forall₂ hnodes
  refine .dir (hnames ▸ hperm.map Prod.fst) fun name node other hnode hother => ?_
  exact hrel hdistinct name node other hnode (hperm.mem_iff.mp hother)

theorem Reordered.isWellFormed {a b : Node} (h : Reordered a b) :
    a.IsWellFormed → b.IsWellFormed := by
  induction h with
  | file => exact id
  | dir hnames hnodes ih =>
      rintro ⟨hdistinct, hentries⟩
      refine ⟨hnames.nodup_iff.mpr hdistinct, areWellFormed_iff.mpr ?_⟩
      rintro ⟨name, other⟩ hmem
      obtain ⟨node, hnode⟩ := exists_of_mem_names
        (hnames.mem_iff.mp (List.mem_map_of_mem (f := Prod.fst) hmem))
      obtain ⟨hname, hwell⟩ := hentries.of_mem hnode
      exact ⟨hname, ih name node other hnode hmem hwell⟩

/-- Under each name there stands the same. -/
theorem lookup_reordered {entries others : List (String × Node)}
    (h : Reordered (.dir entries) (.dir others)) (hdistinct : (entries.map Prod.fst).Nodup)
    (name : String) : Option.Rel Reordered (entries.lookup name) (others.lookup name) := by
  cases h with
  | dir hnames hnodes =>
      cases hnode : entries.lookup name with
      | some node =>
          have hmem := mem_of_lookup hnode
          obtain ⟨other, hother⟩ := exists_of_mem_names
            (hnames.mem_iff.mpr (List.mem_map_of_mem (f := Prod.fst) hmem))
          rw [lookup_of_mem (hnames.nodup_iff.mpr hdistinct) hother]
          exact .some (hnodes name node other hmem hother)
      | none =>
          cases hother : others.lookup name with
          | none => exact .none
          | some other =>
              obtain ⟨node, hmem⟩ := exists_of_mem_names
                (hnames.mem_iff.mp (List.mem_map_of_mem (f := Prod.fst) (mem_of_lookup hother)))
              rw [lookup_of_mem hdistinct hmem] at hnode
              exact nomatch hnode

/-- A lookup leads to the same in both trees. -/
theorem descend_reordered {names : List String} :
    ∀ {above above' : List Node} {here here' : Node}, List.Forall₂ Reordered above above' →
      (∀ outer ∈ above, outer.IsWellFormed) → Reordered here here' → here.IsWellFormed →
      (∃ fault, descend above here names = .error fault ∧ descend above' here' names = .error fault)
        ∨ ∃ node node', descend above here names = .ok node ∧ descend above' here' names = .ok node'
          ∧ Reordered node node' := by
  induction names with
  | nil =>
      intro above above' here here' _ _ hhere _
      exact Or.inr ⟨here, here', rfl, rfl, hhere⟩
  | cons name names ih =>
      intro above above' here here' habove hwell hhere hherewell
      cases hhere with
      | file => exact Or.inl ⟨.missing, rfl, rfl⟩
      | @dir entries others hnames hnodes =>
          have hdir : Reordered (.dir entries) (.dir others) := .dir hnames hnodes
          by_cases hup : name = ".."
          · subst hup
            cases habove with
            | nil => exact ih .nil hwell hdir hherewell
            | cons houter hmore =>
                obtain ⟨hfirst, hrest⟩ := List.forall_mem_cons.mp hwell
                exact ih hmore hrest houter hfirst
          · rw [descend_down hup, descend_down hup]
            split
            · exact Or.inl ⟨.tooLong, rfl, rfl⟩
            · have hentry := lookup_reordered hdir hherewell.1 name
              generalize hnode : entries.lookup name = found at hentry
              generalize others.lookup name = found' at hentry
              cases hentry with
              | none => exact Or.inl ⟨.missing, rfl, rfl⟩
              | some hbelow =>
                  exact ih (.cons hdir habove) (List.forall_mem_cons.mpr ⟨hherewell, hwell⟩) hbelow
                    (hherewell.2.of_mem (mem_of_lookup hnode)).2

theorem below?_reordered {names : List String} :
    ∀ {here here' : Node}, Reordered here here' → here.IsWellFormed →
      Option.Rel Reordered (below? here names) (below? here' names) := by
  induction names with
  | nil =>
      intro here here' hhere _
      exact .some hhere
  | cons name names ih =>
      intro here here' hhere hwell
      cases hhere with
      | file => exact .none
      | @dir entries others hnames hnodes =>
          have hentry := lookup_reordered (.dir hnames hnodes) hwell.1 name
          rw [below?, below?]
          generalize hnode : entries.lookup name = found at hentry
          generalize others.lookup name = found' at hentry
          cases hentry with
          | none => exact .none
          | some hbelow => exact ih hbelow (hwell.2.of_mem (mem_of_lookup hnode)).2

theorem file_below?_iff_of_reordered {here here' : Node} (h : Reordered here here')
    (hwell : here.IsWellFormed) (names : List String) :
    (∃ content modified, below? here' names = some (.file content modified))
      ↔ ∃ content modified, below? here names = some (.file content modified) := by
  have hbelow : Option.Rel Reordered (below? here names) (below? here' names) :=
    below?_reordered h hwell
  generalize below? here names = found at hbelow ⊢
  generalize below? here' names = found' at hbelow ⊢
  cases hbelow with
  | none => rfl
  | some hnode =>
      cases hnode with
      | file => rfl
      | dir =>
          constructor
          · rintro ⟨content, modified, hfile⟩
            exact nomatch hfile
          · rintro ⟨content, modified, hfile⟩
            exact nomatch hfile

end Node

namespace Discovery

variable {tree other : Tree} {workingDirectory root : Path} {skipped wanted : String → Bool}

/-! ## Any order of entries -/

theorem pairwise_filesBelow {endings excluded : List String} (htree : tree.IsWellFormed)
    (hroot : IsRoot tree workingDirectory root) :
    ((filesBelow tree workingDirectory root endings excluded).map Path.names).Pairwise
      ListedBefore := by
  obtain ⟨node, hnode, hfiles⟩ := hroot.filesBelow_eq
  rw [hfiles, List.map_map]
  exact List.pairwise_map.mpr
    ((pairwise_walk (htree.below hnode).1).imp fun h => h.append_left root.names)

/-- **A walk does not see the order of entries.** It is determined by which files there are. -/
theorem walk_reordered {node node' : Node} (h : Node.Reordered node node')
    (hnode : node.IsWellFormed) : walk skipped wanted node' = walk skipped wanted node := by
  have hnode' := h.isWellFormed hnode
  have hmem : ∀ names, names ∈ walk skipped wanted node' ↔ names ∈ walk skipped wanted node := by
    intro names
    rcases List.eq_nil_or_concat' names with rfl | ⟨dirs, last, rfl⟩
    · exact iff_of_false (fun hnil => ne_nil_of_mem_walk hnil rfl)
        fun hnil => ne_nil_of_mem_walk hnil rfl
    · rw [mem_walk_iff hnode', mem_walk_iff hnode, Node.file_below?_iff_of_reordered h hnode]
  refine List.Perm.eq_of_pairwise (fun p q _ _ hpq hqp => absurd hqp hpq.asymm)
    (pairwise_walk hnode') (pairwise_walk hnode) ?_
  exact (List.perm_ext_iff_of_nodup (nodup_walk hnode') (nodup_walk hnode)).mpr hmem

theorem isWellFormed_of_find (htree : tree.IsWellFormed) {p : Path} {node : Node}
    (h : tree.find workingDirectory p = .ok node) : node.IsWellFormed := by
  unfold Tree.find at h
  split at h
  · exact nomatch h
  · split at h
    · exact nomatch h
    · exact htree.descend (fun _ houter => absurd houter List.not_mem_nil) h

/-- Lookups of a path in both trees fail alike or lead to the same. -/
theorem find_reordered (h : Node.Reordered tree other) (htree : tree.IsWellFormed)
    (workingDirectory p : Path) :
    (∃ fault, tree.find workingDirectory p = .error fault
        ∧ other.find workingDirectory p = .error fault)
      ∨ ∃ node node', tree.find workingDirectory p = .ok node
        ∧ other.find workingDirectory p = .ok node' ∧ Node.Reordered node node' := by
  unfold Tree.find
  split
  · exact Or.inl ⟨_, rfl, rfl⟩
  · split
    · exact Or.inl ⟨_, rfl, rfl⟩
    · exact Node.descend_reordered .nil (fun _ h => absurd h List.not_mem_nil) h htree

/-- A root is found in both trees, or missed for the same reason. -/
theorem resolveRoot_reordered (h : Node.Reordered tree other) (htree : tree.IsWellFormed)
    (path : String) :
    resolveRoot other workingDirectory path = resolveRoot tree workingDirectory path := by
  unfold resolveRoot
  dsimp only
  split
  · rfl
  · split
    · rfl
    · split
      · rfl
      · rename_i expanded _ _
        rcases find_reordered h htree workingDirectory (expanded.resolve workingDirectory) with
          ⟨fault, htree, hother⟩ | ⟨node, node', htree, hother, hnode⟩
        · rw [htree, hother]
        · rw [htree, hother]
          cases hnode with
          | file => rfl
          | dir => rfl

theorem filesBelow_reordered (h : Node.Reordered tree other) (htree : tree.IsWellFormed)
    (root : Path) (endings excluded : List String) :
    filesBelow other workingDirectory root endings excluded
      = filesBelow tree workingDirectory root endings excluded := by
  rw [filesBelow, filesBelow, Tree.find?, Tree.find?]
  rcases find_reordered h htree workingDirectory root with
    ⟨fault, hfind, hother⟩ | ⟨node, node', hfind, hother, hnode⟩
  · rw [hfind, hother]
  · rw [hfind, hother]
    show (walk _ _ node').map _ = (walk _ _ node).map _
    rw [walk_reordered hnode (isWellFormed_of_find htree hfind)]

/-- **Discovery.** In whatever order the directories of a tree hold their entries, the same files are
listed, or there is the same reason for listing none. Listed are, once each, the files with one of
the endings on the way to which no directory below the root is passed over: the files of a directory
by name, and behind them what is listed of each of its directories, by name again. -/
theorem files_are_listed_by_name (htree : tree.IsWellFormed) (workingDirectory : Path)
    (path : String) (endings excluded : List String) :
    (∀ other, Node.Reordered tree other →
        discover other workingDirectory path endings excluded
          = discover tree workingDirectory path endings excluded)
      ∧ ∀ root, resolveRoot tree workingDirectory path = .ok root →
        ∃ files, discover tree workingDirectory path endings excluded = .ok files
          ∧ files.Nodup
          ∧ (∀ file, file ∈ files ↔ Admits root endings excluded file
              ∧ ∃ content modified, Node.below? tree file.names = some (.file content modified))
          ∧ (files.map Path.names).Pairwise ListedBefore := by
  constructor
  · intro other h
    rw [discover, discover, resolveRoot_reordered h htree]
    refine congrArg (Except.map · _) (funext fun root => ?_)
    exact filesBelow_reordered h htree root endings excluded
  · intro root hresolve
    have hroot := isRoot_of_resolveRoot hresolve
    exact ⟨_, by rw [discover, hresolve]; rfl, nodup_filesBelow htree hroot,
      fun _ => mem_filesBelow_iff htree hroot, pairwise_filesBelow htree hroot⟩

/-! ## A listed project -/

/-- A directory with its entries in some order. -/
def shuffledDirectory : Node :=
  .dir [
    ("z.go", .file ByteArray.empty ⟨0⟩),
    ("app", .dir [("b.GO", .file ByteArray.empty ⟨0⟩), ("a.go", .file ByteArray.empty ⟨0⟩)]),
    ("build", .dir [("c.go", .file ByteArray.empty ⟨0⟩)]),
    ("notes.txt", .file ByteArray.empty ⟨0⟩)]

/-- The same directory with its entries in another order. -/
def orderedDirectory : Node :=
  .dir [
    ("app", .dir [("a.go", .file ByteArray.empty ⟨0⟩), ("b.GO", .file ByteArray.empty ⟨0⟩)]),
    ("build", .dir [("c.go", .file ByteArray.empty ⟨0⟩)]),
    ("notes.txt", .file ByteArray.empty ⟨0⟩),
    ("z.go", .file ByteArray.empty ⟨0⟩)]

theorem reordered_directories : Node.Reordered shuffledDirectory orderedDirectory := by
  have hturn : ∀ a b c d : String × Node, [b, c, d, a].Perm [a, b, c, d] :=
    fun a b c d => List.perm_append_singleton a [b, c, d]
  refine Node.reordered_of_perm (by decide) (hturn _ _ _ _)
    (.cons ⟨rfl, .file _ _⟩ (.cons ⟨rfl, ?app⟩ (.cons ⟨rfl, ?build⟩ (.cons ⟨rfl, .file _ _⟩ .nil))))
  case app =>
      exact Node.reordered_of_perm (by decide) (List.Perm.swap _ _ _)
        (.cons ⟨rfl, .file _ _⟩ (.cons ⟨rfl, .file _ _⟩ .nil))
  case build =>
      exact Node.reordered_of_perm (by decide) (List.Perm.refl _) (.cons ⟨rfl, .file _ _⟩ .nil)

/-- A directory below a root of the same name is passed over, and the root is not. -/
theorem shuffled_directory_is_listed :
    Node.IsWellFormed (.dir [("build", shuffledDirectory)])
      ∧ Node.Reordered (.dir [("build", shuffledDirectory)]) (.dir [("build", orderedDirectory)])
      ∧ resolveRoot (.dir [("build", shuffledDirectory)]) ⟨1, []⟩ "build" = .ok ⟨1, ["build"]⟩
      ∧ ∃ files,
        discover (.dir [("build", shuffledDirectory)]) ⟨1, []⟩ "build" [".Go"] [] = .ok files
        ∧ discover (.dir [("build", orderedDirectory)]) ⟨1, []⟩ "build" [".Go"] [] = .ok files
        ∧ ⟨1, ["build", "app", "b.GO"]⟩ ∈ files ∧ ⟨1, ["build", "build", "c.go"]⟩ ∉ files := by
  have hwell : Node.IsWellFormed (.dir [("build", shuffledDirectory)]) := by decide +kernel
  have hreordered : Node.Reordered (.dir [("build", shuffledDirectory)])
      (.dir [("build", orderedDirectory)]) := by
    refine .dir (by decide) fun name node other hnode hother => ?_
    obtain ⟨-, rfl⟩ := Prod.mk.inj (List.mem_singleton.mp hnode)
    obtain ⟨-, rfl⟩ := Prod.mk.inj (List.mem_singleton.mp hother)
    exact reordered_directories
  have hresolve : resolveRoot (.dir [("build", shuffledDirectory)]) ⟨1, []⟩ "build"
      = .ok ⟨1, ["build"]⟩ := rfl
  obtain ⟨hsame, hlisted⟩ := files_are_listed_by_name hwell ⟨1, []⟩ "build" [".Go"] []
  obtain ⟨files, hfiles, -, hmem, -⟩ := hlisted _ hresolve
  refine ⟨hwell, hreordered, hresolve, files, hfiles, (hsame _ hreordered).trans hfiles, ?_, ?_⟩
  · exact (hmem _).mpr ⟨⟨["app"], "b.GO", rfl, by decide +kernel, by decide +kernel⟩, _, _, rfl⟩
  · intro hfile
    obtain ⟨⟨dirs, last, hpath, hdirs, -⟩, -⟩ := (hmem _).mp hfile
    have hnames : ["build"] ++ ["c.go"] = dirs ++ [last] :=
      (List.cons.inj (congrArg Path.names hpath)).2
    obtain ⟨rfl, -⟩ := List.append_inj' hnames rfl
    exact absurd (hdirs "build" List.mem_cons_self) (by decide +kernel)

end Discovery

end ServiceMap
