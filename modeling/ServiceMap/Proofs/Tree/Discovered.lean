import ServiceMap.Proofs.Tree.Walk

/-!
# Discovered files

The root of an analysis is an absolute path without two dots at which there is a directory. Each
path discovered below it is written as it is read, leads to a file, and is discovered once.
-/

namespace ServiceMap

namespace Path

open Text

/-- In an absolute path every pair of dots is taken out. -/
theorem not_up_of_mem_collapse {names done : List String} (hdone : ∀ name ∈ done, name ≠ "..") :
    ∀ name ∈ collapse true done names, name ≠ ".." := by
  generalize habsolute : true = absolute
  fun_induction collapse absolute done names with
  | case1 done => exact fun name hname => hdone name (List.mem_reverse.mp hname)
  | case2 rest _ ih => exact ih hdone
  | case3 rest hrelative ih => exact absurd habsolute.symm hrelative
  | case4 rest done ih => exact absurd rfl (hdone ".." List.mem_cons_self)
  | case5 rest last done _ ih =>
      exact ih fun name hname => hdone name (List.mem_cons_of_mem _ hname)
  | case6 done first rest hfirst ih =>
      refine ih fun name hname => ?_
      rcases List.mem_cons.mp hname with rfl | hname
      · exact hfirst
      · exact hdone name hname

theorem not_up_of_mem_resolve (p workingDirectory : Path) :
    ∀ name ∈ (p.resolve workingDirectory).names, name ≠ ".." :=
  not_up_of_mem_collapse fun _ hname => absurd hname List.not_mem_nil

end Path

namespace Discovery

variable {tree : Tree} {workingDirectory root : Path}

/-- A root that an analysis can start from. -/
structure IsRoot (tree : Tree) (workingDirectory root : Path) : Prop where
  slashes : root.slashes = 1
  noUp : ∀ name ∈ root.names, name ≠ ".."
  directory : ∃ entries, tree.find workingDirectory root = .ok (.dir entries)

theorem isRoot_of_resolveRoot {path : String}
    (h : resolveRoot tree workingDirectory path = .ok root) :
    IsRoot tree workingDirectory root := by
  rw [resolveRoot] at h
  dsimp only at h
  split at h
  · exact nomatch h
  · split at h
    · exact nomatch h
    · rename_i expanded _
      split at h
      · exact nomatch h
      · split at h
        · exact nomatch h
        · exact nomatch h
        · exact nomatch h
        · rename_i entries hfind
          obtain rfl := Except.ok.inj h
          exact ⟨rfl, Path.not_up_of_mem_resolve _ _, entries, hfind⟩

theorem IsRoot.isPlain (htree : tree.IsWellFormed) (h : IsRoot tree workingDirectory root) :
    root.IsPlain := by
  obtain ⟨entries, hfind⟩ := h.directory
  have habsolute : root.isAbsolute = true := by
    rw [Path.isAbsolute, h.slashes]
    rfl
  have hbelow := Tree.below?_of_find habsolute h.noUp hfind
  exact ⟨h.slashes ▸ Nat.le_succ 1,
    fun name hname => ((htree.below hbelow).2 name hname).toIsPlainName⟩

/-- A root is the one that its text denotes. -/
theorem IsRoot.resolveRoot_toString (htree : tree.IsWellFormed)
    (h : IsRoot tree workingDirectory root) :
    resolveRoot tree workingDirectory root.toString = .ok root := by
  obtain ⟨entries, hfind⟩ := h.directory
  have hnul : root.toString.toList.any Path.isNul = false := by
    rw [Path.toString, String.toList_ofList]
    exact Tree.hasNul_of_find hfind
  have haccount : root.account? = none := by
    rw [Path.account?, h.slashes]
    rfl
  have hexpand : root.expandHome? = some root := by
    rw [Path.expandHome?, haccount]
  rw [resolveRoot, Path.ofString_toString (h.isPlain htree)]
  simp [haccount, hexpand, hnul, Path.resolve_of_not_up h.slashes h.noUp, hfind]

/-- The files below a root are those that a walk of its directory finds. -/
theorem IsRoot.filesBelow_eq (h : IsRoot tree workingDirectory root) :
    ∃ node, Node.below? tree root.names = some node ∧ ∀ endings excluded,
      filesBelow tree workingDirectory root endings excluded
        = (walk (skips excluded) (hasEnding endings) node).map fun names =>
            { root with names := root.names ++ names } := by
  obtain ⟨entries, hfind⟩ := h.directory
  have habsolute : root.isAbsolute = true := by
    rw [Path.isAbsolute, h.slashes]
    rfl
  refine ⟨.dir entries, Tree.below?_of_find habsolute h.noUp hfind, ?_⟩
  intro endings excluded
  rw [filesBelow, Tree.find?, hfind]
  rfl

/-- What is known of a discovered path. -/
structure IsDiscovered (tree : Tree) (endings : List String) (path : Path) : Prop where
  slashes : path.slashes = 1
  below : ∃ content modified, Node.below? tree path.names = some (.file content modified)
  ending : ∃ name, path.names.getLast? = some name ∧ hasEnding endings name = true

variable {endings excluded : List String}

/-- **Discovered paths** lead to files whose names have one of the endings. -/
theorem isDiscovered_of_mem (htree : tree.IsWellFormed) (hroot : IsRoot tree workingDirectory root)
    {path : Path} (hpath : path ∈ filesBelow tree workingDirectory root endings excluded) :
    IsDiscovered tree endings path := by
  obtain ⟨node, hnode, hfiles⟩ := hroot.filesBelow_eq
  rw [hfiles] at hpath
  obtain ⟨names, hnames, rfl⟩ := List.mem_map.mp hpath
  obtain ⟨⟨content, modified, hbelow⟩, name, hlast, hending⟩ :=
    below?_of_mem_walk (htree.below hnode).1 hnames
  refine ⟨hroot.slashes, ⟨content, modified, ?_⟩, name, ?_, hending⟩
  · rw [Node.below?_append, hnode]
    exact hbelow
  · rw [List.getLast?_append, hlast]
    rfl

/-- No path is discovered twice. -/
theorem nodup_filesBelow (htree : tree.IsWellFormed) (hroot : IsRoot tree workingDirectory root) :
    (filesBelow tree workingDirectory root endings excluded).Nodup := by
  obtain ⟨node, hnode, hfiles⟩ := hroot.filesBelow_eq
  rw [hfiles]
  refine (nodup_walk (htree.below hnode).1).map ?_
  intro names names' heq
  exact List.append_cancel_left (congrArg Path.names heq)

theorem IsDiscovered.isPlain (htree : tree.IsWellFormed) {path : Path}
    (h : IsDiscovered tree endings path) : path.IsPlain := by
  obtain ⟨content, modified, hbelow⟩ := h.below
  exact ⟨h.slashes ▸ Nat.le_succ 1,
    fun name hname => ((htree.below hbelow).2 name hname).toIsPlainName⟩

theorem IsDiscovered.hasNul (htree : tree.IsWellFormed) {path : Path}
    (h : IsDiscovered tree endings path) : path.hasNul = false := by
  obtain ⟨content, modified, hbelow⟩ := h.below
  exact Tree.hasNul_of_below? htree hbelow

/-- No two discovered paths have the same text. -/
theorem nodup_texts (endings excluded : List String) (htree : tree.IsWellFormed)
    (hroot : IsRoot tree workingDirectory root) :
    ((filesBelow tree workingDirectory root endings excluded).map Path.toString).Nodup := by
  refine (nodup_filesBelow htree hroot).map_on ?_
  intro p hp q hq heq
  exact Path.toString_injective ((isDiscovered_of_mem htree hroot hp).isPlain htree)
    ((isDiscovered_of_mem htree hroot hq).isPlain htree) heq

/-- A discovered file is read, unless its bytes are no text or its path is too long. -/
theorem IsDiscovered.read (workingDirectory : Path) (htree : tree.IsWellFormed) {path : Path}
    (h : IsDiscovered tree endings path) (hlong : path.isTooLong = false) :
    ∃ content modified, tree.find workingDirectory path = .ok (.file content modified)
      ∧ tree.read workingDirectory path = match decodeUtf8? content with
        | none => .error .notUtf8
        | some text => .ok ⟨Text.normalizeNewlines text, modified⟩ := by
  obtain ⟨content, modified, hbelow⟩ := h.below
  have habsolute : path.isAbsolute = true := by
    rw [Path.isAbsolute, h.slashes]
    rfl
  obtain ⟨hnul, hfind⟩ := Tree.find_of_below? workingDirectory htree habsolute hbelow hlong
  refine ⟨content, modified, hfind, ?_⟩
  rw [Tree.read, hnul, hfind]
  rfl

/-! ## What discovery lists -/

/-- A path that leads from a root through directories that are not passed over to a name with one of
the endings. -/
def Admits (root : Path) (endings excluded : List String) (path : Path) : Prop :=
  ∃ dirs last, path = { root with names := root.names ++ (dirs ++ [last]) }
    ∧ (∀ dir ∈ dirs, skips excluded dir = false) ∧ hasEnding endings last = true

/-- **Discovery is complete.** It lists the path of each file that it admits, and no others. -/
theorem mem_filesBelow_iff (htree : tree.IsWellFormed) (hroot : IsRoot tree workingDirectory root)
    {path : Path} :
    path ∈ filesBelow tree workingDirectory root endings excluded ↔
      Admits root endings excluded path
        ∧ ∃ content modified, Node.below? tree path.names = some (.file content modified) := by
  obtain ⟨node, hnode, hfiles⟩ := hroot.filesBelow_eq
  have hbelow : ∀ names, Node.below? tree (root.names ++ names) = Node.below? node names := by
    intro names
    rw [Node.below?_append, hnode, Option.bind_some]
  rw [hfiles, List.mem_map]
  constructor
  · rintro ⟨names, hnames, rfl⟩
    obtain ⟨dirs, last, rfl⟩ :=
      (List.eq_nil_or_concat' names).resolve_left (ne_nil_of_mem_walk hnames)
    obtain ⟨hfile, hdirs, hending⟩ := (mem_walk_iff (htree.below hnode).1).mp hnames
    exact ⟨⟨dirs, last, rfl, hdirs, hending⟩, by simpa only [hbelow] using hfile⟩
  · rintro ⟨⟨dirs, last, rfl, hdirs, hending⟩, hfile⟩
    simp only [hbelow] at hfile
    exact ⟨_, (mem_walk_iff (htree.below hnode).1).mpr ⟨hfile, hdirs, hending⟩, rfl⟩

/-- No directory is left upwards on the way to an admitted path. -/
theorem Admits.noUp (hroot : IsRoot tree workingDirectory root) {path : Path}
    (h : Admits root endings excluded path) (hup : hasEnding endings ".." = false) :
    ∀ name ∈ path.names, name ≠ ".." := by
  obtain ⟨dirs, last, rfl, hdirs, hending⟩ := h
  simp only [List.mem_append, List.mem_singleton]
  rintro name (hname | hname | rfl) rfl
  · exact hroot.noUp ".." hname rfl
  · have hskips : skips excluded ".." = true := by simp [skips]
    exact absurd (hdirs ".." hname) (by simp [hskips])
  · exact absurd hending (by simp [hup])

end Discovery

end ServiceMap
