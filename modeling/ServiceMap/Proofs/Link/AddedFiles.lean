import ServiceMap.Proofs.Link.Targets

/-!
# Edges of a longer table

A type belongs to the first file of the table that declares it. Files that are added behind a table
therefore leave every reference to a type that was resolved before where it is, and resolve more of
them, all to added files; imports do not look at the table. So the edges found with the longer table
are the old ones, in their order, with references to the added files between them.
-/

namespace ServiceMap

open Text Source Link

namespace Link

variable {table more : FileTable}

theorem SymbolIndex.ofTable_append (table more : FileTable) :
    SymbolIndex.ofTable (table ++ more) = SymbolIndex.ofTable table ++ SymbolIndex.ofTable more :=
  List.flatMap_append

/-- **The first declaration counts**: added files are asked only for types that no file declared. -/
theorem SymbolIndex.find?_append (table more : FileTable) (name : String) :
    (SymbolIndex.ofTable (table ++ more)).find? name
      = ((SymbolIndex.ofTable table).find? name).or ((SymbolIndex.ofTable more).find? name) := by
  rw [SymbolIndex.ofTable_append]
  exact List.lookup_append

end Link

/-- Whether an edge may be found without the added files: it is an import or ends elsewhere. -/
def Edge.standsWithout (added : List String) (e : Edge) : Bool :=
  e.kind == .imports || !added.contains e.target

theorem Edge.standsWithout_of_ne_imports {e : Edge} (h : e.kind ≠ .imports) (added : List String) :
    e.standsWithout added = !added.contains e.target := by
  rw [standsWithout, beq_eq_false_iff_ne.mpr h, Bool.false_or]

/-- One scan holds the edges of another, and besides only references to types of added files. -/
structure Scan.Extends (added : List String) (before after : Scan) : Prop where
  /-- The edges of the shorter scan are edges of the longer one, in the same order. -/
  kept : before.edges.Sublist after.edges
  imports : after.edges.filter (·.kind == .imports) = before.edges.filter (·.kind == .imports)
  /-- What the longer scan has besides are references that end at added files. -/
  besides : after.edges.filter (Edge.standsWithout added) = before.edges

theorem Scan.Extends.of_filter {added : List String} {before after : Scan}
    (h : after.edges.filter (Edge.standsWithout added) = before.edges) :
    Extends added before after where
  kept := h ▸ List.filter_sublist
  imports := by
    rw [← h, List.filter_filter]
    refine List.filter_congr fun e _ => ?_
    cases himports : e.kind == .imports with
    | false => rfl
    | true => rw [Edge.standsWithout, himports, Bool.true_or, Bool.and_true]
  besides := h

namespace Extractor

variable {tree : Tree} {workingDirectory : Path} {table more : FileTable}

theorem kind_of_mem_importScan {root : Option Path} {language : Language} {file : String}
    {spec : List Char} {e : Edge}
    (he : e ∈ (importScan tree workingDirectory root language file spec).edges) :
    e.kind = .imports := by
  rw [importScan] at he
  dsimp only at he
  split at he
  · rw [List.mem_singleton.mp he]
  · exact absurd he List.not_mem_nil

/-- A reference to a type ends where it ended before, or at an added file if it ended nowhere. -/
theorem symbolEdge?_append (hdisjoint : ∀ path ∈ more.paths, path ∉ table.paths) {x y : Extractor}
    (hx : x.symbols = SymbolIndex.ofTable table)
    (hy : y.symbols = SymbolIndex.ofTable (table ++ more)) (file : String) {use : SymbolUse}
    (huse : use.kind ≠ .imports) :
    (y.symbolEdge? file use).filter (Edge.standsWithout more.paths) = x.symbolEdge? file use := by
  rw [symbolEdge?, symbolEdge?, hx, hy, SymbolIndex.find?_append]
  cases hbefore : (SymbolIndex.ofTable table).find? (String.ofList use.name) with
  | some target =>
      have hnot : target ∉ more.paths := fun hmem => hdisjoint target hmem (find?_mem_paths hbefore)
      rw [Option.some_or, Option.map_some, Option.filter_some, if_pos]
      rw [Edge.standsWithout_of_ne_imports huse]
      simpa using hnot
  | none =>
      rw [Option.none_or, Option.map_none]
      cases hadded : (SymbolIndex.ofTable more).find? (String.ofList use.name) with
      | none => rfl
      | some target =>
          have hmem : target ∈ more.paths := find?_mem_paths hadded
          rw [Option.map_some, Option.filter_some, if_neg]
          rw [Edge.standsWithout_of_ne_imports huse]
          simpa using hmem

theorem edgesWith_append (hdisjoint : ∀ path ∈ more.paths, path ∉ table.paths) {x y : Extractor}
    (hx : x.symbols = SymbolIndex.ofTable table)
    (hy : y.symbols = SymbolIndex.ofTable (table ++ more)) {root : Option Path} {file : String}
    {text : List Char} {language : Language} {before after : Scan}
    (hbefore : x.edgesWith tree workingDirectory root file text language = .ok before)
    (hafter : y.edgesWith tree workingDirectory root file text language = .ok after) :
    Scan.Extends more.paths before after := by
  obtain ⟨uses, huses, hbefore⟩ := except_bind_eq_ok hbefore
  obtain ⟨uses', huses', hafter⟩ := except_bind_eq_ok hafter
  obtain rfl := Except.ok.inj (huses.symm.trans huses')
  obtain rfl := Except.ok.inj hbefore
  obtain rfl := Except.ok.inj hafter
  refine Scan.Extends.of_filter ?_
  show (_ ++ uses.filterMap (y.symbolEdge? file)).filter _
    = _ ++ uses.filterMap (x.symbolEdge? file)
  rw [List.filter_append, List.filter_filterMap]
  congr 1
  · -- imports are the same, and none of them is left out
    refine List.filter_eq_self.mpr fun e he => ?_
    rw [← Scan.concat, Scan.edges_concat, List.map_map] at he
    obtain ⟨edges, hedges, he⟩ := List.mem_flatten.mp he
    obtain ⟨spec, -, rfl⟩ := List.mem_map.mp hedges
    rw [Edge.standsWithout, kind_of_mem_importScan he]
    rfl
  · refine List.filterMap_congr fun use huse => ?_
    exact symbolEdge?_append hdisjoint hx hy file (kind_ne_imports huses use huse)

/-- A root that an extractor gives is the one that the tree has. -/
theorem root_of_projectRoot {x y : Extractor} (h : x.IsFor tree workingDirectory table)
    {file : Path} {root : Option Path}
    (hroot : x.projectRoot tree workingDirectory file = .ok (root, y)) :
    root = Project.root? tree workingDirectory file ∧ y.symbols = x.symbols := by
  unfold projectRoot at hroot
  split at hroot
  · rename_i remembered hremembered
    obtain ⟨rfl, rfl⟩ := Prod.mk.inj (Except.ok.inj hroot)
    exact ⟨h.roots _ _ hremembered, rfl⟩
  · obtain ⟨found, hfound, heq⟩ := except_map_eq_ok hroot
    obtain ⟨rfl, rfl⟩ := Prod.mk.inj heq
    unfold Project.findRoot at hfound
    split at hfound
    · exact nomatch hfound
    · exact ⟨(Except.ok.inj hfound).symm, rfl⟩

/-- What `extract` finds, it finds with the root that the tree has. -/
theorem edgesWith_of_extract {x y : Extractor} (h : x.IsFor tree workingDirectory table)
    {file : String} {text : List Char} {language : Language} {scan : Scan}
    (hscan : x.extract tree workingDirectory file text language = .ok (scan, y)) :
    x.edgesWith tree workingDirectory
      (Project.root? tree workingDirectory (Path.ofString file)) file text language = .ok scan := by
  unfold extract at hscan
  split at hscan
  · obtain ⟨⟨root, z⟩, hroot, hscan⟩ := except_bind_eq_ok hscan
    obtain ⟨found, hfound, heq⟩ := except_bind_eq_ok hscan
    obtain ⟨rfl, rfl⟩ := Prod.mk.inj (Except.ok.inj heq)
    obtain ⟨rfl, hsymbols⟩ := root_of_projectRoot h hroot
    rw [← hfound]
    exact edgesWith_congr tree workingDirectory hsymbols.symm (fun _ => rfl) file
  · rename_i hneeds
    rw [except_ok_bind] at hscan
    obtain ⟨found, hfound, heq⟩ := except_bind_eq_ok hscan
    obtain ⟨rfl, rfl⟩ := Prod.mk.inj (Except.ok.inj heq)
    rw [← hfound]
    exact edgesWith_congr tree workingDirectory rfl (fun hroot => absurd hroot hneeds) file

theorem extractIn_isOk {x : Extractor} (h : x.IsFor tree workingDirectory table) {file : String}
    (hfile : (Path.ofString file).hasNul = false) (text : List Char) (language : Option Language) :
    ∃ scan y, x.extractIn tree workingDirectory file text language = .ok (scan, y) := by
  cases language with
  | none => exact ⟨_, x, rfl⟩
  | some language =>
      obtain ⟨scan, y, hscan, -⟩ := extract_isFor h hfile text language
      exact ⟨scan, y, hscan⟩

/-- **Adding files changes and removes no edge.** Whatever project roots two extractors remember of
a tree, one for a table and one for the same table with other files behind it: every text that has
edges with the one has edges with the other, and these are the same up to references that end at
added files. -/
theorem added_files_change_no_edge {x y : Extractor} (hx : x.IsFor tree workingDirectory table)
    (hy : y.IsFor tree workingDirectory (table ++ more))
    (hdisjoint : ∀ path ∈ more.paths, path ∉ table.paths) (file : String) (text : List Char)
    (language : Option Language) :
    ((Path.ofString file).hasNul = false →
        (∃ before, x.extractIn tree workingDirectory file text language = .ok before)
        ∧ ∃ after, y.extractIn tree workingDirectory file text language = .ok after)
      ∧ ∀ before after x' y',
        x.extractIn tree workingDirectory file text language = .ok (before, x') →
        y.extractIn tree workingDirectory file text language = .ok (after, y') →
        Scan.Extends more.paths before after := by
  constructor
  · intro hfile
    obtain ⟨before, x', hbefore⟩ := extractIn_isOk hx hfile text language
    obtain ⟨after, y', hafter⟩ := extractIn_isOk hy hfile text language
    exact ⟨⟨_, hbefore⟩, ⟨_, hafter⟩⟩
  · intro before after x' y' hbefore hafter
    cases language with
    | none =>
        obtain ⟨rfl, -⟩ := Prod.mk.inj (Except.ok.inj hbefore)
        obtain ⟨rfl, -⟩ := Prod.mk.inj (Except.ok.inj hafter)
        exact Scan.Extends.of_filter rfl
    | some language =>
        exact edgesWith_append hdisjoint hx.symbols hy.symbols (edgesWith_of_extract hx hbefore)
          (edgesWith_of_extract hy hafter)

/-! ## A second declaration -/

/-- A project with a class beside its root. -/
def projectWithClass : Tree :=
  .dir [("w", .dir [
    ("pom.xml", .file ByteArray.empty ⟨0⟩),
    ("b", .dir [("B.java", .file "class B \x7b\x7d".toUTF8 ⟨0⟩)])])]

/-- A table that declares one class. -/
def oneClass : FileTable :=
  [⟨"/w/A.java", .java, [], [⟨"A", "Class: A", 1, [], [], []⟩], [], none⟩]

/-- A table that declares the class again, and another one. -/
def twoMoreClasses : FileTable :=
  [⟨"/w/b/B.java", .java, [], [⟨"A", "Class: A", 1, [], [], []⟩, ⟨"B", "Class: B", 2, [], [], []⟩],
    [], none⟩]

/-- A file that imports one class, extends another and implements the first. -/
def importingClass : List Char :=
  "import b.B;\n\nclass C extends A implements B \x7b\n\x7d\n".toList

/-- The class declared twice is still found where it was; the import of an added file was there
before. -/
theorem second_declaration_takes_no_edge :
    (∀ path ∈ twoMoreClasses.paths, path ∉ oneClass.paths)
      ∧ ∃ before after x' y',
        (ofTable oneClass).extractIn projectWithClass ⟨1, ["w"]⟩ "/w/C.java" importingClass
          (some .java) = .ok (before, x')
        ∧ (ofTable (oneClass ++ twoMoreClasses)).extractIn projectWithClass ⟨1, ["w"]⟩ "/w/C.java"
          importingClass (some .java) = .ok (after, y')
        ∧ before.edges = [⟨"/w/C.java", "/w/b/B.java", .imports, "b.B"⟩,
            ⟨"/w/C.java", "/w/A.java", .inherits, "C extends A"⟩]
        ∧ after.edges = before.edges
            ++ [⟨"/w/C.java", "/w/b/B.java", .implements, "C implements B"⟩]
        ∧ Scan.Extends twoMoreClasses.paths before after := by
  have hdisjoint : ∀ path ∈ twoMoreClasses.paths, path ∉ oneClass.paths := by decide
  have hold : ((ofTable oneClass).extractIn projectWithClass ⟨1, ["w"]⟩ "/w/C.java"
        importingClass (some .java)).toOption.map (fun found => found.1.edges)
      = some [⟨"/w/C.java", "/w/b/B.java", .imports, "b.B"⟩,
        ⟨"/w/C.java", "/w/A.java", .inherits, "C extends A"⟩] := by
    decide +kernel
  have hnew : ((ofTable (oneClass ++ twoMoreClasses)).extractIn projectWithClass ⟨1, ["w"]⟩
        "/w/C.java" importingClass (some .java)).toOption.map (fun found => found.1.edges)
      = some [⟨"/w/C.java", "/w/b/B.java", .imports, "b.B"⟩,
        ⟨"/w/C.java", "/w/A.java", .inherits, "C extends A"⟩,
        ⟨"/w/C.java", "/w/b/B.java", .implements, "C implements B"⟩] := by
    decide +kernel
  obtain ⟨⟨before, x'⟩, hbefore, hold⟩ := exists_ok_of_toOption hold
  obtain ⟨⟨after, y'⟩, hafter, hnew⟩ := exists_ok_of_toOption hnew
  have hextends := (added_files_change_no_edge (isFor_ofTable oneClass)
    (isFor_ofTable (oneClass ++ twoMoreClasses)) hdisjoint "/w/C.java" importingClass
    (some .java)).2 _ _ _ _ hbefore hafter
  refine ⟨hdisjoint, before, after, x', y', hbefore, hafter, hold, ?_, hextends⟩
  rw [show before.edges = _ from hold]
  exact hnew

end Extractor

end ServiceMap
