import ServiceMap.Proofs.Facts.Renamed
import ServiceMap.Proofs.Link.Pool
import ServiceMap.Proofs.Link.Targets
import ServiceMap.Proofs.Tree.Placed

/-!
# Imports below a root

An import that stays below a root leads to the same place there, wherever the root stands. So the
edges of files under one root are those under another, with other names at their ends.
-/

namespace ServiceMap

open Text Source Link Discovery

namespace Text

theorem replace_dot (s : List Char) :
    replace ['.'] ['/'] s = s.map fun c => if c = '.' then '/' else c := by
  rw [replace]
  induction s with
  | nil => rfl
  | cons c s ih =>
      have hdot : ['.'].isPrefixOf (c :: s) = decide (c = '.') := by
        show ('.' == c && true) = _
        rw [Bool.and_true, Bool.beq_eq_decide_eq]
        exact decide_eq_decide.mpr eq_comm
      rw [replaceFrom, hdot, List.map_cons, ← ih]
      by_cases hc : c = '.'
      · rw [if_pos (decide_eq_true hc), if_pos hc]
        rfl
      · rw [if_neg (by simpa using hc), if_neg hc]

end Text

namespace Link

/-! ## Places below a directory -/

/-- Whether an import of Go is taken relative to the importing file. -/
def isRelative (spec : List Char) : Bool :=
  ['.', '/'].isPrefixOf spec || ['.', '.', '/'].isPrefixOf spec

/-- Whether an import leads no further up than `depth` directories from the one of the importing
file. -/
def staysBelow (depth : Nat) (spec : List Char) : Language → Bool
  | .go => !isRelative spec
      || Path.staysBelow depth (Path.ofString (String.ofList spec)).names
  | .java => !(dottedPath spec ".java").isAbsolute
  | .csharp => !(dottedPath spec ".cs").isAbsolute

/-- The first of the Go files in a directory below another. -/
def goFileIn? (content : Node) (dirs : List String) : Option (List String) :=
  match Node.below? content dirs with
  | some (.dir entries) => (firstGoFile? (entries.map Prod.fst)).map fun name => dirs ++ [name]
  | _ => none

/-- Where below a directory an import of Go may be found. -/
def goPlaces (content : Node) (dirs : List String) (spec : List Char) : List (List String) :=
  if isRelative spec then
    let base := Path.collapse true [] (dirs ++ (Path.ofString (String.ofList spec)).names)
    (base.getLast?.map fun name => base.dropLast ++ [name ++ ".go"]).toList
      ++ (goFileIn? content base).toList
  else []

/-- Where below a directory an import may be found: the importing file lies in `dirs`, and its
project in `project?`. -/
def places (content : Node) (project? : Option (List String)) (dirs : List String)
    (spec : List Char) : Language → List (List String)
  | .go => goPlaces content dirs spec
  | .java => project?.elim [] fun project =>
      let names := (dottedPath spec ".java").names
      [project ++ ["src", "main", "java"] ++ names, project ++ ["src"] ++ names, dirs ++ names]
  | .csharp => project?.elim [] fun project =>
      let names := (dottedPath spec ".cs").names
      [project ++ names, dirs ++ names]

/-- Whether what stands somewhere is a file. -/
def isFile : Option Node → Bool
  | some (.file ..) => true
  | _ => false

/-- The place below a directory that an import leads to. -/
def placeOf? (content : Node) (dirs : List String) (spec : List Char) (language : Language) :
    Option (List String) :=
  (places content (Project.rootWithin? content dirs) dirs spec language).find? fun names =>
    isFile (Node.below? content names)

/-! ## No place is above the directory -/

theorem ne_up_of_go (name : String) : name ++ ".go" ≠ ".." := by
  intro h
  have hlast := congrArg (fun s : String => s.toList.getLast?) h
  rw [String.toList_append, List.getLast?_append] at hlast
  exact absurd (show some 'o' = some '.' from hlast) (by decide)

/-- A dotted name has no dots left. -/
theorem ne_up_of_mem_dottedPath {spec : List Char} {ending : String}
    (hending : ending.toList.count '.' = 1) :
    ∀ name ∈ (dottedPath spec ending).names, name ≠ ".." := by
  intro name hname hup
  obtain ⟨piece, hpiece, rfl⟩ := List.mem_map.mp hname
  have hdots : piece = ['.', '.'] := by
    rw [← String.toList_ofList (l := piece), hup]
    rfl
  obtain ⟨a, b, htext, -, -⟩ := split_of_mem_splitOn (List.mem_filter.mp hpiece).1
  -- the ending brings the only dot into the text
  have hnone : (replace ['.'] ['/'] spec).count '.' = 0 := by
    rw [replace_dot, List.count_eq_zero]
    intro hmem
    obtain ⟨c, -, hc⟩ := List.mem_map.mp hmem
    split at hc
    · exact absurd hc (by decide)
    · rename_i hne
      exact hne hc
  have hcount := congrArg (List.count '.') htext
  rw [String.toList_append, String.toList_ofList, List.count_append, hnone, hending, hdots,
    List.count_append, List.count_append] at hcount
  have htwo : ['.', '.'].count '.' = 2 := by decide
  omega

variable {tree : Tree} {workingDirectory root : Path} {path : String} {content : Node}
  {names : List String} {spec : List Char}

theorem ne_up_of_mem_goPlaces (hcontent : content.IsWellFormed) (dirs : List String) :
    ∀ place ∈ goPlaces content dirs spec, ∀ name ∈ place, name ≠ ".." := by
  intro place hplace
  unfold goPlaces at hplace
  split at hplace
  · have hbase : ∀ name ∈ Path.collapse true []
        (dirs ++ (Path.ofString (String.ofList spec)).names), name ≠ ".." :=
      Path.not_up_of_mem_collapse fun _ hname => absurd hname List.not_mem_nil
    rcases List.mem_append.mp hplace with hplace | hplace
    · obtain ⟨last, -, rfl⟩ := Option.map_eq_some_iff.mp (Option.mem_toList.mp hplace)
      intro name hname
      rcases List.mem_append.mp hname with hname | hname
      · exact hbase name (List.dropLast_subset _ hname)
      · rw [List.mem_singleton.mp hname]
        exact ne_up_of_go last
    · have hplace := Option.mem_toList.mp hplace
      unfold goFileIn? at hplace
      split at hplace
      · rename_i entries hentries
        obtain ⟨first, hfirst, rfl⟩ := Option.map_eq_some_iff.mp hplace
        obtain ⟨⟨other, node⟩, hmem, rfl⟩ := List.mem_map.mp (firstGoFile?_mem hfirst)
        intro name hname
        rcases List.mem_append.mp hname with hname | hname
        · exact hbase name hname
        · rw [List.mem_singleton.mp hname]
          exact ((hcontent.below hentries).1.2.of_mem hmem).1.notUp
      · exact nomatch hplace
  · exact absurd hplace List.not_mem_nil

theorem ne_up_of_mem_places (hcontent : content.IsWellFormed) {project? : Option (List String)}
    (hproject : ∀ project ∈ project?, ∀ name ∈ project, name ≠ "..") {dirs : List String}
    (hdirs : ∀ name ∈ dirs, name ≠ "..") (language : Language) :
    ∀ place ∈ places content project? dirs spec language, ∀ name ∈ place, name ≠ ".." := by
  have hfolders : ∀ name ∈ ["src", "main", "java"], name ≠ ".." := by decide
  have happend : ∀ {front back : List String}, (∀ name ∈ front, name ≠ "..") →
      (∀ name ∈ back, name ≠ "..") → ∀ name ∈ front ++ back, name ≠ ".." :=
    fun hfront hback name hname => (List.mem_append.mp hname).elim (hfront name) (hback name)
  cases language with
  | go => exact ne_up_of_mem_goPlaces hcontent dirs
  | java =>
      cases project? with
      | none => exact fun _ hplace => absurd hplace List.not_mem_nil
      | some project =>
          have hnames : ∀ name ∈ (dottedPath spec ".java").names, name ≠ ".." :=
            ne_up_of_mem_dottedPath (by decide)
          have hfront := hproject project rfl
          intro place hplace
          simp only [places, Option.elim_some, List.mem_cons, List.not_mem_nil, or_false] at hplace
          rcases hplace with rfl | rfl | rfl
          · exact happend (happend hfront hfolders) hnames
          · refine happend (happend hfront fun name hname => hfolders name ?_) hnames
            rw [List.mem_singleton.mp hname]
            exact List.mem_cons_self
          · exact happend hdirs hnames
  | csharp =>
      cases project? with
      | none => exact fun _ hplace => absurd hplace List.not_mem_nil
      | some project =>
          have hnames : ∀ name ∈ (dottedPath spec ".cs").names, name ≠ ".." :=
            ne_up_of_mem_dottedPath (by decide)
          intro place hplace
          simp only [places, Option.elim_some, List.mem_cons, List.not_mem_nil, or_false] at hplace
          rcases hplace with rfl | rfl
          · exact happend (hproject project rfl) hnames
          · exact happend hdirs hnames

theorem ne_up_of_rootWithin? {dirs project : List String} (hdirs : ∀ name ∈ dirs, name ≠ "..")
    (h : Project.rootWithin? content dirs = some project) : ∀ name ∈ project, name ≠ ".." := by
  intro name hname
  have hmem := Path.mem_of_mem_dropLasts (List.mem_of_find?_eq_some h) name hname
  exact hdirs name (List.mem_reverse.mp hmem)

/-! ## Imports -/

theorem firstFile_fst (paths : List Path) :
    (firstFile tree workingDirectory spec paths).1
      = paths.find? fun p => isFile (tree.find? workingDirectory p) := by
  induction paths with
  | nil => rfl
  | cons p paths ih =>
      rw [firstFile, List.find?_cons, Tree.find?]
      cases tree.find workingDirectory p with
      | ok node => cases node <;> first | rfl | exact ih
      | error fault => cases fault <;> exact ih

/-- The first of the Go files in the directory at a path. -/
def goFileAt? (tree : Tree) (workingDirectory base : Path) : Option Path :=
  match tree.find? workingDirectory base with
  | some (.dir entries) => (firstGoFile? (entries.map Prod.fst)).map base.child
  | _ => none

theorem goCandidates_fst (source : Path) :
    (goCandidates tree workingDirectory source spec).1
      = (goTarget? source spec).elim [] fun base =>
          base.parent.child (base.name ++ ".go")
            :: (goFileAt? tree workingDirectory base).toList := by
  rw [goCandidates]
  cases goTarget? source spec with
  | none => rfl
  | some base =>
      dsimp only [Option.elim_some]
      rw [goFileAt?, Tree.find?]
      cases tree.find workingDirectory base with
      | ok node =>
          cases node with
          | file bytes modified => rfl
          | dir entries =>
              dsimp only [Except.toOption]
              cases firstGoFile? (entries.map Prod.fst) <;> rfl
      | error fault => cases fault <;> rfl

theorem isAbsolute_of_isRelative (h : isRelative spec = true) :
    (Path.ofString (String.ofList spec)).isAbsolute = false := by
  have hfront : ∃ rest, spec = '.' :: rest := by
    rw [isRelative, Bool.or_eq_true] at h
    rcases h with h | h <;>
      · obtain ⟨rest, rfl⟩ := List.isPrefixOf_iff_prefix.mp h
        exact ⟨_, rfl⟩
  obtain ⟨rest, rfl⟩ := hfront
  rw [Path.isAbsolute, Path.ofString, String.toList_ofList]
  rfl

/-- Looking at paths below a root is looking at places in the directory. -/
theorem find?_map_below (h : Placed tree workingDirectory path root content)
    {places : List (List String)} (hplaces : ∀ place ∈ places, ∀ name ∈ place, name ≠ "..") :
    ((places.map root.below).find? fun p => isFile (tree.find? workingDirectory p))
      = (places.find? fun names => isFile (Node.below? content names)).map root.below := by
  rw [List.find?_map]
  refine congrArg (Option.map root.below) (List.find?_congr fun place hplace => ?_)
  show isFile _ = _
  rw [h.find?_below (hplaces place hplace)]

theorem goTarget?_below (h : Placed tree workingDirectory path root content) {node : Node}
    (hnode : Node.below? content names = some node) (hne : names ≠ [])
    (hstays : staysBelow names.dropLast.length spec .go = true) :
    goTarget? (root.below names) spec
      = if isRelative spec then
          some (root.below (Path.collapse true []
            (names.dropLast ++ (Path.ofString (String.ofList spec)).names)))
        else none := by
  rw [goTarget?, ← isRelative]
  by_cases hrelative : isRelative spec = true
  · rw [staysBelow, hrelative, Bool.not_true, Bool.false_or] at hstays
    have hnames := (h.content_isWellFormed.below hnode).2
    have hbase := Path.normalized_below (isAbsolute_of_isRelative hrelative) h.isRoot.noUp
      (fun name hname => (hnames name (List.dropLast_subset _ hname)).notUp) hstays
    have hplain := ((h.isPlain_below hnode).parent.append
      (Path.isPlain_ofString (String.ofList spec))).normalized
    rw [Path.parent_below hne, hbase] at hplain
    rw [if_pos hrelative, if_pos hrelative, Path.parent_below hne, hbase]
    refine if_neg fun hempty => ?_
    exact hplain.name_ne_empty (List.append_ne_nil_of_left_ne_nil h.named _) (beq_iff_eq.mp hempty)
  · rw [if_neg hrelative, if_neg hrelative]

theorem goFileAt?_below (h : Placed tree workingDirectory path root content) {base : List String}
    (hbase : ∀ name ∈ base, name ≠ "..") :
    goFileAt? tree workingDirectory (root.below base)
      = (goFileIn? content base).map root.below := by
  rw [goFileAt?, goFileIn?, h.find?_below hbase]
  cases Node.below? content base with
  | none => rfl
  | some node =>
      cases node with
      | file bytes modified => rfl
      | dir entries =>
          dsimp only
          rw [Option.map_map]
          exact congrArg (Option.map · _) (funext fun name => Path.child_below)

/-- The file of a directory's name beside the directory. -/
theorem beside_below (root : Path) (front : List String) (last : String) :
    (root.below (front ++ [last])).parent.child
        ((root.below (front ++ [last])).name ++ ".go")
      = root.below (front ++ [last ++ ".go"]) := by
  have hne : front ++ [last] ≠ [] := List.append_ne_nil_of_right_ne_nil front (by simp)
  rw [Path.parent_below hne, List.dropLast_concat, Path.child_below, Path.name,
    Path.getLast?_below hne, List.getLast?_concat]
  rfl

theorem isFile_beside (h : Stands tree workingDirectory path root content) :
    isFile (tree.find? workingDirectory (root.parent.child (root.name ++ ".go"))) = false := by
  have halone := h.alone
  cases hfind : tree.find? workingDirectory (root.parent.child (root.name ++ ".go")) with
  | none => rfl
  | some node =>
      cases node with
      | dir entries => rfl
      | file bytes modified => exact absurd hfind (halone bytes modified)

/-- An import of Go is found below the root where it is found in the directory. The file of the
root's own name, beside the root, is not there. -/
theorem find?_goCandidates_below (h : Stands tree workingDirectory path root content) {node : Node}
    (hnode : Node.below? content names = some node) (hne : names ≠ [])
    (hstays : staysBelow names.dropLast.length spec .go = true) :
    ((goCandidates tree workingDirectory (root.below names) spec).1.find? fun p =>
        isFile (tree.find? workingDirectory p))
      = ((goPlaces content names.dropLast spec).find? fun names =>
          isFile (Node.below? content names)).map root.below := by
  rw [← find?_map_below h.toPlaced (ne_up_of_mem_goPlaces h.content_isWellFormed names.dropLast),
    goCandidates_fst, goTarget?_below h.toPlaced hnode hne hstays, goPlaces]
  by_cases hrelative : isRelative spec = true
  · rw [if_pos hrelative, if_pos hrelative]
    generalize hbase : Path.collapse true []
      (names.dropLast ++ (Path.ofString (String.ofList spec)).names) = base
    have hup : ∀ name ∈ base, name ≠ ".." := by
      rw [← hbase]
      exact Path.not_up_of_mem_collapse fun _ hname => absurd hname List.not_mem_nil
    rw [Option.elim_some, goFileAt?_below h.toPlaced hup, Option.toList_map]
    rcases List.eq_nil_or_concat' base with rfl | ⟨front, last, rfl⟩
    · rw [Path.below_nil, List.find?_cons, isFile_beside h]
      rfl
    · rw [beside_below]
      dsimp only
      rw [List.getLast?_concat, List.dropLast_concat]
      rfl
  · rw [if_neg hrelative, if_neg hrelative]
    rfl

/-- **Imports.** An import that stays below the root leads where it leads in the directory. -/
theorem resolveImport_below (h : Stands tree workingDirectory path root content) {node : Node}
    (hnode : Node.below? content names = some node) (hne : names ≠ []) {language : Language}
    (hstays : staysBelow names.dropLast.length spec language = true) :
    (resolveImport tree workingDirectory
        (Project.root? tree workingDirectory (root.below names)) language (root.below names) spec).1
      = (placeOf? content names.dropLast spec language).map root.below := by
  have hnames : ∀ name ∈ names, name ≠ ".." :=
    fun name hname => ((h.content_isWellFormed.below hnode).2 name hname).notUp
  have hdirs : ∀ name ∈ names.dropLast, name ≠ ".." :=
    fun name hname => hnames name (List.dropLast_subset _ hname)
  have hproject : ∀ project ∈ Project.rootWithin? content names.dropLast,
      ∀ name ∈ project, name ≠ ".." := fun project hproject => ne_up_of_rootWithin? hdirs hproject
  have hplaces := @ne_up_of_mem_places content spec h.content_isWellFormed _ hproject _ hdirs
    language
  rw [resolveImport, h.root?_below hne hnames]
  dsimp only
  rw [firstFile_fst, placeOf?]
  cases language with
  | go => exact find?_goCandidates_below h hnode hne hstays
  | java =>
      rw [← find?_map_below h.toPlaced hplaces]
      have hrelative : (dottedPath spec ".java").isAbsolute = false := by
        simpa [staysBelow] using hstays
      cases Project.rootWithin? content names.dropLast with
      | none => rfl
      | some project =>
          simp [candidates, javaCandidates, places, Path.child_below, Path.below_append hrelative,
            Path.parent_below hne]
  | csharp =>
      rw [← find?_map_below h.toPlaced hplaces]
      have hrelative : (dottedPath spec ".cs").isAbsolute = false := by
        simpa [staysBelow] using hstays
      cases Project.rootWithin? content names.dropLast with
      | none => rfl
      | some project =>
          simp [candidates, csharpCandidates, places, Path.below_append hrelative,
            Path.parent_below hne]

end Link

namespace Extractor

variable {tree : Tree} {workingDirectory root : Path} {path : String} {content : Node}
  {names : List String} {table : FileTable} {file : SourceFile}

/-! ## Scans -/

theorem edges_importScan (project? : Option Path) (language : Language) (file : String)
    (spec : List Char) :
    (importScan tree workingDirectory project? language file spec).edges
      = ((resolveImport tree workingDirectory project? language (Path.ofString file) spec).1.map
          fun target => ⟨file, target.toString, .imports, String.ofList spec⟩).toList := by
  rw [importScan]
  dsimp only
  cases (resolveImport tree workingDirectory project? language (Path.ofString file) spec).1 <;> rfl

/-- The edges of a file below a root, said by the directory. -/
def edgesBelow (content : Node) (root : Path) (table : FileTable) (names : List String)
    (file : String) (language : Language) (text : List Char) : Except Fault (List Edge) :=
  let masked := maskComments language.rawQuote text
  (symbolUses language masked).map fun uses =>
    ((importSpecs language masked).filterMap fun spec =>
        (placeOf? content names.dropLast spec language).map fun place =>
          ⟨file, (root.below place).toString, .imports, String.ofList spec⟩)
      ++ uses.filterMap ((ofTable table).symbolEdge? file)

theorem edges_scanAlone (h : Stands tree workingDirectory path root content)
    {bytes : ByteArray} {modified : Instant}
    (hfile : Node.below? content names = some (.file bytes modified))
    (hpath : file.path = (root.below names).toString)
    (hstays : ∀ text, decodeUtf8? bytes = some text →
      ∀ spec ∈ importSpecs file.language
          (maskComments file.language.rawQuote (normalizeNewlines text)),
        staysBelow names.dropLast.length spec file.language = true) :
    (scanAlone tree workingDirectory table file).map Scan.edges
      = match decodeUtf8? bytes with
        | none => .ok []
        | some text => edgesBelow content root table names file.path file.language
            (normalizeNewlines text) := by
  rw [scanAlone, hpath, h.ofString_below hfile, h.read_below hfile]
  cases hdecoded : decodeUtf8? bytes with
  | none => rfl
  | some text =>
      have himports : ∀ spec ∈ importSpecs file.language
          (maskComments file.language.rawQuote (normalizeNewlines text)),
          (importScan tree workingDirectory
            (Project.root? tree workingDirectory (root.below names)) file.language
            (root.below names).toString spec).edges
            = ((placeOf? content names.dropLast spec file.language).map fun place =>
                (⟨(root.below names).toString, (root.below place).toString, .imports,
                  String.ofList spec⟩ : Edge)).toList := by
        intro spec hspec
        rw [edges_importScan, h.ofString_below hfile,
          resolveImport_below h hfile (h.ne_nil hfile) (hstays text hdecoded spec hspec),
          Option.map_map]
        rfl
      dsimp only
      rw [edgesWith, edgesBelow]
      cases symbolUses file.language
          (maskComments file.language.rawQuote (normalizeNewlines text)) with
      | error fault => rfl
      | ok uses =>
          refine congrArg Except.ok ?_
          show (Scan.concat _).edges ++ uses.filterMap _ = _
          rw [Scan.edges_concat, List.map_map, ← List.flatMap_def]
          congr 1
          exact (List.flatMap_congr himports).trans (List.filterMap_eq_flatMap_toList _ _).symm

/-! ## Under another root -/

section Renamed

variable {f : String → String}

theorem SymbolIndex.find?_rename (f : String → String) (table : FileTable) (name : String) :
    (SymbolIndex.ofTable (table.map (SourceFile.rename f))).find? name
      = ((SymbolIndex.ofTable table).find? name).map f := by
  have htable : SymbolIndex.ofTable (table.map (SourceFile.rename f))
      = (SymbolIndex.ofTable table).map fun entry => (entry.1, f entry.2) := by
    rw [SymbolIndex.ofTable, SymbolIndex.ofTable, List.flatMap_map, List.map_flatMap]
    refine List.flatMap_congr fun file _ => ?_
    rw [List.map_map]
    rfl
  rw [SymbolIndex.find?, htable, lookup_map]
  rfl

theorem symbolEdge?_rename (f : String → String) (table : FileTable) (file : String)
    (use : SymbolUse) :
    (ofTable (table.map (SourceFile.rename f))).symbolEdge? (f file) use
      = ((ofTable table).symbolEdge? file use).map (Edge.rename f) := by
  rw [symbolEdge?, symbolEdge?, Option.map_map]
  show ((SymbolIndex.ofTable _).find? _).map _ = ((SymbolIndex.ofTable table).find? _).map _
  rw [SymbolIndex.find?_rename, Option.map_map]
  rfl

variable {old new : Path} {otherTree : Tree} {otherDirectory : Path} {otherPath : String}

theorem edgesBelow_rename
    (hf : ∀ names, f (old.below names).toString = (new.below names).toString)
    (content : Node) (table : FileTable) (names : List String) (file : String)
    (language : Language) (text : List Char) :
    edgesBelow content new (table.map (SourceFile.rename f)) names (f file) language text
      = (edgesBelow content old table names file language text).map
          (List.map (Edge.rename f)) := by
  rw [edgesBelow, edgesBelow]
  cases symbolUses language (maskComments language.rawQuote text) with
  | error fault => rfl
  | ok uses =>
      refine congrArg Except.ok ?_
      rw [List.map_append, List.map_filterMap, List.map_filterMap]
      refine congrArg₂ (· ++ ·) ?_ ?_
      · refine List.filterMap_congr fun spec _ => ?_
        rw [Option.map_map]
        refine congrArg (Option.map · _) (funext fun place => ?_)
        rw [← hf]
        rfl
      · exact List.filterMap_congr fun use _ => symbolEdge?_rename f table file use

/-- A file below a root whose imports stay there. -/
def Lies (content : Node) (root : Path) (file : SourceFile) : Prop :=
  ∃ names bytes modified, Node.below? content names = some (.file bytes modified)
    ∧ file.path = (root.below names).toString
    ∧ ∀ text, decodeUtf8? bytes = some text →
        ∀ spec ∈ importSpecs file.language
            (maskComments file.language.rawQuote (normalizeNewlines text)),
          staysBelow names.dropLast.length spec file.language = true

theorem edges_scanAlone_rename (h : Stands tree workingDirectory path old content)
    (h' : Stands otherTree otherDirectory otherPath new content)
    (hf : ∀ names, f (old.below names).toString = (new.below names).toString)
    (hfile : Lies content old file) :
    (scanAlone otherTree otherDirectory (table.map (SourceFile.rename f)) (file.rename f)).map
        Scan.edges
      = ((scanAlone tree workingDirectory table file).map Scan.edges).map
          (List.map (Edge.rename f)) := by
  obtain ⟨names, bytes, modified, hbelow, hpath, hstays⟩ := hfile
  have hpath' : (file.rename f).path = (new.below names).toString :=
    (congrArg f hpath).trans (hf names)
  rw [edges_scanAlone h hbelow hpath hstays, edges_scanAlone h' hbelow hpath' hstays]
  cases decodeUtf8? bytes with
  | none => rfl
  | some text => exact edgesBelow_rename hf content table names file.path file.language _

/-- The edges of a table, as far as they do not depend on the order of the scans. -/
theorem mapM_edges (hnodup : table.paths.Nodup) {workers : Nat} {found : Scan × Extractor}
    (h : (ofTable table).extractAll tree workingDirectory workers = .ok found) :
    (table.mapM fun file => (scanAlone tree workingDirectory table file).map Scan.edges).map
      List.flatten = .ok found.1.edges := by
  have hall := map_edges
    (extractAllBy_eq tree workingDirectory hnodup workers (ofTable table).turns)
  rw [← extractAll, h, ← mapM_map] at hall
  exact hall.symm

/-- **Edges move along.** Between the files of a table that lie below one root and between the same
files below another root the same edges are found. -/
theorem edges_extractAll_rename (h : Stands tree workingDirectory path old content)
    (h' : Stands otherTree otherDirectory otherPath new content)
    (hf : ∀ names, f (old.below names).toString = (new.below names).toString)
    (hnodup : table.paths.Nodup)
    (hnodup' : FileTable.paths (table.map (SourceFile.rename f)) |>.Nodup)
    (hfiles : ∀ file ∈ table, Lies content old file) {workers : Nat}
    {found found' : Scan × Extractor}
    (hfound : (ofTable table).extractAll tree workingDirectory workers = .ok found)
    (hfound' : (ofTable (table.map (SourceFile.rename f))).extractAll otherTree otherDirectory
      workers = .ok found') :
    found'.1.edges = found.1.edges.map (Edge.rename f) := by
  have hscans : ((table.map (SourceFile.rename f)).mapM fun file =>
        (scanAlone otherTree otherDirectory (table.map (SourceFile.rename f)) file).map Scan.edges)
      = (table.mapM fun file => (scanAlone tree workingDirectory table file).map Scan.edges).map
          (List.map (List.map (Edge.rename f))) := by
    rw [List.mapM_map]
    exact mapM_eq_map fun file hfile => edges_scanAlone_rename h h' hf (hfiles file hfile)
  have hnew := mapM_edges hnodup' hfound'
  obtain ⟨edges, hedges, heq⟩ := except_map_eq_ok (mapM_edges hnodup hfound)
  rw [hscans, hedges] at hnew
  rw [← heq, ← Except.ok.inj hnew, List.map_flatten]

/-- The edges of files below a root end below the root. -/
theorem ends_extractAll (h : Stands tree workingDirectory path old content)
    (hnodup : table.paths.Nodup) (hfiles : ∀ file ∈ table, Lies content old file) {workers : Nat}
    {found : Scan × Extractor}
    (hfound : (ofTable table).extractAll tree workingDirectory workers = .ok found) :
    ∀ e ∈ found.1.edges, e.source ∈ old.textsBelow ∧ e.target ∈ old.textsBelow := by
  have hpaths : ∀ path ∈ table.paths, path ∈ old.textsBelow := by
    intro path hpath
    obtain ⟨file, hfile, rfl⟩ := List.mem_map.mp hpath
    obtain ⟨names, -, -, -, hfile, -⟩ := hfiles file hfile
    exact ⟨names, hfile.symm⟩
  intro e he
  obtain ⟨edges, hedges, heq⟩ := except_map_eq_ok (mapM_edges hnodup hfound)
  rw [← heq] at he
  obtain ⟨some, hsome, he⟩ := List.mem_flatten.mp he
  obtain ⟨file, hfile, hscan⟩ := mem_of_mapM_eq_ok hedges hsome
  have hsource := hpaths _ (List.mem_map_of_mem hfile)
  obtain ⟨names, bytes, modified, hbelow, hpath, hstays⟩ := hfiles file hfile
  rw [edges_scanAlone h hbelow hpath hstays] at hscan
  split at hscan
  · obtain rfl := Except.ok.inj hscan
    exact absurd he List.not_mem_nil
  · obtain ⟨uses, -, rfl⟩ := except_map_eq_ok hscan
    rcases List.mem_append.mp he with he | he
    · obtain ⟨spec, -, he⟩ := List.mem_filterMap.mp he
      obtain ⟨place, -, rfl⟩ := Option.map_eq_some_iff.mp he
      exact ⟨hsource, place, rfl⟩
    · obtain ⟨use, -, he⟩ := List.mem_filterMap.mp he
      obtain ⟨target, htarget, rfl⟩ := Option.map_eq_some_iff.mp he
      exact ⟨hsource, hpaths target (find?_mem_paths htarget)⟩

end Renamed

end Extractor

end ServiceMap
