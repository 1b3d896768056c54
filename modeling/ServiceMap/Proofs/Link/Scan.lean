import ServiceMap.Link.Extractor
import ServiceMap.Proofs.Pattern.Places
import ServiceMap.Proofs.Source.Positions
import ServiceMap.Proofs.Tree.Path

/-!
# What a scan finds

The edges that start at a file depend on the tree, the table and the file, and not on the project
roots that an extractor has met before: as long as these are the roots that the tree has, every scan
of a file finds what the scan of this file alone finds. A scan of a file that can be read never
fails.
-/

namespace ServiceMap

open Source Link Pattern

/-! ## Scans in a row -/

namespace Scan

theorem append_assoc (a b c : Scan) : a ++ b ++ c = a ++ (b ++ c) := by
  show Scan.mk (a.edges ++ b.edges ++ c.edges) (a.notes ++ b.notes ++ c.notes) = _
  rw [List.append_assoc, List.append_assoc]
  rfl

theorem nil_append (a : Scan) : ({} : Scan) ++ a = a := rfl

theorem append_nil (a : Scan) : a ++ ({} : Scan) = a := by
  show Scan.mk _ _ = a
  rw [List.append_nil, List.append_nil]

/-- Several scans as one, in their order. -/
def concat (scans : List Scan) : Scan :=
  scans.foldl Scan.append {}

theorem foldl_append (scans : List Scan) :
    ∀ a : Scan, scans.foldl Scan.append a = a ++ concat scans := by
  induction scans with
  | nil =>
      intro a
      exact (append_nil a).symm
  | cons b scans ih =>
      intro a
      rw [concat, List.foldl_cons, List.foldl_cons, ih, ih]
      exact append_assoc a b (concat scans)

theorem concat_cons (a : Scan) (scans : List Scan) : concat (a :: scans) = a ++ concat scans :=
  foldl_append scans a

theorem edges_concat (scans : List Scan) :
    (concat scans).edges = (scans.map Scan.edges).flatten := by
  induction scans with
  | nil => rfl
  | cons a scans ih =>
      rw [concat_cons, List.map_cons, List.flatten_cons, ← ih]
      rfl

end Scan

/-! ## References to types are always found -/

/-- The head of a struct ends in the brace that opens its body. -/
theorem Link.embeddings_isOk {masked : List Char} {m : Match} (hm : m ∈ structHead.findAll masked) :
    ∃ uses, embeddings masked m = .ok uses := by
  obtain ⟨c, rest, htext, hc⟩ := last_of_mem_findAll hm
  obtain rfl := beq_iff_eq.mp hc
  obtain ⟨⟨body, stop⟩, hbody⟩ := neverFails_iff.mp (group_neverFails htext (by decide))
  exact ⟨_, by rw [embeddings, hbody]; rfl⟩

theorem Link.symbolUses_isOk (language : Language) (masked : List Char) :
    ∃ uses, symbolUses language masked = .ok uses := by
  cases language with
  | go =>
      have hall : ∀ m ∈ structHead.findAll masked, ∃ uses, embeddings masked m = .ok uses :=
        fun m hm => embeddings_isOk hm
      obtain ⟨uses, huses⟩ := mapM_isOk hall
      exact ⟨uses.flatten, by rw [symbolUses, huses]; rfl⟩
  | java => exact ⟨_, rfl⟩
  | csharp => exact ⟨_, rfl⟩

/-! ## Scans of a file -/

namespace Extractor

variable {tree : Tree} {workingDirectory : Path} {table : FileTable}

theorem importScan_root {language : Language} (h : needsProject language = false)
    (root root' : Option Path) (file : String) :
    importScan tree workingDirectory root language file
      = importScan tree workingDirectory root' language file := by
  cases language with
  | go => rfl
  | java => exact nomatch h
  | csharp => exact nomatch h

/-- The edges of a text depend on the declarations of the table and, if it needs one, on the root of
its project. -/
theorem edgesWith_congr (tree : Tree) (workingDirectory : Path) {x y : Extractor}
    (hsymbols : x.symbols = y.symbols) {root root' : Option Path} {text : List Char}
    {language : Language}
    (hroot : needsRoot text language = true → root = root') (file : String) :
    x.edgesWith tree workingDirectory root file text language
      = y.edgesWith tree workingDirectory root' file text language := by
  have huses : x.symbolEdge? file = y.symbolEdge? file := by
    funext use
    rw [symbolEdge?, symbolEdge?, hsymbols]
  have himports : (importSpecs language (maskComments language.rawQuote text)).map
        (importScan tree workingDirectory root language file)
      = (importSpecs language (maskComments language.rawQuote text)).map
        (importScan tree workingDirectory root' language file) := by
    rw [needsRoot, Bool.and_eq_true, Bool.not_eq_true', List.isEmpty_eq_false_iff] at hroot
    by_cases hproject : needsProject language = true
    · by_cases hspecs : importSpecs language (maskComments language.rawQuote text) = []
      · rw [hspecs, List.map_nil, List.map_nil]
      · rw [hroot ⟨hproject, hspecs⟩]
    · rw [importScan_root (Bool.eq_false_iff.mpr hproject) root root' file]
  rw [edgesWith, edgesWith, huses, himports]

/-- What the scan of a file finds for a table in a tree, with the project root that the tree has. -/
def scanAlone (tree : Tree) (workingDirectory : Path) (table : FileTable) (file : SourceFile) :
    Except Fault Scan :=
  match tree.read workingDirectory (Path.ofString file.path) with
  | .ok read =>
    (ofTable table).edgesWith tree workingDirectory
      (Project.root? tree workingDirectory (Path.ofString file.path)) file.path read.text
      file.language
  | .error .nulInPath => .error .nulInPath
  | .error _ => .ok ⟨[], [.skippingEdges file.path]⟩

theorem edgesWith_isOk (tree : Tree) (workingDirectory : Path) (x : Extractor)
    (root : Option Path) (file : String) (text : List Char) (language : Language) :
    ∃ scan, x.edgesWith tree workingDirectory root file text language = .ok scan := by
  obtain ⟨uses, huses⟩ := symbolUses_isOk language (maskComments language.rawQuote text)
  exact ⟨_, by rw [edgesWith, huses]; rfl⟩

/-- The one way in which a scan fails: the path of the file holds the NUL character. -/
theorem scanAlone_eq_error {file : SourceFile} {fault : Fault}
    (h : scanAlone tree workingDirectory table file = .error fault) : fault = .nulInPath := by
  unfold scanAlone at h
  split at h
  · rename_i read _
    obtain ⟨scan, hscan⟩ := edgesWith_isOk tree workingDirectory (ofTable table)
      (Project.root? tree workingDirectory (Path.ofString file.path)) file.path read.text
      file.language
    exact nomatch hscan.symm.trans h
  · exact (Except.error.inj h).symm
  · exact nomatch h

/-- A file whose path is a path is scanned, whatever stands there. -/
theorem scanAlone_isOk {file : SourceFile} (h : (Path.ofString file.path).hasNul = false) :
    ∃ scan, scanAlone tree workingDirectory table file = .ok scan := by
  unfold scanAlone
  split
  · exact edgesWith_isOk tree workingDirectory _ _ _ _ _
  · rename_i hread
    unfold Tree.read at hread
    rw [h] at hread
    split at hread
    · rename_i hfalse
      exact absurd hfalse Bool.false_ne_true
    · split at hread
      · exact nomatch hread
      · exact nomatch hread
      · exact nomatch hread
      · split at hread
        · exact nomatch hread
        · exact nomatch hread
  · exact ⟨_, rfl⟩

/-! ## Remembered roots -/

/-- An extractor for a table that remembers no other roots than those that the tree has. -/
structure IsFor (tree : Tree) (workingDirectory : Path) (table : FileTable) (x : Extractor) :
    Prop where
  symbols : x.symbols = SymbolIndex.ofTable table
  table : x.table = table
  roots : ∀ directory root, x.roots.lookup directory = some root →
    root = directory.upward.find? (Project.hasMarker tree workingDirectory)

theorem isFor_ofTable (table : FileTable) : (ofTable table).IsFor tree workingDirectory table where
  table := rfl
  symbols := rfl
  roots := fun _ _ h => nomatch h

/-- The root of a file's project may be added to what is remembered. -/
theorem IsFor.remember {x : Extractor} (h : x.IsFor tree workingDirectory table) (file : Path) :
    IsFor tree workingDirectory table
      { x with roots := (file.parent, Project.root? tree workingDirectory file) :: x.roots } where
  table := h.table
  symbols := h.symbols
  roots := by
    intro directory root hroot
    rw [List.lookup_cons] at hroot
    split at hroot
    · rename_i heq
      rw [beq_iff_eq.mp heq]
      exact (Option.some.inj hroot).symm
    · exact h.roots directory root hroot

theorem findRoot_of_hasNul {file : Path} (h : file.hasNul = false) :
    Project.findRoot tree workingDirectory file
      = .ok (Project.root? tree workingDirectory file) := by
  rw [Project.findRoot, Path.hasNul_parent h]
  rfl

theorem projectRoot_isFor {x : Extractor} (h : x.IsFor tree workingDirectory table) {file : Path}
    (hfile : file.hasNul = false) :
    ∃ y, x.projectRoot tree workingDirectory file
        = .ok (Project.root? tree workingDirectory file, y)
      ∧ y.IsFor tree workingDirectory table := by
  rw [projectRoot, findRoot_of_hasNul hfile]
  split
  · rename_i root hroot
    exact ⟨x, by rw [h.roots _ _ hroot]; rfl, h⟩
  · exact ⟨_, rfl, h.remember file⟩

theorem hasNul_of_read {path : Path} {read : ReadFile}
    (h : tree.read workingDirectory path = .ok read) : path.hasNul = false := by
  unfold Tree.read at h
  split at h
  · exact nomatch h
  · rename_i hnul
    exact Bool.eq_false_iff.mpr hnul

/-- A text is scanned with the root that the tree has, remembered or not. -/
theorem extract_isFor {x : Extractor} (h : x.IsFor tree workingDirectory table) {file : String}
    (hfile : (Path.ofString file).hasNul = false) (text : List Char) (language : Language) :
    ∃ scan y, x.extract tree workingDirectory file text language = .ok (scan, y)
      ∧ (ofTable table).edgesWith tree workingDirectory
          (Project.root? tree workingDirectory (Path.ofString file)) file text language = .ok scan
      ∧ y.IsFor tree workingDirectory table := by
  obtain ⟨scan, hscan⟩ := edgesWith_isOk tree workingDirectory (ofTable table)
    (Project.root? tree workingDirectory (Path.ofString file)) file text language
  by_cases hroot : needsRoot text language = true
  · obtain ⟨y, hy, hisFor⟩ := projectRoot_isFor h hfile
    have hedges := edgesWith_congr tree workingDirectory
      (x := y) (y := ofTable table) hisFor.symbols
      (fun _ => rfl : needsRoot text language = true →
        Project.root? tree workingDirectory (Path.ofString file) = _) file
    refine ⟨scan, y, ?_, hscan, hisFor⟩
    rw [extract, if_pos hroot, hy]
    show (do return (← y.edgesWith _ _ _ file text language, y)) = _
    rw [hedges, hscan]
    rfl
  · have hedges := edgesWith_congr tree workingDirectory
      (x := x) (y := ofTable table) h.symbols
      (fun hneeds => absurd hneeds hroot : needsRoot text language = true →
        none = Project.root? tree workingDirectory (Path.ofString file)) file
    refine ⟨scan, x, ?_, hscan, h⟩
    rw [extract, if_neg hroot]
    show (do return (← x.edgesWith _ _ _ file text language, x)) = _
    rw [hedges, hscan]
    rfl

/-- **One scan.** Whatever roots an extractor remembers, as long as the tree has them, the scan of a
file finds what the scan of this file alone finds, and the roots remembered after it are again those
of the tree. -/
theorem scanFile_isFor {x : Extractor} (h : x.IsFor tree workingDirectory table)
    (file : SourceFile) :
    (∃ scan y, x.scanFile tree workingDirectory file.path file.language = .ok (scan, y)
        ∧ scanAlone tree workingDirectory table file = .ok scan
        ∧ y.IsFor tree workingDirectory table)
      ∨ x.scanFile tree workingDirectory file.path file.language = .error .nulInPath
        ∧ scanAlone tree workingDirectory table file = .error .nulInPath := by
  rw [scanFile, scanAlone]
  cases hread : tree.read workingDirectory (Path.ofString file.path) with
  | ok read => exact Or.inl (extract_isFor h (hasNul_of_read hread) read.text file.language)
  | error fault =>
      cases fault with
      | nulInPath => exact Or.inr ⟨rfl, rfl⟩
      | missing | tooLong | directory | notUtf8 => exact Or.inl ⟨_, x, rfl, rfl, h⟩

/-- The scans of files one after another find what each finds alone. -/
theorem scanFiles_isFor (files : List SourceFile) :
    ∀ {x : Extractor}, x.IsFor tree workingDirectory table →
      (x.scanFiles tree workingDirectory files).map Prod.fst
        = (files.mapM (scanAlone tree workingDirectory table)).map Scan.concat := by
  induction files with
  | nil =>
      intro x _
      rfl
  | cons file files ih =>
      intro x h
      rw [scanFiles, List.mapM_cons]
      rcases scanFile_isFor h file with ⟨scan, y, hy, halone, hisFor⟩ | ⟨hx, halone⟩
      · rw [hy, halone]
        rcases except_map_eq_map (ih hisFor) with ⟨fault, hmore, hscans⟩
          | ⟨more, scans, hmore, hscans, heq⟩
        · show ((y.scanFiles tree workingDirectory files).bind fun more => _).map Prod.fst = _
          rw [hmore, hscans]
          rfl
        · show ((y.scanFiles tree workingDirectory files).bind fun more => _).map Prod.fst = _
          rw [hmore, hscans]
          show Except.ok (scan ++ more.1) = Except.ok (Scan.concat (scan :: scans))
          rw [Scan.concat_cons, heq]
      · rw [hx, halone]
        rfl

end Extractor

end ServiceMap
