import ServiceMap.Proofs.Analysis.Accounting
import ServiceMap.Proofs.Link.Placed
import ServiceMap.Proofs.Service.Moved
import ServiceMap.Tree.Listing

/-!
# The name of the root

An analysis of the same directory under two roots. What is found does not depend on what the roots
are called, up to the names of the files and one thing more: the category of a file that lies in the
root itself and whose own name shows none is told by the name of the root.
-/

namespace ServiceMap

open Text Source Link Discovery

/-! ## Reading -/

namespace Registry

variable {tree otherTree : Tree} {workingDirectory otherDirectory old new : Path}
  {path otherPath : String} {content : Node} {names : List String} {bytes : ByteArray}
  {modified : Instant}

theorem languageOf?_below (r : Registry) {root : Path} (hne : names ≠ []) :
    r.languageOf? (root.below names) = r.languageOf? ⟨0, names⟩ := by
  rw [languageOf?, languageOf?, Path.ending, Path.ending, Service.name_below_eq hne]

/-- What the file of a registry's language that is read below a root has become. -/
theorem readSource_below (r : Registry) (h : Placed tree workingDirectory path old content)
    (hfile : Node.below? content names = some (.file bytes modified)) :
    (r.readSource tree workingDirectory (old.below names)).map Prod.fst
      = match r.languageOf? ⟨0, names⟩ with
        | none => .ok none
        | some language =>
          match decodeUtf8? bytes with
          | none => .ok none
          | some text =>
            (SourceFile.read language (old.below names).toString (normalizeNewlines text)).map
              fun facts => some { facts with modified := some modified } := by
  rw [readSource, languageOf?_below r (h.ne_nil hfile)]
  cases r.languageOf? ⟨0, names⟩ with
  | none => rfl
  | some language =>
      dsimp only
      rw [h.read_below hfile]
      cases decodeUtf8? bytes with
      | none => rfl
      | some text =>
          dsimp only
          rw [except_map_bind]
          cases SourceFile.read language (old.below names).toString (normalizeNewlines text) <;> rfl

/-- The same file is read under both roots, or for the same reason not. -/
theorem readSource_moved (r : Registry) (h : Placed tree workingDirectory path old content)
    (h' : Placed otherTree otherDirectory otherPath new content)
    (hfile : Node.below? content names = some (.file bytes modified)) :
    (r.readSource otherTree otherDirectory (new.below names)).map Prod.fst
      = ((r.readSource tree workingDirectory (old.below names)).map Prod.fst).map
          (Option.map (SourceFile.rename (Path.moveText old new))) := by
  rw [readSource_below r h hfile, readSource_below r h' hfile]
  cases r.languageOf? ⟨0, names⟩ with
  | none => rfl
  | some language =>
      cases decodeUtf8? bytes with
      | none => rfl
      | some text =>
          dsimp only
          rw [← h.moveText_below h', SourceFile.read_rename]
          cases SourceFile.read language (old.below names).toString (normalizeNewlines text) <;> rfl

end Registry

namespace Analyzer

/-- What was read, under other names. -/
def Reading.rename (f : String → String) (reading : Reading) : Reading :=
  ⟨reading.files.map (SourceFile.rename f), reading.skipped.map f⟩

/-- Whether the imports of a file of a directory lead no further up than the directory. -/
def staysIn (r : Registry) (content : Node) (names : List String) : Bool :=
  match Node.below? content names, r.languageOf? ⟨0, names⟩ with
  | some (.file bytes _), some language =>
    (decodeUtf8? bytes).all fun text =>
      let masked := maskComments language.rawQuote (normalizeNewlines text)
      (importSpecs language masked).all fun spec =>
        staysBelow names.dropLast.length spec language
  | _, _ => true

/-- The imports of the source files of a directory lead no further up than the directory. -/
def ImportsStay (r : Registry) (content : Node) : Prop :=
  ∀ names ∈ walk (skips r.excluded) (hasEnding r.extensions) content,
    staysIn r content names = true

variable {a : Analyzer} {r : Registry} {tree otherTree : Tree}
  {workingDirectory otherDirectory old new : Path} {path otherPath : String} {content : Node}

theorem result_readFiles_cons (r : Registry) (tree : Tree) (workingDirectory path : Path)
    (rest : List Path) :
    (readFiles r tree workingDirectory (path :: rest)).result
      = ((r.readSource tree workingDirectory path).map Prod.fst).mapError .source >>= fun file? =>
          (readFiles r tree workingDirectory rest).result.map fun reading =>
            match file? with
            | some file => { reading with files := file :: reading.files }
            | none => { reading with skipped := path.toString :: reading.skipped } := by
  rw [readFiles, Reported.result_bind, Reported.result_ofExcept]
  cases r.readSource tree workingDirectory path with
  | error fault => rfl
  | ok read =>
      obtain ⟨file?, notes⟩ := read
      cases file? with
      | some file =>
          show (Reported.noteAll notes >>= fun _ => readFiles r tree workingDirectory rest >>= fun
            reading => Pure.pure { reading with files := file :: reading.files }).result = _
          simp only [Reported.result_bind]
          cases (readFiles r tree workingDirectory rest).result <;> rfl
      | none =>
          show (Reported.noteAll notes >>= fun _ => Reported.note (.withoutFacts path.toString) >>=
            fun _ => readFiles r tree workingDirectory rest >>= fun reading =>
              Pure.pure { reading with skipped := path.toString :: reading.skipped }).result = _
          simp only [Reported.result_bind]
          cases (readFiles r tree workingDirectory rest).result <;> rfl

/-- **Reading.** The files of a directory are read under both roots alike. -/
theorem readFiles_moved (r : Registry) (h : Placed tree workingDirectory path old content)
    (h' : Placed otherTree otherDirectory otherPath new content) {places : List (List String)}
    (hplaces : ∀ names ∈ places,
      ∃ bytes modified, Node.below? content names = some (.file bytes modified)) :
    (readFiles r otherTree otherDirectory (places.map new.below)).result
      = (readFiles r tree workingDirectory (places.map old.below)).result.map
          (Reading.rename (Path.moveText old new)) := by
  induction places with
  | nil => rfl
  | cons names places ih =>
      obtain ⟨⟨bytes, modified, hfile⟩, hplaces⟩ := List.forall_mem_cons.mp hplaces
      rw [List.map_cons, List.map_cons, result_readFiles_cons, result_readFiles_cons, ih hplaces,
        Registry.readSource_moved r h h' hfile]
      cases (r.readSource tree workingDirectory (old.below names)).map Prod.fst with
      | error fault => rfl
      | ok file? =>
          cases (readFiles r tree workingDirectory (places.map old.below)).result with
          | error failure => rfl
          | ok reading =>
              cases file? with
              | some file => rfl
              | none =>
                  rw [← h.moveText_below h' names]
                  rfl

theorem mem_files_of_readFiles {paths : List Path} :
    ∀ {reading : Reading}, (readFiles r tree workingDirectory paths).result = .ok reading →
      ∀ file ∈ reading.files, ∃ p ∈ paths,
        (r.readSource tree workingDirectory p).map Prod.fst = .ok (some file) := by
  induction paths with
  | nil =>
      intro reading h
      obtain rfl := Except.ok.inj h
      exact fun file hfile => absurd hfile List.not_mem_nil
  | cons p paths ih =>
      intro reading h
      rw [result_readFiles_cons] at h
      obtain ⟨file?, hread, h⟩ := except_bind_eq_ok h
      obtain ⟨rest, hrest, rfl⟩ := except_map_eq_ok h
      have hlater : ∀ file ∈ rest.files, ∃ q ∈ p :: paths,
          (r.readSource tree workingDirectory q).map Prod.fst = .ok (some file) := by
        intro file hfile
        obtain ⟨q, hq, hfound⟩ := ih hrest file hfile
        exact ⟨q, List.mem_cons_of_mem p hq, hfound⟩
      cases file? with
      | none => exact hlater
      | some first =>
          intro file hfile
          rcases List.mem_cons.mp hfile with rfl | hfile
          · exact ⟨p, List.mem_cons_self, Reported.ofExcept_eq_ok hread⟩
          · exact hlater file hfile

/-- The files that were read lie below the root, and their imports stay there. -/
theorem lies_of_readFiles (h : Placed tree workingDirectory path old content)
    (himports : ImportsStay r content) {reading : Reading}
    (hreading : (readFiles r tree workingDirectory (filesBelow tree workingDirectory old
      r.extensions r.excluded)).result = .ok reading) :
    ∀ file ∈ reading.files, Extractor.Lies content old file := by
  intro file hfile
  obtain ⟨p, hp, hread⟩ := mem_files_of_readFiles hreading file hfile
  rw [h.filesBelow_eq] at hp
  obtain ⟨names, hnames, rfl⟩ := List.mem_map.mp hp
  obtain ⟨⟨bytes, modified, hbelow⟩, -⟩ := below?_of_mem_walk h.content_isWellFormed hnames
  rw [Registry.readSource_below r h hbelow] at hread
  split at hread
  · exact nomatch hread
  · rename_i language hlanguage
    split at hread
    · exact nomatch hread
    · rename_i text htext
      obtain ⟨facts, hfacts, heq⟩ := except_map_eq_ok hread
      obtain rfl := Option.some.inj heq
      have hpath : facts.path = (old.below names).toString := SourceFile.path_read hfacts
      have hsame : facts.language = language := SourceFile.language_read hfacts
      refine ⟨names, bytes, modified, hbelow, hpath, ?_⟩
      have hstays := himports names hnames
      rw [staysIn, hbelow, hlanguage] at hstays
      intro decoded hdecoded spec hspec
      rw [hsame] at hspec ⊢
      dsimp only at hstays
      rw [hdecoded] at hstays
      exact List.all_eq_true.mp hstays spec hspec

/-! ## The whole analysis -/

theorem result_bind_of_ok {α β : Type} {x : Reported α} {f : α → Reported β} {a : α}
    (h : x.result = .ok a) : (x >>= f).result = (f a).result := by
  rw [Reported.result_bind, h]
  rfl

/-- An analysis fails as the reading of the files does. -/
theorem analyzeDirectory_eq_error (h : resolveRoot tree workingDirectory path = .ok old)
    {failure : Failure}
    (hreading : (readFiles a.registry tree workingDirectory (filesBelow tree workingDirectory old
      a.registry.extensions a.registry.excluded)).result = .error failure) :
    (a.analyzeDirectory tree workingDirectory path).result = .error failure := by
  refine (result_bind_of_ok (Reported.ofExcept_of_ok h)).trans ?_
  refine (result_bind_of_ok rfl).trans ((result_bind_of_ok rfl).trans ?_)
  rw [Reported.result_bind, hreading]
  rfl

end Analyzer

/-- The result of an analysis below one root and that of the same analysis below another. -/
structure AnalysisResult.Moved (old new : Path) (r r' : AnalysisResult) : Prop where
  root : r.root = old.toString ∧ r'.root = new.toString
  contexts : List.Forall₂ (ServiceContext.Moved old new) r.contexts r'.contexts
  edges : r'.edges = r.edges.map (Edge.rename (Path.moveText old new))
  skipped : r'.skippedFiles = r.skippedFiles.map (Path.moveText old new)
  /-- If the two roots decide alike, or on no file, only names have changed. -/
  same : (∀ c ∈ r.contexts, ∀ file ∈ c.memberFiles,
      Service.Category.isLeftToRoot old file = true →
        Service.Category.ofRoot old = Service.Category.ofRoot new) →
    r' = r.rename (Path.moveText old new)

theorem AnalysisResult.eq_rename {f : String → String} {r r' : AnalysisResult}
    (hroot : r'.root = f r.root)
    (hcontexts : r'.contexts = r.contexts.map (ServiceContext.rename f))
    (hedges : r'.edges = r.edges.map (Edge.rename f))
    (hreferences : r'.crossReferences = r.crossReferences)
    (hskipped : r'.skippedFiles = r.skippedFiles.map f) : r' = r.rename f := by
  cases r
  cases r'
  simp_all [rename]

namespace Analyzer

variable {a : Analyzer} {r : Registry} {tree otherTree : Tree}
  {workingDirectory otherDirectory old new : Path} {path otherPath : String} {content : Node}

theorem eq_map_of_forall₂ {α β : Type} {rel : α → β → Prop} {g : α → β} {xs : List α} {ys : List β}
    (h : List.Forall₂ rel xs ys) (hg : ∀ x ∈ xs, ∀ y, rel x y → y = g x) : ys = xs.map g := by
  induction h with
  | nil => rfl
  | cons hxy _ ih =>
      rw [List.map_cons, hg _ List.mem_cons_self _ hxy,
        ih fun x hx => hg x (List.mem_cons_of_mem _ hx)]

/-- A result put together from the same files and edges below another root. -/
theorem resultOf_moved (h : Placed tree workingDirectory path old content)
    (h' : Placed otherTree otherDirectory otherPath new content) {reading : Reading}
    {paths paths' : List Path} {edges : List Edge} (hdivides : Divides paths reading)
    (hdivides' : Divides paths' (reading.rename (Path.moveText old new)))
    (hfiles : ∀ file ∈ reading.files, file.path ∈ fileTexts content old)
    (hedges : ∀ e ∈ edges, e.source ∈ old.textsBelow ∧ e.target ∈ old.textsBelow) :
    AnalysisResult.Moved old new (resultOf workingDirectory old reading edges)
      (resultOf otherDirectory new (reading.rename (Path.moveText old new))
        (edges.map (Edge.rename (Path.moveText old new)))) := by
  have htable : ∀ path ∈ FileTable.paths reading.files, path ∈ fileTexts content old := by
    intro path hpath
    obtain ⟨file, hfile, rfl⟩ := List.mem_map.mp hpath
    exact hfiles file hfile
  have hcontexts : List.Forall₂ (ServiceContext.Moved old new)
      (resultOf workingDirectory old reading edges).contexts
      (resultOf otherDirectory new (reading.rename (Path.moveText old new))
        (edges.map (Edge.rename (Path.moveText old new)))).contexts := by
    rw [contexts_resultOf hdivides, contexts_resultOf hdivides', hdivides.ofList_eq,
      hdivides'.ofList_eq]
    have hpaths : (reading.rename (Path.moveText old new)).files.map SourceFile.path
        = (reading.files.map SourceFile.path).map (Path.moveText old new) :=
      Service.paths_map_rename _ reading.files
    have hservices : ∀ file ∈ reading.files.map SourceFile.path,
        Service.nameOf otherDirectory (some new) (Path.moveText old new file)
          = Service.nameOf workingDirectory (some old) file :=
      fun file hfile => Service.nameOf_moved h h' (htable file hfile)
    rw [hpaths, Service.groups_map hservices, List.map_map, List.forall₂_map_left_iff,
      List.forall₂_map_right_iff, List.forall₂_same]
    intro group hgroup
    exact Service.buildContextBy_moved h h' group.1 htable
      (Service.mem_paths_of_mem_groups hgroup) hedges
  constructor
  case root => exact ⟨rfl, rfl⟩
  case contexts => exact hcontexts
  case edges => rfl
  case skipped => rfl
  case same =>
      intro hsame
      have hrenamed := eq_map_of_forall₂ hcontexts fun c hc c' hmoved => hmoved.same (hsame c hc)
      have hroot : Path.moveText old new old.toString = new.toString := by
        have hmoved := h.moveText_below h' []
        rwa [Path.below_nil, Path.below_nil] at hmoved
      exact AnalysisResult.eq_rename hroot.symm hrenamed rfl rfl rfl

/-- **The name of the root.** A directory whose imports stay in it is analyzed under two roots, with
no project marker above either and no Go file of its name beside it. Either both analyses fail, for
the same reason, or both have results, and these are the same after the text of the one root is
replaced by that of the other: the same services with the same files, the same edges and the same
skipped files. All buckets and facts are the same, too, but for files that lie in the root itself
and whose own names show no category: they are in the bucket that the name of the root shows. -/
theorem analysis_moves_with_its_root (a : Analyzer)
    (h : Stands tree workingDirectory path old content)
    (h' : Stands otherTree otherDirectory otherPath new content)
    (himports : ImportsStay a.registry content) :
    (∃ failure, (a.analyzeDirectory tree workingDirectory path).result = .error failure
        ∧ (a.analyzeDirectory otherTree otherDirectory otherPath).result = .error failure)
      ∨ ∃ r r', (a.analyzeDirectory tree workingDirectory path).result = .ok r
        ∧ (a.analyzeDirectory otherTree otherDirectory otherPath).result = .ok r'
        ∧ AnalysisResult.Moved old new r r' := by
  have hplaces : ∀ names ∈ walk (skips a.registry.excluded) (hasEnding a.registry.extensions)
      content,
      ∃ bytes modified, Node.below? content names = some (.file bytes modified) :=
    fun names hnames => (below?_of_mem_walk h.content_isWellFormed hnames).1
  have hmoved := readFiles_moved a.registry h.toPlaced h'.toPlaced hplaces
  rw [← h.filesBelow_eq, ← h'.filesBelow_eq] at hmoved
  cases hreading : (readFiles a.registry tree workingDirectory (filesBelow tree workingDirectory
      old a.registry.extensions a.registry.excluded)).result with
  | error failure =>
      rw [hreading] at hmoved
      exact Or.inl ⟨failure, analyzeDirectory_eq_error h.resolved hreading,
        analyzeDirectory_eq_error h'.resolved hmoved⟩
  | ok reading =>
      rw [hreading] at hmoved
      have hreading' : (readFiles a.registry otherTree otherDirectory (filesBelow otherTree
          otherDirectory new a.registry.extensions a.registry.excluded)).result
          = .ok (reading.rename (Path.moveText old new)) := hmoved
      have hdivides := divides_of_readFiles h.isWellFormed h.isRoot hreading
      have hdivides' := divides_of_readFiles h'.isWellFormed h'.isRoot hreading'
      have hlies := lies_of_readFiles h.toPlaced himports hreading
      obtain ⟨found, hfound⟩ := edges_are_found h.isWellFormed h.isRoot hdivides a.workers
      obtain ⟨found', hfound'⟩ := edges_are_found h'.isWellFormed h'.isRoot hdivides' a.workers
      right
      refine ⟨_, _, analyzeDirectory_eq_ok_iff.mpr ⟨old, reading, found, h.resolved, hreading,
        hfound, rfl⟩, analyzeDirectory_eq_ok_iff.mpr ⟨new, _, found', h'.resolved, hreading',
        hfound', rfl⟩, ?_⟩
      rw [hdivides.ofList_eq] at hfound
      rw [hdivides'.ofList_eq] at hfound'
      have hedges := Extractor.edges_extractAll_rename h h' (h.moveText_below h'.toPlaced)
        hdivides.nodup hdivides'.nodup hlies hfound hfound'
      have hends := Extractor.ends_extractAll h hdivides.nodup hlies hfound
      rw [hedges]
      refine resultOf_moved h.toPlaced h'.toPlaced hdivides hdivides' (fun file hfile => ?_) hends
      obtain ⟨names, bytes, modified, hbelow, hpath, -⟩ := hlies file hfile
      exact ⟨names, bytes, modified, hbelow, hpath.symm⟩

/-! ## Two names -/

/-- A directory with a file that shows no category by its name, and with an import of the directory
itself. -/
def nameless : Node :=
  .dir [
    ("sub", .dir [("x.go", .file "package sub\n\nimport \"../\"\n".toUTF8 ⟨0⟩)]),
    ("user.go", .file "package user\n\ntype User struct \x7b\n\x7d\n".toUTF8 ⟨0⟩)]

/-- This directory under three names, with a Go file of one of the names. -/
def underNames : Tree :=
  .dir [("w", .dir [
    ("app", nameless),
    ("dto", nameless),
    ("models", nameless),
    ("models.go", .file "package beside\n".toUTF8 ⟨0⟩)])]

theorem mem_of_below?_nameless {names : List String} {node : Node}
    (h : Node.below? nameless names = some node) :
    names ∈ [[], ["sub"], ["sub", "x.go"], ["user.go"]] := by
  have hleaf : ∀ {bytes : ByteArray} {modified : Instant} {rest : List String} {node : Node},
      Node.below? (.file bytes modified) rest = some node → rest = [] := by
    intro bytes modified rest node h
    cases rest with
    | nil => rfl
    | cons name rest => exact nomatch h
  cases names with
  | nil => exact List.mem_cons_self
  | cons name rest =>
      obtain ⟨next, hnext, h⟩ := Option.bind_eq_some_iff.mp h
      have hmem := mem_of_lookup hnext
      simp only [List.mem_cons, List.not_mem_nil, or_false, Prod.mk.injEq] at hmem
      rcases hmem with ⟨rfl, rfl⟩ | ⟨rfl, rfl⟩
      · cases rest with
        | nil => decide
        | cons name rest =>
            obtain ⟨next, hnext, h⟩ := Option.bind_eq_some_iff.mp h
            obtain ⟨rfl, rfl⟩ := Prod.mk.inj (List.mem_singleton.mp (mem_of_lookup hnext))
            rw [hleaf h]
            decide
      · rw [hleaf h]
        decide

theorem walk_nameless :
    walk (skips []) (hasEnding ({} : Registry).extensions) nameless
      = [["user.go"], ["sub", "x.go"]] := by
  have huser : hasEnding [".cs", ".go", ".java"] "user.go" = true := by decide +kernel
  have hx : hasEnding [".cs", ".go", ".java"] "x.go" = true := by decide +kernel
  have hsub : skips [] "sub" = false := by decide +kernel
  simp [Registry.extensions_default, nameless, walk, walkEntries, fileNames, huser, hx, hsub,
    sortNames, sortByName, List.mergeSort, List.MergeSort.Internal.splitInTwo]

theorem importsStay_nameless : ImportsStay {} nameless := by
  intro names hnames
  rw [walk_nameless] at hnames
  revert names
  decide +kernel

theorem placed_underNames {name : String} (hname : name ∈ ["app", "dto", "models"]) :
    Placed underNames ⟨1, ["w"]⟩ name ⟨1, ["w", name]⟩ nameless := by
  simp only [List.mem_cons, List.not_mem_nil, or_false] at hname
  rcases hname with rfl | rfl | rfl
  all_goals
    constructor
    case isWellFormed => decide +kernel
    case resolved => rfl
    case holds => rfl
    case named => decide
    case unmarked => decide +kernel
    case short =>
        intro names node h
        have hnames := mem_of_below?_nameless h
        clear h
        revert names
        decide +kernel

theorem filesBelow_underNames {name : String} (hname : name ∈ ["app", "dto", "models"]) :
    filesBelow underNames ⟨1, ["w"]⟩ ⟨1, ["w", name]⟩ ({} : Registry).extensions []
      = [⟨1, ["w", name, "user.go"]⟩, ⟨1, ["w", name, "sub", "x.go"]⟩] := by
  rw [(placed_underNames hname).filesBelow_eq, walk_nameless]
  rfl

/-- The edges and the data models of each context that the analysis under a name finds. -/
def seenUnder (name : String) : Option (List Edge × List (List String)) :=
  match (readFiles {} underNames ⟨1, ["w"]⟩
      [⟨1, ["w", name, "user.go"]⟩, ⟨1, ["w", name, "sub", "x.go"]⟩]).result with
  | .error _ => none
  | .ok reading =>
    match (Extractor.ofTable (FileTable.ofList reading.files)).extractAll underNames ⟨1, ["w"]⟩ 1
    with
    | .error _ => none
    | .ok found => some (found.1.edges,
        (resultOf ⟨1, ["w"]⟩ ⟨1, ["w", name]⟩ reading found.1.edges).contexts.map fun c =>
          c.dataModels.map TypeDecl.name)

theorem analyze_underNames {name : String} (hname : name ∈ ["app", "dto", "models"])
    {edges : List Edge} {models : List (List String)} (h : seenUnder name = some (edges, models)) :
    ∃ r, (({} : Analyzer).analyzeDirectory underNames ⟨1, ["w"]⟩ name).result = .ok r
      ∧ r.edges = edges ∧ r.contexts.map (fun c => c.dataModels.map TypeDecl.name) = models := by
  unfold seenUnder at h
  rw [← filesBelow_underNames hname] at h
  split at h
  · exact nomatch h
  · rename_i reading hreading
    split at h
    · exact nomatch h
    · rename_i found hfound
      obtain ⟨hedges, hmodels⟩ := Prod.mk.inj (Option.some.inj h)
      exact ⟨_, analyzeDirectory_eq_ok_iff.mpr ⟨_, reading, found,
        (placed_underNames hname).resolved, hreading, hfound, rfl⟩, hedges, hmodels⟩

/-- Under one of the names a file is a model, and the directory itself is taken for the file beside
it; under another it is not. -/
theorem root_name_decides :
    Placed underNames ⟨1, ["w"]⟩ "models" ⟨1, ["w", "models"]⟩ nameless
      ∧ Placed underNames ⟨1, ["w"]⟩ "app" ⟨1, ["w", "app"]⟩ nameless
      ∧ ImportsStay {} nameless
      ∧ (∀ word ∈ ["models", "app"], ∀ file ∈ Listing.files [] nameless, word ∉ file.1
        ∧ (decodeUtf8? file.2).any (isWithin word.toList) = false)
      ∧ ∃ r r', (({} : Analyzer).analyzeDirectory underNames ⟨1, ["w"]⟩ "models").result = .ok r
        ∧ (({} : Analyzer).analyzeDirectory underNames ⟨1, ["w"]⟩ "app").result = .ok r'
        ∧ r.contexts.map (fun c => c.dataModels.map TypeDecl.name) = [["User"], []]
        ∧ r'.contexts.map (fun c => c.dataModels.map TypeDecl.name) = [[], []]
        ∧ r.edges = [⟨"/w/models/sub/x.go", "/w/models.go", .imports, "../"⟩]
        ∧ r'.edges = [⟨"/w/app/sub/x.go", "/w/app/user.go", .imports, "../"⟩]
        ∧ r' ≠ r.rename (Path.moveText ⟨1, ["w", "models"]⟩ ⟨1, ["w", "app"]⟩) := by
  have hmodels : seenUnder "models" = some
      ([⟨"/w/models/sub/x.go", "/w/models.go", .imports, "../"⟩], [["User"], []]) := by
    decide +kernel
  have happ : seenUnder "app" = some
      ([⟨"/w/app/sub/x.go", "/w/app/user.go", .imports, "../"⟩], [[], []]) := by
    decide +kernel
  obtain ⟨r, hr, hedges, hdata⟩ := analyze_underNames (by decide) hmodels
  obtain ⟨r', hr', hedges', hdata'⟩ := analyze_underNames (by decide) happ
  refine ⟨placed_underNames (by decide), placed_underNames (by decide), importsStay_nameless,
    by decide +kernel, r, r', hr, hr', hdata, hdata', hedges, hedges', ?_⟩
  rintro rfl
  have hsame : (r.rename (Path.moveText ⟨1, ["w", "models"]⟩ ⟨1, ["w", "app"]⟩)).contexts.map
        (fun c => c.dataModels.map TypeDecl.name)
      = r.contexts.map fun c => c.dataModels.map TypeDecl.name := by
    rw [AnalysisResult.rename, List.map_map]
    rfl
  rw [hsame, hdata] at hdata'
  exact absurd hdata' (by decide)

/-- Without a file of its name beside it the directory is found again under another name. -/
theorem nameless_under_two_names :
    Stands underNames ⟨1, ["w"]⟩ "app" ⟨1, ["w", "app"]⟩ nameless
      ∧ Stands underNames ⟨1, ["w"]⟩ "dto" ⟨1, ["w", "dto"]⟩ nameless
      ∧ ImportsStay {} nameless
      ∧ ∃ r r', (({} : Analyzer).analyzeDirectory underNames ⟨1, ["w"]⟩ "app").result = .ok r
        ∧ (({} : Analyzer).analyzeDirectory underNames ⟨1, ["w"]⟩ "dto").result = .ok r'
        ∧ AnalysisResult.Moved ⟨1, ["w", "app"]⟩ ⟨1, ["w", "dto"]⟩ r r'
        ∧ r'.edges = [⟨"/w/dto/sub/x.go", "/w/dto/user.go", .imports, "../"⟩] := by
  have hstands : ∀ name ∈ ["app", "dto"],
      Stands underNames ⟨1, ["w"]⟩ name ⟨1, ["w", name]⟩ nameless := by
    intro name hname
    have hnone : ∀ name ∈ ["app", "dto"], (underNames.find? ⟨1, ["w"]⟩
        ((Path.mk 1 ["w", name]).parent.child ((Path.mk 1 ["w", name]).name ++ ".go"))).isNone
          = true := by decide +kernel
    refine ⟨placed_underNames (List.dropLast_subset ["app", "dto", "models"] hname),
      fun bytes modified hfile => ?_⟩
    have hmissing := hnone name hname
    rw [hfile] at hmissing
    exact nomatch hmissing
  have happ : seenUnder "app" = some
      ([⟨"/w/app/sub/x.go", "/w/app/user.go", .imports, "../"⟩], [[], []]) := by
    decide +kernel
  obtain ⟨r, hr, hedges, -⟩ := analyze_underNames (by decide) happ
  refine ⟨hstands _ (by decide), hstands _ (by decide), importsStay_nameless, ?_⟩
  rcases analysis_moves_with_its_root {} (hstands "app" (by decide)) (hstands "dto" (by decide))
    importsStay_nameless with ⟨failure, hfailed, -⟩ | ⟨s, r', hs, hr', hmoved⟩
  · exact nomatch hr.symm.trans hfailed
  · obtain rfl := Except.ok.inj (hr.symm.trans hs)
    refine ⟨r, r', hr, hr', hmoved, ?_⟩
    rw [hmoved.edges, hedges]
    decide +kernel

end Analyzer

end ServiceMap
