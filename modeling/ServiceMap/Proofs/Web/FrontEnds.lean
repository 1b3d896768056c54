import ServiceMap.CommandLine.Run
import ServiceMap.Proofs.Analysis.Accounting
import ServiceMap.Proofs.CommandLine.Arguments
import ServiceMap.Proofs.Json.Members
import ServiceMap.Proofs.Json.Reading
import ServiceMap.Web.Api

/-!
# The two front ends

A command and a request find the root and load its settings alike. Then the command analyzes the
directories that the settings name, one after another, and the request the root alone. Where the
settings name the root and nothing else, both answer with the same graph and the same contexts, and
fail for the same causes.
-/

namespace ServiceMap

/-! ## Settings -/

namespace Settings

variable {tree : Tree} {workingDirectory root : Path} {s : Settings}

theorem root_ofMapping {value : Value} (h : ofMapping root value = .ok s) : s.root = root := by
  obtain ⟨_, -, h⟩ := except_bind_eq_ok h
  obtain ⟨_, -, h⟩ := except_bind_eq_ok h
  obtain ⟨_, -, h⟩ := except_bind_eq_ok h
  obtain ⟨_, -, h⟩ := except_bind_eq_ok h
  obtain ⟨_, -, h⟩ := except_bind_eq_ok h
  obtain ⟨_, -, h⟩ := except_bind_eq_ok h
  obtain ⟨_, -, h⟩ := except_bind_eq_ok h
  exact Except.ok.inj h ▸ rfl

theorem root_ofValue {value : Value} (h : ofValue root value = .ok s) : s.root = root := by
  unfold ofValue at h
  split at h
  · exact Except.ok.inj h ▸ rfl
  · split at h
    · exact root_ofMapping h
    · exact nomatch h

/-- The settings of a directory have this directory as their root. -/
theorem root_load (hroot : Discovery.IsRoot tree workingDirectory root)
    (h : load tree workingDirectory root = .ok s) : s.root = root := by
  obtain ⟨entries, hfind⟩ := hroot.directory
  have hup : ∀ name ∈ (root.child fileName).names, name ≠ ".." := by
    intro name hname
    rcases List.mem_append.mp hname with hname | hname
    · exact hroot.noUp name hname
    · rw [List.mem_singleton.mp hname]
      decide
  have hfile : (root.child fileName).resolve workingDirectory = root.child fileName :=
    Path.resolve_of_not_up (p := root.child fileName) hroot.slashes hup workingDirectory
  have hparent : (root.child fileName).parent = root := by simp [Path.child, Path.parent]
  have hlocate : locate tree workingDirectory root = .ok (root.child fileName) := by
    rw [locate, hfind]
  obtain ⟨place, hplace, h⟩ := except_bind_eq_ok h
  obtain rfl := Except.ok.inj (hlocate.symm.trans hplace)
  dsimp only at h
  rw [hfile, hparent] at h
  split at h
  · exact nomatch h
  · split at h
    · exact Except.ok.inj h ▸ rfl
    · exact nomatch h
    · exact nomatch h
    · exact nomatch h
    · exact nomatch h
    · obtain ⟨value, -, h⟩ := except_bind_eq_ok h
      exact root_ofValue h

end Settings

/-! ## What is analyzed -/

variable {tree : Tree} {workingDirectory : Path} {path : String}

theorem Analyzer.result_analyzeEach (a : Analyzer) (paths : List String) :
    (a.analyzeEach tree workingDirectory paths).result
      = paths.mapM fun path => (a.analyzeDirectory tree workingDirectory path).result := by
  induction paths with
  | nil => rfl
  | cons path paths ih =>
      rw [analyzeEach, Reported.result_bind, List.mapM_cons]
      congr
      funext result
      rw [Reported.result_bind, ih]
      congr

/-- The results for each of the directories that settings name. -/
def Settings.results (s : Settings) (tree : Tree) (workingDirectory : Path)
    (workers? : Option Nat) : Except Failure (List AnalysisResult) :=
  s.analysisRoots.mapM fun root =>
    ((Analyzer.ofSettings s workers?).analyzeDirectory tree workingDirectory root.toString).result

/-- A command analyzes the directories that the settings name. -/
theorem CommandLine.result_analyzePath (workers? : Option Nat) :
    (analyzePath tree workingDirectory path workers?).result
      = (loadSettings tree workingDirectory path).result >>= fun s =>
          (s.results tree workingDirectory workers?).map fun results => (s, results) := by
  rw [analyzePath, Reported.result_bind]
  congr
  funext s
  rw [Reported.result_bind, Settings.results]
  have hdirectories : ((Analyzer.ofSettings s workers?).analyzeDirectories tree workingDirectory
      none).result = s.analysisRoots.mapM fun root =>
        ((Analyzer.ofSettings s workers?).analyzeDirectory tree workingDirectory
          root.toString).result := by
    show ((Analyzer.ofSettings s workers?).analyzeEach tree workingDirectory
      (s.analysisRoots.map Path.toString)).result = _
    rw [Analyzer.result_analyzeEach, List.mapM_map]
    rfl
  rw [hdirectories]
  generalize (s.analysisRoots.mapM fun root =>
    ((Analyzer.ofSettings s workers?).analyzeDirectory tree workingDirectory
      root.toString).result) = found
  cases found <;> rfl

/-- A request analyzes the root of the settings alone. -/
theorem Web.result_analyzePath :
    (analyzePath tree workingDirectory path).result
      = (CommandLine.loadSettings tree workingDirectory path).result >>= fun s =>
          ((Analyzer.ofSettings s none).analyzeDirectory tree workingDirectory
            s.root.toString).result := by
  rw [analyzePath, CommandLine.loadSettings, Reported.result_bind, Reported.result_bind,
    Reported.result_ofExcept]
  cases hroot : Discovery.resolveRoot tree workingDirectory path with
  | error fault => simp only [Except.mapError, except_error_bind]
  | ok root =>
      simp only [Except.mapError, except_ok_bind, Reported.result_bind, Reported.result_ofExcept]
      cases hload : Settings.load tree workingDirectory root with
      | error fault => simp only [except_error_bind]
      | ok s =>
          have hsame := Settings.root_load (Discovery.isRoot_of_resolveRoot hroot) hload
          simp only [except_ok_bind, hsame]

/-! ## What is answered -/

namespace Web

/-- The request for the dependency graph of a service. -/
def graphRequest (path service : String) : Request where
  method := "POST"
  target := "/graph"
  body := some (.obj [("path", .str path), ("service", .str service)])

/-- The request for the contexts below a directory. -/
def analyzeRequest (path : String) : Request where
  method := "POST"
  target := "/analyze"
  body := some (.obj [("path", .str path)])

/-- The document that a request is answered with, unless it is turned down. -/
def document? (answer : Except Breakdown Response) : Option Json :=
  match answer with
  | .ok ⟨200, body⟩ => body
  | _ => none

/-- The contexts in a document on one result, each with its keys sorted. -/
def contexts? (document : Json) : Option (List Json) :=
  document.member? "contexts" (Json.list? fun c => some c.sortKeys)

theorem path?_of_route :
    String.ofList (Text.upper "POST".toList) = "POST"
      ∧ Target.path? "/graph" = .ok "/graph".toList
      ∧ Target.path? "/analyze" = .ok "/analyze".toList := by
  decide +kernel

theorem answer_post {target : String} {names : List Char} (body : Option Json)
    (htarget : Target.path? target = .ok names) :
    answer tree workingDirectory ⟨"POST", target, body⟩
      = answerPath tree workingDirectory "POST" names body := by
  rw [answer, htarget, path?_of_route.1]
  show (answerPath tree workingDirectory "POST" names body >>= fun response => _) = _
  cases answerPath tree workingDirectory "POST" names body with
  | error cause => rfl
  | ok response => rfl

theorem document?_answerWith (run : Reported AnalysisResult) (body : AnalysisResult → Json) :
    document? (answerWith run body) = run.result.toOption.map body := by
  rw [answerWith]
  cases run.result with
  | ok result => rfl
  | error failure =>
      cases failure with
      | root fault =>
          cases hreported : fault.isReported <;>
            simp [ofFailure, hreported, refusal, document?, Except.toOption]
      | settings fault => cases fault <;> rfl
      | _ => rfl

theorem document?_graphRequest (service : String) :
    document? (answer tree workingDirectory (graphRequest path service))
      = (analyzePath tree workingDirectory path).result.toOption.map fun r =>
          .obj (("service", .str service) :: (r.graph workingDirectory service).members) := by
  rw [graphRequest, answer_post _ path?_of_route.2.1, ← document?_answerWith]
  rfl

theorem document?_analyzeRequest :
    document? (answer tree workingDirectory (analyzeRequest path))
      = (analyzePath tree workingDirectory path).result.toOption.map resultBody := by
  rw [analyzeRequest, answer_post _ path?_of_route.2.2, ← document?_answerWith]
  rfl

end Web

/-! ## What is printed -/

namespace CommandLine

/-- The document that the program prints, unless it gives up. -/
def document? (run : Finished) : Option Json :=
  match run.outcome with
  | .ok ⟨0, printed, _⟩ => Json.read? printed
  | _ => none

/-- The contexts in a document on several results, each with its keys sorted: those of one result
after those of another. -/
def contexts? (document : Json) : Option (List Json) :=
  (document.member? "results" (Json.list? Web.contexts?)).map List.flatten

variable {s : Surroundings} {verbose : Bool}

theorem document?_print (value : Json) (tree : Tree) (shown : String) :
    document? (finish s tree shown (.print (value.render ++ "\n"))) = some value :=
  Json.read?_render_append value "\n" (List.all_eq_true.mp (by decide))

theorem document?_failed (command : String) (failure : Failure) (tree : Tree) (shown : String) :
    document? (finish s tree shown (failed command failure)) = none := by
  rw [failed]
  cases failureMessage? command failure <;> rfl

theorem ending_graph (service : String) :
    (perform tree workingDirectory (.graph path (some service))).2
      = match (analyzePath tree workingDirectory path none).result with
        | .error failure => failed "graph" failure
        | .ok found => .print ((Json.obj (("service", .str service)
            :: (AnalysisResult.combinedGraph workingDirectory found.2 service).members)).render
              ++ "\n") := by
  unfold perform
  dsimp only
  cases (analyzePath tree workingDirectory path none).result <;> rfl

theorem ending_analyze :
    (perform tree workingDirectory (.analyze path .json .nothing .nothing)).2
      = match (analyzePath tree workingDirectory path none).result with
        | .error failure => failed "analyze" failure
        | .ok found => .print (jsonReport found.2 ++ "\n") := by
  unfold perform performAnalysis
  dsimp only
  cases (analyzePath tree workingDirectory path none).result <;> rfl

theorem document?_runCommand (command : Command) :
    document? (runCommand s verbose command)
      = document? (finish s s.tree
        (shownNotes verbose (perform s.tree s.workingDirectory command).1)
        (perform s.tree s.workingDirectory command).2) :=
  rfl

theorem document?_graph (service : String) :
    document? (runCommand s verbose (.graph path (some service)))
      = (analyzePath s.tree s.workingDirectory path none).result.toOption.map fun found =>
          .obj (("service", .str service)
            :: (AnalysisResult.combinedGraph s.workingDirectory found.2 service).members) := by
  rw [document?_runCommand, ending_graph]
  cases (analyzePath s.tree s.workingDirectory path none).result with
  | error failure => exact document?_failed "graph" failure s.tree _
  | ok found => exact document?_print _ s.tree _

theorem document?_analyze :
    document? (runCommand s verbose (.analyze path .json .nothing .nothing))
      = (analyzePath s.tree s.workingDirectory path none).result.toOption.map fun found =>
          (Json.obj [("statistics", (AnalysisResult.combinedStatistics found.2).toJson),
            ("results", .arr (found.2.map AnalysisResult.toJson))]).sortKeys := by
  rw [document?_runCommand, ending_analyze]
  cases (analyzePath s.tree s.workingDirectory path none).result with
  | error failure => exact document?_failed "analyze" failure s.tree _
  | ok found => exact document?_print _ s.tree _

theorem contexts?_results (results : List AnalysisResult) (statistics : Json) :
    contexts? (Json.obj [("statistics", statistics),
        ("results", .arr (results.map AnalysisResult.toJson))]).sortKeys
      = some ((results.flatMap AnalysisResult.contexts).map fun c => c.toJson.sortKeys) := by
  have hresult : ∀ r : AnalysisResult, Web.contexts? r.toJson.sortKeys
      = some (r.contexts.map fun c => c.toJson.sortKeys) := by
    intro r
    rw [AnalysisResult.toJson, Web.contexts?, Json.member?_sortKeys (by simp)]
    exact Json.list?_sortKeys_arr _ fun c _ => congrArg some (Json.sortKeys_sortKeys c.toJson)
  rw [contexts?, Json.member?_sortKeys (by simp)]
  have hresults := Json.list?_sortKeys_arr results (f := AnalysisResult.toJson)
    fun r _ => hresult r
  show (Json.list? Web.contexts? (Json.arr (results.map AnalysisResult.toJson)).sortKeys).map
    List.flatten = _
  rw [hresults, List.map_flatMap, List.flatMap_def]
  rfl

end CommandLine

theorem Web.contexts?_resultBody (r : AnalysisResult) :
    contexts? (resultBody r) = some (r.contexts.map fun c => c.toJson.sortKeys) := by
  show (r.contexts.map ServiceContext.toJson).mapM (fun c => some c.sortKeys) = _
  rw [List.mapM_map]
  exact List.mapM_pure

/-! ## Both together -/

namespace CommandLine

/-- Where the settings name the root and nothing else, a command has the one result that a request
has. -/
theorem results_analyzePath {root : Path} {settings : Settings}
    (hroot : Discovery.resolveRoot tree workingDirectory path = .ok root)
    (hload : Settings.load tree workingDirectory root = .ok settings)
    (hroots : settings.analysisRoots = [root]) :
    (analyzePath tree workingDirectory path none).result
      = (Web.analyzePath tree workingDirectory path).result.map fun r => (settings, [r]) := by
  have hsettings : (loadSettings tree workingDirectory path).result = .ok settings := by
    rw [loadSettings, Reported.result_bind, Reported.result_ofExcept, hroot]
    show (Settings.load tree workingDirectory root).mapError Failure.settings = _
    rw [hload]
    rfl
  have hsame := Settings.root_load (Discovery.isRoot_of_resolveRoot hroot) hload
  rw [result_analyzePath, Web.result_analyzePath, hsettings, except_ok_bind, except_ok_bind,
    Settings.results, hroots, hsame]
  simp only [List.mapM_cons, List.mapM_nil]
  cases ((Analyzer.ofSettings settings none).analyzeDirectory tree workingDirectory
    root.toString).result <;> rfl

end CommandLine

/-- A request has a result if no file makes reading fail. -/
theorem Web.analyzePath_isOk {root : Path} {settings : Settings} (htree : tree.IsWellFormed)
    (hroot : Discovery.resolveRoot tree workingDirectory path = .ok root)
    (hload : Settings.load tree workingDirectory root = .ok settings)
    (hreads : ∀ p ∈ Discovery.filesBelow tree workingDirectory root
        (Analyzer.registryOf settings).extensions (Analyzer.registryOf settings).excluded,
      ∃ read, (Analyzer.registryOf settings).readSource tree workingDirectory p = .ok read) :
    ∃ r, (analyzePath tree workingDirectory path).result = .ok r := by
  have hisRoot := Discovery.isRoot_of_resolveRoot hroot
  obtain ⟨r, hr⟩ := (Analyzer.analyzeDirectory_isOk_iff (a := Analyzer.ofSettings settings none)
    htree (hisRoot.resolveRoot_toString htree)).mpr hreads
  exact ⟨r, Reported.bind_of_ok (Reported.ofExcept_of_ok hroot)
    (Reported.bind_of_ok (Reported.ofExcept_of_ok hload) hr)⟩

/-- **The front ends answer alike** where the settings name the root and nothing else: the command
prints the graph that the request is answered with, and reports the same contexts in the same order.
Both have something to report unless reading a file fails. -/
theorem front_ends_agree {s : CommandLine.Surroundings} {path : String} {root : Path}
    {settings : Settings} (htree : s.tree.IsWellFormed)
    (hroot : Discovery.resolveRoot s.tree s.workingDirectory path = .ok root)
    (hload : Settings.load s.tree s.workingDirectory root = .ok settings)
    (hroots : settings.analysisRoots = [root]) (service : String) (verbose : Bool) :
    let printed := fun command => CommandLine.document? (CommandLine.runCommand s verbose command)
    let answered := fun request => Web.document? (Web.answer s.tree s.workingDirectory request)
    printed (.graph path (some service)) = answered (Web.graphRequest path service)
      ∧ (printed (.analyze path .json .nothing .nothing)).bind CommandLine.contexts?
        = (answered (Web.analyzeRequest path)).bind Web.contexts?
      ∧ ((∀ p ∈ Discovery.filesBelow s.tree s.workingDirectory root
            (Analyzer.registryOf settings).extensions (Analyzer.registryOf settings).excluded,
          ∃ read, (Analyzer.registryOf settings).readSource s.tree s.workingDirectory p
            = .ok read) →
        (answered (Web.graphRequest path service)).isSome
          ∧ ((answered (Web.analyzeRequest path)).bind Web.contexts?).isSome) := by
  have hresults := CommandLine.results_analyzePath hroot hload hroots
  dsimp only
  rw [CommandLine.document?_graph, CommandLine.document?_analyze, Web.document?_graphRequest,
    Web.document?_analyzeRequest, hresults]
  refine ⟨?_, ?_, fun hreads => ?_⟩
  · cases (Web.analyzePath s.tree s.workingDirectory path).result <;> rfl
  · cases (Web.analyzePath s.tree s.workingDirectory path).result with
    | error failure => rfl
    | ok r =>
        show CommandLine.contexts? (Json.obj [_, ("results", .arr ([r].map _))]).sortKeys
          = Web.contexts? (Web.resultBody r)
        rw [CommandLine.contexts?_results, Web.contexts?_resultBody]
        simp
  · obtain ⟨r, hr⟩ := Web.analyzePath_isOk htree hroot hload hreads
    rw [hr]
    refine ⟨rfl, ?_⟩
    show (Web.contexts? (Web.resultBody r)).isSome
    rw [Web.contexts?_resultBody]
    rfl

/-! ## Settings that name another directory -/

section

open Analyzer

/-- A directory with a source in it and one in the directory `lib`, which the settings name. -/
def directoryWithLibrary : Node :=
  .dir [
    (".contextmap.yml", .file "source_directories: [lib]\n".toUTF8 ⟨0⟩),
    ("lib", .dir [("order_handler.go", .file "package lib".toUTF8 ⟨0⟩)]),
    ("user_handler.go", .file "package user".toUTF8 ⟨0⟩)]

/-- Where the program runs in a tree with this directory. -/
def besideLibrary : CommandLine.Surroundings where
  tree := .dir [("w", directoryWithLibrary)]
  workingDirectory := ⟨1, ["w"]⟩
  now := ⟨0⟩
  stamp := ""

/-- The settings of this directory. -/
def librarySettings : Settings where
  root := ⟨1, ["w"]⟩
  sourceDirectories := [⟨1, ["w", "lib"]⟩]

theorem isWellFormed_besideLibrary : besideLibrary.tree.IsWellFormed := by
  decide +kernel

/-- The settings of the directory, of `lib` in it, and what they ask for. -/
theorem settings_besideLibrary :
    (CommandLine.loadSettings besideLibrary.tree ⟨1, ["w"]⟩ ".").result = .ok librarySettings
      ∧ registryOf librarySettings = {}
      ∧ Settings.load besideLibrary.tree ⟨1, ["w"]⟩ ⟨1, ["w", "lib"]⟩
        = .ok { root := ⟨1, ["w", "lib"]⟩ }
      ∧ registryOf { root := ⟨1, ["w", "lib"]⟩ } = {} := by
  decide +kernel

/-- What is read of the sources, and which services they belong to. -/
theorem sources_besideLibrary :
    (∀ name ∈ ["user_handler.go", "order_handler.go"],
        Discovery.hasEnding [".cs", ".go", ".java"] name = true)
      ∧ Discovery.hasEnding [".cs", ".go", ".java"] ".contextmap.yml" = false
      ∧ (readFiles {} besideLibrary.tree ⟨1, ["w"]⟩
          [⟨1, ["w", "lib", "order_handler.go"]⟩]).result.map
          (fun reading => reading.files.map SourceFile.path) = .ok ["/w/lib/order_handler.go"]
      ∧ (readFiles {} besideLibrary.tree ⟨1, ["w"]⟩
          [⟨1, ["w", "user_handler.go"]⟩, ⟨1, ["w", "lib", "order_handler.go"]⟩]).result.map
          (fun reading => reading.files.map SourceFile.path)
        = .ok ["/w/user_handler.go", "/w/lib/order_handler.go"]
      ∧ Service.nameOf ⟨1, ["w"]⟩ (some ⟨1, ["w", "lib"]⟩) "/w/lib/order_handler.go" = "Order"
      ∧ Service.nameOf ⟨1, ["w"]⟩ (some ⟨1, ["w"]⟩) "/w/user_handler.go" = "User"
      ∧ Service.nameOf ⟨1, ["w"]⟩ (some ⟨1, ["w"]⟩) "/w/lib/order_handler.go" = "Order" := by
  decide +kernel

theorem filesBelow_library :
    Discovery.filesBelow besideLibrary.tree ⟨1, ["w"]⟩ ⟨1, ["w", "lib"]⟩
      ({} : Registry).extensions [] = [⟨1, ["w", "lib", "order_handler.go"]⟩] := by
  have hfind : besideLibrary.tree.find? ⟨1, ["w"]⟩ ⟨1, ["w", "lib"]⟩
      = some (.dir [("order_handler.go", .file "package lib".toUTF8 ⟨0⟩)]) := by rfl
  simp [Discovery.filesBelow, Registry.extensions_default, hfind, Discovery.walk,
    Discovery.walkEntries, Discovery.fileNames, sources_besideLibrary.1, Discovery.sortNames,
    Discovery.sortByName]

theorem filesBelow_besideLibrary :
    Discovery.filesBelow besideLibrary.tree ⟨1, ["w"]⟩ ⟨1, ["w"]⟩ ({} : Registry).extensions []
      = [⟨1, ["w", "user_handler.go"]⟩, ⟨1, ["w", "lib", "order_handler.go"]⟩] := by
  have hfind : besideLibrary.tree.find? ⟨1, ["w"]⟩ ⟨1, ["w"]⟩ = some directoryWithLibrary := by rfl
  simp +decide [Discovery.filesBelow, Registry.extensions_default, hfind, directoryWithLibrary,
    Discovery.walk, Discovery.walkEntries, Discovery.fileNames, sources_besideLibrary.1,
    sources_besideLibrary.2.1, Discovery.sortNames, Discovery.sortByName, List.mergeSort,
    List.MergeSort.Internal.splitInTwo]

theorem resolveRoot_library :
    Discovery.resolveRoot besideLibrary.tree ⟨1, ["w"]⟩ "/w/lib" = .ok ⟨1, ["w", "lib"]⟩ := by
  rfl

theorem readFiles_library :
    ∃ reading, (readFiles {} besideLibrary.tree ⟨1, ["w"]⟩ (Discovery.filesBelow besideLibrary.tree
        ⟨1, ["w"]⟩ ⟨1, ["w", "lib"]⟩ ({} : Registry).extensions [])).result = .ok reading
      ∧ reading.files.map SourceFile.path = ["/w/lib/order_handler.go"] := by
  rw [filesBelow_library]
  exact except_map_eq_ok sources_besideLibrary.2.2.1

theorem readFiles_besideLibrary :
    ∃ reading, (readFiles {} besideLibrary.tree ⟨1, ["w"]⟩ (Discovery.filesBelow besideLibrary.tree
        ⟨1, ["w"]⟩ ⟨1, ["w"]⟩ ({} : Registry).extensions [])).result = .ok reading
      ∧ reading.files.map SourceFile.path
        = ["/w/user_handler.go", "/w/lib/order_handler.go"] := by
  rw [filesBelow_besideLibrary]
  exact except_map_eq_ok sources_besideLibrary.2.2.2.1

/-- What a command finds. -/
theorem result_library :
    ∃ r, ((Analyzer.ofSettings librarySettings none).analyzeDirectory besideLibrary.tree
      ⟨1, ["w"]⟩ "/w/lib").result = .ok r ∧ r.contexts.map ServiceContext.name = ["Order"] := by
  obtain ⟨reading, hreading, hfiles⟩ := readFiles_library
  rw [← settings_besideLibrary.2.1] at hreading
  obtain ⟨r, hr, hnames⟩ := names_of_readFiles isWellFormed_besideLibrary resolveRoot_library
    (a := Analyzer.ofSettings librarySettings none) hreading
  obtain ⟨-, -, -, -, hname, -⟩ := sources_besideLibrary
  exact ⟨r, hr, by rw [hnames, hfiles]; simp [hname, List.eraseDups_cons]⟩

/-- What a request finds. -/
theorem result_besideLibrary :
    ∃ r, ((Analyzer.ofSettings librarySettings none).analyzeDirectory besideLibrary.tree
      ⟨1, ["w"]⟩ "/w").result = .ok r
      ∧ r.contexts.map ServiceContext.name = ["User", "Order"] := by
  have hroot : Discovery.resolveRoot besideLibrary.tree ⟨1, ["w"]⟩ "/w" = .ok ⟨1, ["w"]⟩ := by rfl
  obtain ⟨reading, hreading, hfiles⟩ := readFiles_besideLibrary
  rw [← settings_besideLibrary.2.1] at hreading
  obtain ⟨r, hr, hnames⟩ := names_of_readFiles isWellFormed_besideLibrary hroot
    (a := Analyzer.ofSettings librarySettings none) hreading
  obtain ⟨-, -, -, -, -, huser, horder⟩ := sources_besideLibrary
  exact ⟨r, hr, by rw [hnames, hfiles]; simp [huser, horder, List.eraseDups_cons]⟩

/-- The command reports on `lib` alone, the request on the source beside it too. -/
theorem contexts_differ_beside_library :
    ∃ printed answered,
      (CommandLine.document? (CommandLine.run besideLibrary ["analyze", "."])).bind
          CommandLine.contexts? = some printed
        ∧ (Web.document? (Web.answer besideLibrary.tree besideLibrary.workingDirectory
          (Web.analyzeRequest "."))).bind Web.contexts? = some answered
        ∧ printed.length = 1 ∧ answered.length = 2 := by
  obtain ⟨inside, hinside, hone⟩ := result_library
  obtain ⟨all, hall, htwo⟩ := result_besideLibrary
  have hresults : librarySettings.results besideLibrary.tree ⟨1, ["w"]⟩ none = .ok [inside] := by
    have hroots : librarySettings.analysisRoots = [⟨1, ["w", "lib"]⟩] := rfl
    have hinside' : ((Analyzer.ofSettings librarySettings none).analyzeDirectory besideLibrary.tree
        ⟨1, ["w"]⟩ (Path.toString ⟨1, ["w", "lib"]⟩)).result = .ok inside := hinside
    rw [Settings.results, hroots, List.mapM_cons, List.mapM_nil, hinside']
    rfl
  have hprinted : (CommandLine.analyzePath besideLibrary.tree ⟨1, ["w"]⟩ "." none).result
      = .ok (librarySettings, [inside]) := by
    rw [CommandLine.result_analyzePath, settings_besideLibrary.1, except_ok_bind, hresults]
    rfl
  have hanswered : (Web.analyzePath besideLibrary.tree ⟨1, ["w"]⟩ ".").result = .ok all := by
    rw [Web.result_analyzePath, settings_besideLibrary.1, except_ok_bind]
    exact hall
  refine ⟨inside.contexts.map fun c => c.toJson.sortKeys,
    all.contexts.map fun c => c.toJson.sortKeys, ?_, ?_, ?_, ?_⟩
  · rw [CommandLine.run_analyze _ (by decide), CommandLine.document?_analyze]
    show (((CommandLine.analyzePath besideLibrary.tree ⟨1, ["w"]⟩ "." none).result.toOption.map
      _).bind _) = _
    rw [hprinted]
    show CommandLine.contexts? (Json.obj [_, ("results", .arr ([inside].map _))]).sortKeys = _
    rw [CommandLine.contexts?_results, List.flatMap_singleton]
  · rw [Web.document?_analyzeRequest]
    show (((Web.analyzePath besideLibrary.tree ⟨1, ["w"]⟩ ".").result.toOption.map _).bind _) = _
    rw [hanswered]
    exact Web.contexts?_resultBody all
  · simpa using congrArg List.length hone
  · simpa using congrArg List.length htwo

/-- Asked for `lib` itself, which has no settings, both report the same. -/
theorem front_ends_agree_on_library :
    besideLibrary.tree.IsWellFormed
      ∧ Discovery.resolveRoot besideLibrary.tree besideLibrary.workingDirectory "lib"
        = .ok ⟨1, ["w", "lib"]⟩
      ∧ Settings.load besideLibrary.tree besideLibrary.workingDirectory ⟨1, ["w", "lib"]⟩
        = .ok { root := ⟨1, ["w", "lib"]⟩ }
      ∧ ∃ document contexts,
        CommandLine.document? (CommandLine.runCommand besideLibrary false
            (.graph "lib" (some "Order"))) = some document
          ∧ Web.document? (Web.answer besideLibrary.tree besideLibrary.workingDirectory
            (Web.graphRequest "lib" "Order")) = some document
          ∧ (CommandLine.document? (CommandLine.runCommand besideLibrary false
            (.analyze "lib" .json .nothing .nothing))).bind CommandLine.contexts? = some contexts
          ∧ (Web.document? (Web.answer besideLibrary.tree besideLibrary.workingDirectory
            (Web.analyzeRequest "lib"))).bind Web.contexts? = some contexts := by
  have hroot : Discovery.resolveRoot besideLibrary.tree besideLibrary.workingDirectory "lib"
      = .ok ⟨1, ["w", "lib"]⟩ := by rfl
  obtain ⟨-, -, hload, hregistry⟩ := settings_besideLibrary
  obtain ⟨hgraph, hcontexts, hsome⟩ :=
    front_ends_agree isWellFormed_besideLibrary hroot hload rfl "Order" false
  obtain ⟨hdocument, hlist⟩ := hsome (by
    obtain ⟨reading, hreading, -⟩ := readFiles_library
    rw [hregistry]
    exact (readFiles_eq_ok hreading).1)
  obtain ⟨document, hdocument⟩ := Option.isSome_iff_exists.mp hdocument
  obtain ⟨contexts, hlist⟩ := Option.isSome_iff_exists.mp hlist
  exact ⟨isWellFormed_besideLibrary, hroot, hload, document, contexts, hgraph.trans hdocument,
    hdocument, hcontexts.trans hlist, hlist⟩

end

end ServiceMap
