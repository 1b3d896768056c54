import ServiceMap.Analysis.Failure
import ServiceMap.Analysis.Result
import ServiceMap.Facts.Registry
import ServiceMap.Link.Pool
import ServiceMap.Settings.File

/-!
# Running an analysis

The analysis of a directory: its source files are found and read, the edges between them collected,
and both put together service by service.
-/

namespace ServiceMap

/-- What an analysis is told: which languages and directories it reads, with how many workers, and
the settings that say so, if any. -/
structure Analyzer where
  registry : Registry := {}
  workers : Nat := 1
  settings : Option Settings := none

namespace Analyzer

/-- The registry that settings ask for. -/
def registryOf (s : Settings) : Registry :=
  ⟨Language.all.filter s.languages.contains, s.excluded⟩

/-- The analyzer that settings ask for, possibly with another number of workers. -/
def ofSettings (s : Settings) (workers? : Option Nat) : Analyzer :=
  ⟨registryOf s, workers?.getD s.workers, some s⟩

/-- The files that were read and the paths of those that were not. -/
structure Reading where
  files : List SourceFile := []
  skipped : List String := []
deriving DecidableEq, Repr

/-- Reads one file after another. -/
def readFiles (r : Registry) (tree : Tree) (workingDirectory : Path) :
    List Path → Reported Reading
  | [] => return {}
  | path :: rest => do
    let (file?, notes) ← Reported.ofExcept .source (r.readSource tree workingDirectory path)
    Reported.noteAll notes
    match file? with
    | some file =>
      let reading ← readFiles r tree workingDirectory rest
      return { reading with files := file :: reading.files }
    | none =>
      Reported.note (.withoutFacts path.toString)
      let reading ← readFiles r tree workingDirectory rest
      return { reading with skipped := path.toString :: reading.skipped }

/-- The result for a root, put together from what was read there and the edges that were found. -/
def resultOf (workingDirectory root : Path) (reading : Reading) (edges : List Edge) :
    AnalysisResult :=
  let table := FileTable.ofList reading.files
  let groups := Service.groups workingDirectory (some root) table.paths
  { root := root.toString
    contexts := Service.assemble groups table edges root.toString
    edges
    skippedFiles := reading.skipped }

/-- Analyzes the directory that a path denotes. -/
def analyzeDirectory (a : Analyzer) (tree : Tree) (workingDirectory : Path) (path : String) :
    Reported AnalysisResult := do
  let root ← Reported.ofExcept .root (Discovery.resolveRoot tree workingDirectory path)
  Reported.note (.analyzing root.toString)
  let paths := Discovery.filesBelow tree workingDirectory root a.registry.extensions
    a.registry.excluded
  Reported.note (.discovered paths.length root.toString)
  let reading ← readFiles a.registry tree workingDirectory paths
  Reported.note (.parsed reading.files.length reading.skipped.length)
  let extractor := Extractor.ofTable (FileTable.ofList reading.files)
  let (scan, _) ← Reported.ofExcept .source
    (extractor.extractAll tree workingDirectory a.workers)
  Reported.noteAll scan.notes
  Reported.note (.foundEdges scan.edges.length)
  let result := resultOf workingDirectory root reading scan.edges
  let counts := result.statistics
  Reported.note (.analyzed counts.files counts.services counts.edges)
  return result

/-- Analyzes the directories that paths denote, in their order. -/
def analyzeEach (a : Analyzer) (tree : Tree) (workingDirectory : Path) :
    (paths : List String) → Reported (List AnalysisResult)
  | [] => return []
  | path :: rest => do
    let result ← a.analyzeDirectory tree workingDirectory path
    let results ← a.analyzeEach tree workingDirectory rest
    return result :: results

/-- Analyzes the given directories, or else those that the settings name. -/
def analyzeDirectories (a : Analyzer) (tree : Tree) (workingDirectory : Path)
    (paths? : Option (List String)) : Reported (List AnalysisResult) :=
  match paths?, a.settings with
  | some paths, _ => a.analyzeEach tree workingDirectory paths
  | none, some s => a.analyzeEach tree workingDirectory (s.analysisRoots.map Path.toString)
  | none, none => Reported.fail .noDirectories

end Analyzer

/-- Reads the files below the directory that a path denotes, in some of the registry's languages or
in all. -/
def Registry.readDirectory (r : Registry) (tree : Tree) (workingDirectory : Path) (path : String)
    (only? : Option (List String)) : Reported (List SourceFile) := do
  let paths ← Reported.ofExcept .root
    (Discovery.discover tree workingDirectory path (r.endingsOf only?) r.excluded)
  let reading ← Analyzer.readFiles r tree workingDirectory paths
  return reading.files

end ServiceMap
