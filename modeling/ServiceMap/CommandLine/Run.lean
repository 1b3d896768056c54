import ServiceMap.Analysis.Run
import ServiceMap.CommandLine.Invocation
import ServiceMap.Report.Export
import ServiceMap.Report.Markdown
import ServiceMap.Tree.Change

/-!
# Running the program

What the program prints and changes for its arguments, given the tree of files it runs in.
-/

namespace ServiceMap.CommandLine

/-- Where the program runs. -/
structure Surroundings where
  tree : Tree
  workingDirectory : Path
  /-- The time of change of files that are written. -/
  now : Instant
  /-- What each line of a log file starts with. -/
  stamp : String

/-- What the program prints, and the status it ends with. -/
structure Outcome where
  status : Nat
  printed : String := ""
  complaints : String := ""
deriving DecidableEq, Repr

/-- Why the program ends without an outcome of its own. -/
inductive Breakdown where
  /-- The analysis fails for a cause that is not reported. -/
  | failure (failure : Failure)
  /-- A file cannot be written. -/
  | write (fault : WriteFault)
  /-- It is said that a file is to be written, but that it has no path. -/
  | noFile
  /-- It is said that there are workers, but that they have no number. -/
  | noNumber
  /-- Requests are to be answered over a network. -/
  | noNetwork
deriving DecidableEq, Repr

/-- The wording of a breakdown. -/
def Breakdown.message : Breakdown → String
  | failure f => f.message
  | write fault => fault.message
  | noFile => "a file to be written has no path"
  | noNumber => "the number of workers is no number"
  | noNetwork => "requests cannot be answered without a network"

/-- The end of a run, and the tree it leaves behind. -/
structure Finished where
  tree : Tree
  outcome : Except Breakdown Outcome

/-! ## Notes -/

/-- The name under which notes are shown. -/
def programName : String := "contextmap"

/-- A note as it is shown. -/
def shownLine (n : Note) : String :=
  "[" ++ programName ++ "] " ++ n.level.label ++ " " ++ n.message ++ "\n"

/-- The notes that are shown, line by line. -/
def shownNotes (verbose : Bool) (notes : List Note) : String :=
  String.join ((notes.filter fun n => verbose || n.level != .debug).map shownLine)

/-- A note as a line of a log file. -/
def logLine (stamp : String) (n : Note) : String :=
  stamp ++ n.level.label ++ " " ++ programName ++ "." ++ n.channel ++ ": " ++ n.message ++ "\n"

/-- All notes, line by line. -/
def logText (stamp : String) (notes : List Note) : String :=
  String.join (notes.map (logLine stamp))

/-! ## Commands -/

/-- What a command leads to, before anything is printed or written. -/
inductive Ending where
  /-- A text is printed. -/
  | print (text : String)
  /-- A report is written to a file. -/
  | write (report : String) (file : Path)
  /-- The program gives up with a message. -/
  | refuse (message : String)
  /-- The program breaks down. -/
  | breakDown (cause : Breakdown)

/-- The settings of the directory that a path denotes. -/
def loadSettings (tree : Tree) (workingDirectory : Path) (path : String) : Reported Settings := do
  let root ← Reported.ofExcept .root (Discovery.resolveRoot tree workingDirectory path)
  Reported.ofExcept .settings (Settings.load tree workingDirectory root)

/-- The settings of the directory that a path denotes, and the results of its analysis. -/
def analyzePath (tree : Tree) (workingDirectory : Path) (path : String) (workers? : Option Nat) :
    Reported (Settings × List AnalysisResult) := do
  let settings ← loadSettings tree workingDirectory path
  let analyzer := Analyzer.ofSettings settings workers?
  let results ← analyzer.analyzeDirectories tree workingDirectory none
  return (settings, results)

/-- The message for a failure that is reported; none if the program breaks down. -/
def failureMessage? (command : String) : Failure → Option String
  | .root fault => if fault.isReported then some fault.message else none
  | .settings (.invalid fault) =>
    some (programName ++ " " ++ command ++ " failed: " ++ fault.message)
  | _ => none

/-- The end of a command that has failed. -/
def failed (command : String) (failure : Failure) : Ending :=
  match failureMessage? command failure with
  | some message => .refuse (message ++ "\n")
  | none => .breakDown (.failure failure)

/-- The report on results, as JSON. -/
def jsonReport (results : List AnalysisResult) : String :=
  (Json.obj [("statistics", (AnalysisResult.combinedStatistics results).toJson),
    ("results", .arr (results.map AnalysisResult.toJson))]).sortKeys.render

/-- The report on results, in the form that is asked for. -/
def reportOn (format : ReportFormat) (settings : Settings) (results : List AnalysisResult) :
    String :=
  match format with
  | .json => jsonReport results
  | .markdown => Report.document settings.includeDiagram (results.flatMap AnalysisResult.contexts)

/-- The dependency graph of a service, as JSON; without a service it is empty. -/
def graphReport (workingDirectory : Path) (service : Option String)
    (results : List AnalysisResult) : String :=
  let (name, g) := match service with
    | some service =>
      (Json.str service, AnalysisResult.combinedGraph workingDirectory results service)
    | none => (.arr [], {})
  (Json.obj (("service", name) :: g.members)).render

/-- The end of a report: it is printed, or written to a file. -/
def deliver (report : String) : (output : Given Path) → Ending
  | .nothing => .print report
  | .noValue => .breakDown .noFile
  | .value file => .write report file

/-- Notes of an analysis, and what it leads to. -/
def performAnalysis (tree : Tree) (workingDirectory : Path) (path : String)
    (format : ReportFormat) (output : Given Path) (workers : Option Nat) : List Note × Ending :=
  let run := analyzePath tree workingDirectory path workers
  match run.result with
  | .error failure => (run.notes, failed "analyze" failure)
  | .ok (settings, results) =>
    let counts := AnalysisResult.combinedStatistics results
    (run.notes ++ [.servicesAnalyzed counts.services counts.edges],
      deliver (reportOn format settings results ++ "\n") output)

/-- Notes, and what a command leads to. -/
def perform (tree : Tree) (workingDirectory : Path) : Command → List Note × Ending
  | .analyze path format output workers =>
    match workers with
    | .nothing => performAnalysis tree workingDirectory path format output none
    | .noValue => ([], .breakDown .noNumber)
    | .value n =>
      if n < 1 then ([], .refuse "--workers must be a positive integer\n")
      else performAnalysis tree workingDirectory path format output (some n.toNat)
  | .graph path service =>
    let run := analyzePath tree workingDirectory path none
    match run.result with
    | .error failure => (run.notes, failed "graph" failure)
    | .ok (_, results) =>
      (run.notes, .print (graphReport workingDirectory service results ++ "\n"))
  | .serve .. => ([], .breakDown .noNetwork)

/-! ## The whole run -/

/-- A path as it is shown: relative to the working directory if it lies there. -/
def shownPath (workingDirectory path : Path) : String :=
  (((path.resolve workingDirectory).relativeTo? workingDirectory).getD path).toString

/-- Prints or writes what a command leads to. -/
def finish (s : Surroundings) (tree : Tree) (shown : String) : Ending → Finished
  | .print text => ⟨tree, .ok ⟨0, text, shown⟩⟩
  | .refuse message => ⟨tree, .ok ⟨1, "", shown ++ message⟩⟩
  | .breakDown cause => ⟨tree, .error cause⟩
  | .write report file =>
    let written := tree.writeText s.workingDirectory file report s.now
    match written.fault with
    | some fault => ⟨written.tree, .error (.write fault)⟩
    | none =>
      ⟨written.tree,
        .ok ⟨0, "Report written to " ++ shownPath s.workingDirectory file ++ "\n", shown⟩⟩

/-- Does what a command says, without a log file. -/
def runCommand (s : Surroundings) (verbose : Bool) (command : Command) : Finished :=
  let (notes, ending) := perform s.tree s.workingDirectory command
  finish s s.tree (shownNotes verbose notes) ending

/-- The tree with notes added to a log file, which is made in any case. -/
def writeLog (s : Surroundings) (tree : Tree) (file : Path) (notes : List Note) : Changed :=
  tree.appendText s.workingDirectory file (logText s.stamp notes) s.now

/-- Does what a command says, with all notes in a log file. The file is there before anything else
is done. -/
def runLogged (s : Surroundings) (verbose : Bool) (file : Path) (command : Command) : Finished :=
  let opened := writeLog s s.tree file []
  match opened.fault with
  | some fault => ⟨opened.tree, .error (.write fault)⟩
  | none =>
    let (notes, ending) := perform opened.tree s.workingDirectory command
    let logged := writeLog s opened.tree file notes
    match logged.fault with
    | some fault => ⟨logged.tree, .error (.write fault)⟩
    | none => finish s logged.tree (shownNotes verbose notes) ending

/-- Does what the program is asked to do. -/
def runInvocation (s : Surroundings) (i : Invocation) : Finished :=
  match i.logFile with
  | .nothing => runCommand s i.verbose i.command
  | .noValue => ⟨s.tree, .error .noFile⟩
  | .value file => runLogged s i.verbose file i.command

/-- How the program is used. -/
def usageText : String :=
  "usage: " ++ programName ++ " [-h] [-v] [--log-file LOG_FILE] analyze|graph|serve ...\n"

/-- Runs the program with arguments. -/
def run (s : Surroundings) (arguments : List String) : Finished :=
  match Invocation.ofArguments arguments with
  | .ok i => runInvocation s i
  | .error .help => ⟨s.tree, .ok ⟨0, usageText, ""⟩⟩
  | .error .usage => ⟨s.tree, .ok ⟨2, "", usageText⟩⟩

end ServiceMap.CommandLine
