import ServiceMap.Link.Extractor

/-!
# Scanning by several workers

A pool of workers that scan the files of a table at the same time. They share the project roots
found so far and a dictionary of results by path. A scan is a sequence of steps, each of which looks
into what is shared or changes it at most once; which worker makes the next step is told by a
schedule. Workers take files in the order of the table, and no more of them are under way than there
are workers. What the scans put into the dictionary is read back in the order of the table, whatever
the schedule.
-/

namespace ServiceMap

open Source

namespace Link

/-- What is left of the scan of a file whose text was read. -/
structure Work where
  /-- The masked text. -/
  masked : List Char
  /-- The imports that are still to be resolved. -/
  specs : List (List Char)
  /-- What the imports before these have led to. -/
  found : Scan := {}
deriving DecidableEq, Repr

/-- How far the scan of a file has come. -/
inductive Stage where
  /-- No worker has taken the file. -/
  | waiting
  /-- The next import is turned to: is the root of the file's project among the shared ones? -/
  | asking (work : Work)
  /-- The root was not among the shared ones when this import was turned to, and is looked for. -/
  | searching (spec : List Char) (work : Work)
  /-- The root is among the shared ones, and is taken from there for this import. -/
  | taking (spec : List Char) (work : Work)
  /-- All is found and has to be put among the results. -/
  | storing (scan : Scan)
  /-- The scan is done. -/
  | done
deriving DecidableEq, Repr

/-- Whether a worker is busy with the scan. -/
def Stage.isUnderWay : Stage → Bool
  | waiting => false
  | done => false
  | _ => true

/-- What the workers share: the extractor with the roots that it remembers, and what was found in
the files that are done, the latest first. -/
structure Shared where
  extractor : Extractor
  results : List (String × Scan) := []

/-- What is shared, and the scans of the files of a table. -/
structure Pool where
  shared : Shared
  scans : List (SourceFile × Stage)

namespace Pool

/-- The pool before its first step. -/
def start (x : Extractor) : Pool :=
  ⟨{ extractor := x }, x.table.map fun file => (file, .waiting)⟩

/-- The work left after an import was resolved in a project with this root. -/
def resolved (tree : Tree) (workingDirectory : Path) (root : Option Path) (file : SourceFile)
    (spec : List Char) (work : Work) : Work :=
  let scan := Extractor.importScan tree workingDirectory root file.language file.path spec
  { work with found := work.found ++ scan }

/-- What a scan does first: the file is read, and its imports are listed. -/
def begin (tree : Tree) (workingDirectory : Path) (file : SourceFile) : Except Fault Stage :=
  match tree.read workingDirectory (Path.ofString file.path) with
  | .error .nulInPath => .error .nulInPath
  | .error _ => .ok (.storing ⟨[], [.skippingEdges file.path]⟩)
  | .ok read =>
    let masked := maskComments file.language.rawQuote read.text
    .ok (.asking { masked, specs := importSpecs file.language masked })

/-- What a scan does when it turns to the next import: it asks for the root of the project, if
imports are looked for there. After the last import the references to types are resolved. -/
def ask (tree : Tree) (workingDirectory : Path) (shared : Shared) (file : SourceFile)
    (work : Work) : Except Fault Stage :=
  match work.specs with
  | [] => do
    let uses ← symbolUses file.language work.masked
    let edges := uses.filterMap (shared.extractor.symbolEdge? file.path)
    return .storing (work.found ++ ⟨edges, []⟩)
  | spec :: rest =>
    let work := { work with specs := rest }
    if needsProject file.language then
      match shared.extractor.roots.lookup (Path.ofString file.path).parent with
      | some _ => .ok (.taking spec work)
      | none => .ok (.searching spec work)
    else .ok (.asking (resolved tree workingDirectory none file spec work))

/-- One step of the scan of a file. A root that was shared stays among the shared ones, so that it
is there when it is taken. -/
def step (tree : Tree) (workingDirectory : Path) (file : SourceFile) (shared : Shared) :
    Stage → Except Fault (Stage × Shared)
  | .waiting => (begin tree workingDirectory file).map (·, shared)
  | .asking work => (ask tree workingDirectory shared file work).map (·, shared)
  | .searching spec work => do
    let root ← Project.findRoot tree workingDirectory (Path.ofString file.path)
    let x := shared.extractor
    let roots := ((Path.ofString file.path).parent, root) :: x.roots
    return (.taking spec work, { shared with extractor := { x with roots } })
  | .taking spec work =>
    let root := (shared.extractor.roots.lookup (Path.ofString file.path).parent).join
    .ok (.asking (resolved tree workingDirectory root file spec work), shared)
  | .storing scan => .ok (.done, { shared with results := (file.path, scan) :: shared.results })
  | .done => .ok (.done, shared)

/-- Whether the scan at a position may make a step: it is under way, or it is the first that waits
and a worker is free. -/
def mayStep (workers : Nat) (p : Pool) (position : Nat) : Bool :=
  match p.scans[position]? with
  | none => false
  | some (_, .waiting) =>
    (p.scans.take position).all (fun scan => scan.2 != .waiting)
      && decide ((p.scans.filter fun scan => scan.2.isUnderWay).length < workers)
  | some (_, stage) => stage.isUnderWay

/-- The pool after a step of the scan at a position. -/
def advance (tree : Tree) (workingDirectory : Path) (p : Pool) (position : Nat) :
    Except Fault Pool :=
  match p.scans[position]? with
  | none => .ok p
  | some (file, stage) => do
    let (stage, shared) ← step tree workingDirectory file p.shared stage
    return ⟨shared, p.scans.set position (file, stage)⟩

/-- The pool after the steps of a schedule; steps that may not be made are passed over. -/
def run (workers : Nat) (tree : Tree) (workingDirectory : Path) :
    (schedule : List Nat) → Pool → Except Fault Pool
  | [], p => .ok p
  | position :: schedule, p => do
    if p.mayStep workers position then
      run workers tree workingDirectory schedule (← p.advance tree workingDirectory position)
    else run workers tree workingDirectory schedule p

/-- The most steps that the scan of a file makes from a stage on: up to three for each import, and
three more. -/
def stepsLeft (tree : Tree) (workingDirectory : Path) (file : SourceFile) : Stage → Nat
  | .waiting =>
    match begin tree workingDirectory file with
    | .ok (.asking work) => 3 * work.specs.length + 3
    | _ => 2
  | .asking work => 3 * work.specs.length + 2
  | .searching _ work => 3 * work.specs.length + 4
  | .taking _ work => 3 * work.specs.length + 3
  | .storing _ => 1
  | .done => 0

/-- A schedule that brings every scan to its end, one after the other. -/
def finishing (tree : Tree) (workingDirectory : Path) (p : Pool) : List Nat :=
  p.scans.zipIdx.flatMap fun ((file, stage), position) =>
    List.replicate (stepsLeft tree workingDirectory file stage) position

/-- What the scans have found, in the order of the table. -/
def collect (p : Pool) : Scan :=
  (p.scans.map fun scan => (p.shared.results.lookup scan.1.path).getD {}).foldl Scan.append {}

end Pool

end Link

namespace Extractor

open Link

/-- All edges between files of the table, found by several workers who follow a schedule; what it
leaves undone is done at its end. -/
def extractBySchedule (x : Extractor) (tree : Tree) (workingDirectory : Path) (workers : Nat)
    (schedule : List Nat) : Except Fault (Scan × Extractor) := do
  let p ← (Pool.start x).run workers tree workingDirectory schedule
  let p ← p.run workers tree workingDirectory (p.finishing tree workingDirectory)
  return (p.collect, p.shared.extractor)

/-- All edges between files of the table, in its order. Several workers, if there is work for them,
follow the schedule. -/
def extractAllBy (schedule : List Nat) (x : Extractor) (tree : Tree) (workingDirectory : Path)
    (workers : Nat) : Except Fault (Scan × Extractor) :=
  if workers ≤ 1 || x.table.length ≤ 1 then x.extractInOrder tree workingDirectory
  else x.extractBySchedule tree workingDirectory workers schedule

/-- A schedule in which the files take turns. -/
def turns (x : Extractor) : List Nat :=
  let positions := List.range x.table.length
  positions ++ positions ++ positions

/-- All edges between files of the table, in its order, by workers who take turns. -/
def extractAll (x : Extractor) (tree : Tree) (workingDirectory : Path) (workers : Nat) :
    Except Fault (Scan × Extractor) :=
  x.extractAllBy x.turns tree workingDirectory workers

end Extractor

end ServiceMap
