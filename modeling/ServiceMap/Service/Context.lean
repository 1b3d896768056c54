import ServiceMap.Facts.Basic
import ServiceMap.Service.Category
import ServiceMap.Service.Name

/-!
# Service contexts

What belongs to one service: its files by category, the facts they contribute, and the edges that
touch them.
-/

namespace ServiceMap

/-- The files that were read, each under its path, in the order in which they were first added. -/
abbrev FileTable := List SourceFile

namespace FileTable

/-- Adds a file; a file that is already there under this path is replaced where it stands. -/
def insert (file : SourceFile) : FileTable → FileTable
  | [] => [file]
  | other :: rest =>
    if other.path == file.path then file :: rest else other :: insert file rest

/-- The table of a list of files. -/
def ofList (files : List SourceFile) : FileTable :=
  files.foldl (fun table file => insert file table) []

/-- The file under a path. -/
def find? (table : FileTable) (path : String) : Option SourceFile :=
  List.find? (fun file => file.path == path) table

/-- The paths in the table. -/
def paths (table : FileTable) : List String :=
  table.map SourceFile.path

end FileTable

/-- One service. -/
structure ServiceContext where
  name : String
  root : String
  controllers : List SourceFile := []
  services : List SourceFile := []
  models : List SourceFile := []
  repositories : List SourceFile := []
  configurations : List SourceFile := []
  utilities : List SourceFile := []
  tests : List SourceFile := []
  edges : List Edge := []
  endpoints : List Endpoint := []
  businessLogic : List TypeDecl := []
  dataModels : List TypeDecl := []
deriving DecidableEq, Repr

namespace ServiceContext

/-- The files by category, each category with its name in reports. -/
def buckets (c : ServiceContext) : List (String × List SourceFile) :=
  [("controllers", c.controllers), ("services", c.services), ("models", c.models),
    ("repositories", c.repositories), ("configurations", c.configurations),
    ("utilities", c.utilities), ("tests", c.tests)]

/-- The paths of all files, category by category. -/
def memberFiles (c : ServiceContext) : List String :=
  c.buckets.flatMap fun bucket => bucket.2.map SourceFile.path

/-- Adds a file to its category, and to the service the facts that this category contributes:
controllers their endpoints, services and models their types. A file that shows no category counts
as a utility. -/
def add (c : ServiceContext) (file : SourceFile) : Option Service.Category → ServiceContext
  | some .controller =>
    { c with controllers := c.controllers ++ [file], endpoints := c.endpoints ++ file.endpoints }
  | some .service =>
    { c with services := c.services ++ [file], businessLogic := c.businessLogic ++ file.types }
  | some .model =>
    { c with models := c.models ++ [file], dataModels := c.dataModels ++ file.types }
  | some .repository => { c with repositories := c.repositories ++ [file] }
  | some .config => { c with configurations := c.configurations ++ [file] }
  | some .utility => { c with utilities := c.utilities ++ [file] }
  | some .test => { c with tests := c.tests ++ [file] }
  | none => { c with utilities := c.utilities ++ [file] }

end ServiceContext

namespace Service

/-- Where each file is touched: a file with the positions of the edges that start or end at it. -/
abbrev EdgeIndex := List (String × List Nat)

/-- Adds a position to a file's list, or opens the list at the end. -/
def addPosition (file : String) (position : Nat) : EdgeIndex → EdgeIndex
  | [] => [(file, [position])]
  | (other, positions) :: rest =>
    if other == file then (other, positions ++ [position]) :: rest
    else (other, positions) :: addPosition file position rest

/-- Adds an edge at a position, once if it starts and ends at the same file. -/
def addEdge (index : EdgeIndex) (entry : Edge × Nat) : EdgeIndex :=
  let (edge, position) := entry
  let index := addPosition edge.source position index
  if edge.target == edge.source then index else addPosition edge.target position index

/-- The index of a list of edges. -/
def indexEdges (edges : List Edge) : EdgeIndex :=
  edges.zipIdx.foldl addEdge []

/-- The edges that start or end at one of the files. -/
def edgesTouching (files : List String) (edges : List Edge) : List Edge :=
  edges.filter fun e => files.contains e.source || files.contains e.target

/-- The same positions, rising and without repetition. -/
def sortedPositions (positions : List Nat) : List Nat :=
  (positions.mergeSort fun a b => decide (a ≤ b)).eraseReps

/-- The edges that start or end at one of the files, looked up in an index of the edges. -/
def edgesTouchingBy (index : EdgeIndex) (files : List String) (edges : List Edge) : List Edge :=
  let positions := files.flatMap fun file => (index.lookup file).getD []
  (sortedPositions positions).filterMap fun position => edges[position]?

/-- The context of a service with these files. Files that are not in the table are left out. -/
def fill (name root : String) (files : List String) (table : FileTable) : ServiceContext :=
  files.foldl (fun context file =>
    match table.find? file with
    | some read => context.add read (Category.ofFile? file)
    | none => context) { name, root }

/-- The context of a service with these files and the edges that touch them. -/
def buildContext (name root : String) (files : List String) (table : FileTable)
    (edges : List Edge) : ServiceContext :=
  { fill name root files table with edges := edgesTouching files edges }

/-- The same context with the edges looked up in an index. -/
def buildContextBy (index : EdgeIndex) (name root : String) (files : List String)
    (table : FileTable) (edges : List Edge) : ServiceContext :=
  { fill name root files table with edges := edgesTouchingBy index files edges }

/-- The service of files that are in no group. -/
def generalService : String := "General"

/-- A context for each group, in their order, and one for the files of the table that are in none,
if there are such. -/
def assemble (groups : List Group) (table : FileTable) (edges : List Edge) (root : String) :
    List ServiceContext :=
  let index := indexEdges edges
  let build := fun (name : String) (files : List String) =>
    buildContextBy index name root files table edges
  let grouped := groups.flatMap Prod.snd
  let left := table.paths.filter fun file => !grouped.contains file
  (groups.map fun group => build group.1 group.2)
    ++ if left.isEmpty then [] else [build generalService left]

end Service

end ServiceMap
