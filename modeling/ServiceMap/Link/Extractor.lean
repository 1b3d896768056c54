import ServiceMap.Link.Import
import ServiceMap.Link.Symbol

/-!
# Edges between files

An extractor finds the edges that start at a file: its imports first, then its references to types,
each that leads to a file. It remembers the project roots of the directories it was asked about, and
goes on answering with them even if the tree has changed.
-/

namespace ServiceMap

open Text Source Link

/-- Finds edges with the help of a table of files. -/
structure Extractor where
  table : FileTable := []
  symbols : SymbolIndex := []
  /-- The project roots found so far, by directory. -/
  roots : List (Path × Option Path) := []

/-- The edges that start at a file, with notes on the way there. -/
structure Scan where
  edges : List Edge := []
  notes : List Note := []
deriving Repr, DecidableEq

/-- One scan after another. -/
def Scan.append (a b : Scan) : Scan :=
  ⟨a.edges ++ b.edges, a.notes ++ b.notes⟩

instance : Append Scan := ⟨Scan.append⟩

namespace Extractor

/-- An extractor for a table. -/
def ofTable (table : FileTable) : Extractor :=
  ⟨table, SymbolIndex.ofTable table, []⟩

/-- The project root of a file, as remembered for its directory or else as the tree has it now. -/
def projectRoot (x : Extractor) (tree : Tree) (workingDirectory source : Path) :
    Except Fault (Option Path × Extractor) :=
  match x.roots.lookup source.parent with
  | some root => .ok (root, x)
  | none => (Project.findRoot tree workingDirectory source).map fun root =>
      (root, { x with roots := (source.parent, root) :: x.roots })

/-- The file that an import of a file stands for, with the root of the file's project if imports are
looked for there. -/
def importedFile (x : Extractor) (tree : Tree) (workingDirectory : Path) (language : Language)
    (source : Path) (spec : List Char) : Except Fault (Option Path × Extractor) := do
  let (root, x) ←
    if needsProject language then x.projectRoot tree workingDirectory source else .ok (none, x)
  return ((resolveImport tree workingDirectory root language source spec).1, x)

/-- The edge that an import makes, or a note that it leads nowhere. -/
def importScan (tree : Tree) (workingDirectory : Path) (root : Option Path) (language : Language)
    (file : String) (spec : List Char) : Scan :=
  let (found, notes) :=
    resolveImport tree workingDirectory root language (Path.ofString file) spec
  match found with
  | some target => ⟨[⟨file, target.toString, .imports, String.ofList spec⟩], notes⟩
  | none => ⟨[], notes ++ [.unresolvedImport (String.ofList spec) file]⟩

/-- The edge that a reference to a type makes, if a file of the table declares the type. -/
def symbolEdge? (x : Extractor) (file : String) (use : SymbolUse) : Option Edge :=
  (x.symbols.find? (String.ofList use.name)).map fun target =>
    ⟨file, target, use.kind, String.ofList use.details⟩

/-- Whether the edges of a source depend on the root of its project. -/
def needsRoot (text : List Char) (language : Language) : Bool :=
  needsProject language && !(importSpecs language (maskComments language.rawQuote text)).isEmpty

/-- The edges that start at a file with this text, if its project has this root. -/
def edgesWith (x : Extractor) (tree : Tree) (workingDirectory : Path) (root : Option Path)
    (file : String) (text : List Char) (language : Language) : Except Fault Scan := do
  let masked := maskComments language.rawQuote text
  let imports := ((importSpecs language masked).map
    (importScan tree workingDirectory root language file)).foldl Scan.append {}
  let uses ← symbolUses language masked
  return imports ++ ⟨uses.filterMap (x.symbolEdge? file), []⟩

/-- The edges that start at a file with this text. -/
def extract (x : Extractor) (tree : Tree) (workingDirectory : Path) (file : String)
    (text : List Char) (language : Language) : Except Fault (Scan × Extractor) := do
  let (root, x) ←
    if needsRoot text language then x.projectRoot tree workingDirectory (Path.ofString file)
    else .ok (none, x)
  return (← x.edgesWith tree workingDirectory root file text language, x)

/-- The edges that start at a file with this text, in a language that may be unknown. -/
def extractIn (x : Extractor) (tree : Tree) (workingDirectory : Path) (file : String)
    (text : List Char) : Option Language → Except Fault (Scan × Extractor)
  | some language => x.extract tree workingDirectory file text language
  | none => .ok ({}, x)

/-- The edges that start at a file of the tree; none if there is no text to read. -/
def scanFile (x : Extractor) (tree : Tree) (workingDirectory : Path) (file : String)
    (language : Language) : Except Fault (Scan × Extractor) :=
  match tree.read workingDirectory (Path.ofString file) with
  | .ok read => x.extract tree workingDirectory file read.text language
  | .error .nulInPath => .error .nulInPath
  | .error _ => .ok (⟨[], [.skippingEdges file]⟩, x)

/-- The edges that start at each of several files, one file after another. -/
def scanFiles (x : Extractor) (tree : Tree) (workingDirectory : Path) :
    List SourceFile → Except Fault (Scan × Extractor)
  | [] => .ok ({}, x)
  | file :: rest => do
    let (scan, x) ← x.scanFile tree workingDirectory file.path file.language
    let (more, x) ← x.scanFiles tree workingDirectory rest
    return (scan ++ more, x)

/-- All edges between files of the table, in its order, by scanning one file after another. -/
def extractInOrder (x : Extractor) (tree : Tree) (workingDirectory : Path) :
    Except Fault (Scan × Extractor) :=
  x.scanFiles tree workingDirectory x.table

end Extractor

end ServiceMap
