import ServiceMap.Facts.Reading
import ServiceMap.Log.Note
import ServiceMap.Tree.Project

/-!
# Imports

The imports a source declares, the files each may stand for, and the first of these that exists.
-/

namespace ServiceMap.Link

open Text Source Pattern

/-- An import of Go: a list in parentheses, under 1, or a single one, under 2. -/
def goImport : Pattern :=
  wordEdge ++ lit "import" ++ blanks1
    ++ ((lit "(" ++ capture 1 (many (· != ')')) ++ lit ")")
      <|> (opt (dottedWord ++ blanks1) ++ quoted1 2))

/-- A quoted text. -/
def quotedSpec : Pattern :=
  quoted1 1

/-- An import of Java. -/
def javaImport : Pattern :=
  wordEdge ++ lit "import" ++ blanks1 ++ opt (lit "static" ++ blanks1)
    ++ capture 1 (many1 (· != ';')) ++ lit ";"

/-- A using directive of C#. -/
def csharpUsing : Pattern :=
  wordEdge ++ lit "using" ++ blanks1 ++ opt (lit "static" ++ blanks1)
    ++ opt (word ++ blanks ++ lit "=" ++ blanks) ++ capture 1 dottedWord ++ blanks ++ lit ";"

/-- What the imports of a masked source name, in its order. -/
def importSpecs : Language → (masked : List Char) → List (List Char)
  | .go, masked => (goImport.findAll masked).flatMap fun m =>
      match m.group? 2 with
      | some spec => [spec]
      | none => (quotedSpec.findAll (m.group 1)).map fun q => q.group 1
  | .java, masked => (javaImport.findAll masked).map fun m => trim (m.group 1)
  | .csharp, masked => (csharpUsing.findAll masked).map fun m => trim (m.group 1)

/-- Whether an import is looked for below a project's root. -/
def needsProject : Language → Bool
  | .go => false
  | .java => true
  | .csharp => true

/-- A dotted name as a path with an ending. -/
def dottedPath (spec : List Char) (ending : String) : Path :=
  Path.ofString (String.ofList (replace ['.'] ['/'] spec) ++ ending)

/-- Where an import of Java may be found: below the source folders of the project and beside the
importing file. -/
def javaCandidates (root : Option Path) (source : Path) (spec : List Char) : List Path :=
  match root with
  | none => []
  | some root =>
    let relative := dottedPath spec ".java"
    [((root.child "src").child "main").child "java" ++ relative, root.child "src" ++ relative,
      source.parent ++ relative]

/-- Where a using directive may lead: below the project's root and beside the file. -/
def csharpCandidates (root : Option Path) (source : Path) (spec : List Char) : List Path :=
  match root with
  | none => []
  | some root =>
    let relative := dottedPath spec ".cs"
    [root ++ relative, source.parent ++ relative]

/-- The first of the Go files in a directory, by name. -/
def firstGoFile? (names : List String) : Option String :=
  ((names.filter fun name => endsWith ".go".toList name.toList).mergeSort
    fun a b => decide (a ≤ b)).head?

/-- What a relative import of Go stands for, before a look at the tree: a path without pairs of
dots. -/
def goTarget? (source : Path) (spec : List Char) : Option Path :=
  if ['.', '/'].isPrefixOf spec || ['.', '.', '/'].isPrefixOf spec then
    let base := (source.parent ++ Path.ofString (String.ofList spec)).normalized
    if base.name == "" then none else some base
  else none

/-- Where an import of Go may be found: the file of its name, and the first file of the directory of
its name. Only relative imports are looked for. -/
def goCandidates (tree : Tree) (workingDirectory source : Path) (spec : List Char) :
    List Path × List Note :=
  match goTarget? source spec with
  | none => ([], [])
  | some base =>
    let file := base.parent.child (base.name ++ ".go")
    match tree.find workingDirectory base with
    | .ok (.dir entries) =>
      match firstGoFile? (entries.map Prod.fst) with
      | some name => ([file, base.child name], [])
      | none => ([file], [])
    | .error .tooLong => ([file], [.cannotList base])
    | _ => ([file], [])

/-- Where an import may be found, with notes about what could not be looked at. -/
def candidates (tree : Tree) (workingDirectory : Path) (root : Option Path) (language : Language)
    (source : Path) (spec : List Char) : List Path × List Note :=
  match language with
  | .go => goCandidates tree workingDirectory source spec
  | .java => (javaCandidates root source spec, [])
  | .csharp => (csharpCandidates root source spec, [])

/-- The first path at which there is a file, with notes about paths that could not be looked at. -/
def firstFile (tree : Tree) (workingDirectory : Path) (spec : List Char) :
    List Path → Option Path × List Note
  | [] => (none, [])
  | candidate :: rest =>
    match tree.find workingDirectory candidate with
    | .ok (.file ..) => (some candidate, [])
    | .error .tooLong =>
      let (found, notes) := firstFile tree workingDirectory spec rest
      (found, .cannotProbe candidate (String.ofList spec) :: notes)
    | _ => firstFile tree workingDirectory spec rest

/-- The file that an import stands for. -/
def resolveImport (tree : Tree) (workingDirectory : Path) (root : Option Path)
    (language : Language) (source : Path) (spec : List Char) : Option Path × List Note :=
  let (paths, notes) := candidates tree workingDirectory root language source spec
  let (found, more) := firstFile tree workingDirectory spec paths
  (found, notes ++ more)

end ServiceMap.Link
