import ServiceMap.Facts.Reading
import ServiceMap.Log.Note
import ServiceMap.Tree.Discovery

/-!
# Registries

Which languages are read, and reading files of a tree in them.
-/

namespace ServiceMap

open Text

/-- The languages that are read, and names of directories that are passed over. -/
structure Registry where
  languages : List Language := Language.all
  excluded : List String := []
deriving DecidableEq, Repr

namespace Registry

/-- The registry of languages by their names, in any letter case, or of all languages; names of no
language are given back in order, each once. -/
def ofNames (names? : Option (List String)) (excluded : List String) :
    Except (List String) Registry :=
  match names? with
  | none => .ok ⟨Language.all, excluded⟩
  | some names =>
    let names := names.map lowerString
    let unknown := names.filter fun name => (Language.ofLabel? name).isNone
    if unknown.isEmpty then
      .ok ⟨Language.all.filter fun l => names.contains l.label, excluded⟩
    else .error ((unknown.mergeSort fun a b => decide (a ≤ b)).eraseReps)

/-- The endings of source files, in order. -/
def extensions (r : Registry) : List String :=
  (r.languages.map Language.extension).mergeSort fun a b => decide (a ≤ b)

/-- The language of a file by its ending, in any letter case. -/
def languageOf? (r : Registry) (path : Path) : Option Language :=
  let ending := String.ofList (lower path.ending)
  r.languages.find? fun l => l.extension == ending

/-- The facts of a file of the tree, with the notes made on reading it; none if it is in no language
of the registry or has no text to read. -/
def readSource (r : Registry) (tree : Tree) (workingDirectory path : Path) :
    Except Fault (Option SourceFile × List Note) :=
  match r.languageOf? path with
  | none => .ok (none, [])
  | some language =>
    match tree.read workingDirectory path with
    | .error .nulInPath => .error .nulInPath
    | .error _ => .ok (none, [.skipping language path.toString])
    | .ok file => do
      let facts ← SourceFile.read language path.toString file.text
      return (some { facts with modified := some file.modified }, [])

/-- The endings of the languages with one of these names, or of all. -/
def endingsOf (r : Registry) : Option (List String) → List String
  | none => r.languages.map Language.extension
  | some only => (r.languages.filter fun l => only.contains l.label).map Language.extension

end Registry

end ServiceMap
