import ServiceMap.Settings.Basic
import ServiceMap.Settings.Document
import ServiceMap.Tree.Node

/-!
# Settings files

Finding and reading the settings file of a directory. Where there is no file the settings are the
default ones.
-/

namespace ServiceMap

open Text

namespace Settings

/-- The settings file that a path stands for: the one in a directory, or beside another file. -/
def locate (tree : Tree) (workingDirectory path : Path) : Except LoadFault Path :=
  match tree.find workingDirectory path with
  | .error .tooLong => .error (.tooLong path)
  | .ok (.dir _) => .ok (path.child fileName)
  | _ => .ok (if path.name == fileName then path else path.parent.child fileName)

/-- The value of a settings file's text. A blank text states nothing. -/
def readText (text : List Char) : Except LoadFault Value :=
  if text.all isBlank then .ok .null
  else
    match readDocument text with
    | .ok value => .ok value
    | .error .malformed => .error (.invalid .malformed)
    | .error .tooDeep => .error .tooDeep
    | .error (.scalar fault) => .error (.scalar fault)

/-- Loads the settings that a path stands for. -/
def load (tree : Tree) (workingDirectory path : Path) : Except LoadFault Settings := do
  let place ← locate tree workingDirectory path
  if place.hasNul then .error .nulInPath
  else
    let file := place.resolve workingDirectory
    match tree.read workingDirectory file with
    | .error .missing => .ok { root := file.parent }
    | .error .tooLong => .error (.tooLong file)
    | .error .directory => .error .directory
    | .error .notUtf8 => .error .notUtf8
    | .error .nulInPath => .error .nulInPath
    | .ok read => do ofValue file.parent (← readText read.text)

end Settings

end ServiceMap
