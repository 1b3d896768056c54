import ServiceMap.Source.Fault
import ServiceMap.Text.Case

/-!
# Service names and groups

The service that a file belongs to, by its name or else by its directory. A file whose name ends in
one of the usual words for a component belongs to what stands before that word, however it is
written: `UserController`, `user_controller` and `user-controller` all belong to `User`. The groups
are the files of each service, services in the order in which they are first met.
-/

namespace ServiceMap.Service

open Text

/-- Words for components, in the order in which they are tried. -/
def suffixes : List String :=
  ["Controller", "Service", "Handler", "Repository", "Manager", "Provider", "Component"]

/-- The service of files that lie directly in the root. -/
def rootService : String := "Root"

/-- Characters between the words of a name. -/
def isSeparator (c : Char) : Bool :=
  c == '_' || c == '-' || c == '.'

/-- Letters other than the two of ASCII that are the same letter in another case. -/
def caseVariants : List (Char × List Char) :=
  [('s', ['ſ']), ('i', ['İ', 'ı']), ('k', ['\u212A'])]

/-- Whether a character is a given ASCII letter in some case. -/
def sameLetter (letter c : Char) : Bool :=
  c.toLower == letter.toLower
    || ((caseVariants.lookup letter.toLower).getD []).contains c

/-- Whether a text is a word in some letter case. -/
def sameWord : (word text : List Char) → Bool
  | [], [] => true
  | letter :: word, c :: text => sameLetter letter c && sameWord word text
  | _, _ => false

/-- What stands before a suffix at the end of a stem. It is not empty, holds no newline, and a
newline may follow the suffix. -/
def beforeSuffix? (suffix stem : List Char) : Option (List Char) :=
  let stem := if stem.getLast? == some '\n' then stem.dropLast else stem
  let front := stem.take (stem.length - suffix.length)
  if suffix.length < stem.length && sameWord suffix (stem.drop (stem.length - suffix.length))
      && !front.contains '\n' then
    some front
  else none

/-- The name that is made of what stands before a suffix: its words joined, each with a capital
first, if the stem has separators; otherwise as it stands. -/
def joinWords (front stem : List Char) : List Char :=
  let front := dropRight isSeparator front
  if stem.any isSeparator then (splitOn isSeparator front).flatMap upperFirst else front

/-- The name that a stem gives by its suffix: of the first suffix that leaves a name. -/
def nameOfStem? (stem : List Char) : Option (List Char) :=
  suffixes.findSome? fun suffix =>
    (beforeSuffix? suffix.toList stem).bind fun front =>
      let name := joinWords front stem
      if name.isEmpty then none else some name

/-- The service that a file belongs to. A file that no suffix gives a name belongs to its directory,
and to `Root` if that is the analysis root or there is none. -/
def nameOf (workingDirectory : Path) (root : Option Path) (file : String) : String :=
  let path := Path.ofString file
  match nameOfStem? path.stem with
  | some name => String.ofList name
  | none =>
    let directory := path.parent
    if directory.name == "" then rootService
    else if root.any fun r => directory.resolve workingDirectory == r.resolve workingDirectory then
      rootService
    else directory.name

/-- Whether a file's service cannot be told: its directory has to be compared with the root, and one
of the two is no path. -/
def isNameless (root : Option Path) (file : String) : Bool :=
  let path := Path.ofString file
  (nameOfStem? path.stem).isNone && path.parent.name != ""
    && root.any fun r => path.parent.hasNul || r.hasNul

/-- What is made of files by their services, unless one of these cannot be told. -/
def unlessNameless {α : Type} (root : Option Path) (files : List String) (a : α) :
    Except Fault α :=
  if files.any (isNameless root) then .error .nulInPath else .ok a

/-- The service that each of several files belongs to. -/
def namesOf (workingDirectory : Path) (root : Option Path) (files : List String) :
    Except Fault (List String) :=
  unlessNameless root files (files.map (nameOf workingDirectory root))

/-! ## Groups -/

/-- A service's name with its files. -/
abbrev Group := String × List String

/-- Adds a file to the group of its service, or opens the group at the end. -/
def addToGroup (name file : String) : List Group → List Group
  | [] => [(name, [file])]
  | (other, files) :: rest =>
    if other == name then (other, files ++ [file]) :: rest
    else (other, files) :: addToGroup name file rest

/-- The groups of a list of files. -/
def groups (workingDirectory : Path) (root : Option Path) (files : List String) : List Group :=
  files.foldl (fun found file => addToGroup (nameOf workingDirectory root file) file found) []

/-- The groups of a list of files, unless the service of one of them cannot be told. -/
def groupsOf (workingDirectory : Path) (root : Option Path) (files : List String) :
    Except Fault (List Group) :=
  unlessNameless root files (groups workingDirectory root files)

end ServiceMap.Service
