import ServiceMap.Facts.Instant
import ServiceMap.Text.Lines
import ServiceMap.Tree.Path

/-!
# File trees

A tree of directories and files as a value, and how paths are looked up in it. A lookup follows two
dots through the tree, so that what stands before them has to be a directory.
-/

namespace ServiceMap

/-- A file or a directory. -/
inductive Node where
  /-- A file with its bytes and the time of its last change. -/
  | file (content : ByteArray) (modified : Instant)
  /-- A directory with its entries. -/
  | dir (entries : List (String × Node))

/-- A tree, by its root directory. -/
abbrev Tree := Node

/-- Why a lookup failed. -/
inductive LookupFault where
  /-- There is nothing at this path. -/
  | missing
  /-- The path or one of its names is longer than file systems allow. -/
  | tooLong
deriving DecidableEq, Repr

namespace Node

/-- The entry of a directory under a name. -/
def entry? (entries : List (String × Node)) (name : String) : Option Node :=
  entries.lookup name

/-- What stands at the end of a sequence of names; `above` holds the directories on the way to
`here`, the nearest first. -/
def descend (above : List Node) (here : Node) : List String → Except LookupFault Node
  | [] => .ok here
  | name :: rest =>
    match here with
    | .file .. => .error .missing
    | .dir entries =>
      if name == ".." then
        match above with
        | [] => descend [] here rest
        | outer :: above => descend above outer rest
      else if Path.longestName < name.utf8ByteSize then .error .tooLong
      else
        match entry? entries name with
        | none => .error .missing
        | some node => descend (here :: above) node rest

end Node

namespace Tree

/-- What stands at a path, relative paths being taken from a working directory. Nothing stands at a
path that holds the NUL character. -/
def find (tree : Tree) (workingDirectory path : Path) : Except LookupFault Node :=
  if path.hasNul then .error .missing
  else if path.isTooLong then .error .tooLong
  else Node.descend [] tree (workingDirectory ++ path).names

/-- What stands at a path, if anything. -/
def find? (tree : Tree) (workingDirectory path : Path) : Option Node :=
  (tree.find workingDirectory path).toOption

/-- The names in the directory at a path; none if there is no directory. -/
def list? (tree : Tree) (workingDirectory path : Path) : Option (List String) :=
  match tree.find? workingDirectory path with
  | some (.dir entries) => some (entries.map Prod.fst)
  | _ => none

/-- Entries with a name set to a node, in its place or at the end. -/
def setEntry (name : String) (node : Node) : List (String × Node) → List (String × Node)
  | [] => [(name, node)]
  | (other, old) :: rest =>
    if other == name then (name, node) :: rest else (other, old) :: setEntry name node rest

/-- The tree with a node put at a sequence of names. Missing directories on the way are made; a
file on the way gives way to a directory. -/
def put (node : Node) : List String → Tree → Tree
  | [], _ => node
  | name :: rest, here =>
    let entries := match here with
      | .dir entries => entries
      | .file .. => []
    let old := (Node.entry? entries name).getD (.dir [])
    .dir (setEntry name (put node rest old) entries)

/-- The tree without what stands at a sequence of names. -/
def erase : List String → Tree → Tree
  | [], _ => .dir []
  | [name], .dir entries => .dir (entries.filter fun entry => entry.1 != name)
  | name :: rest, .dir entries =>
    match Node.entry? entries name with
    | some node => .dir (setEntry name (erase rest node) entries)
    | none => .dir entries
  | _ :: _, file => file

end Tree

/-- A file as it is read: its text and the time of its last change. -/
structure ReadFile where
  text : List Char
  modified : Instant

/-- Why a file cannot be read. -/
inductive ReadFault where
  /-- There is no file at the path. -/
  | missing
  /-- The path or one of its names is longer than file systems allow. -/
  | tooLong
  /-- There is a directory at the path. -/
  | directory
  /-- The bytes are not a text in UTF-8. -/
  | notUtf8
  /-- The path holds the NUL character. -/
  | nulInPath
deriving DecidableEq, Repr

/-- The text of bytes in UTF-8. -/
def decodeUtf8? (bytes : ByteArray) : Option (List Char) :=
  (String.fromUTF8? bytes).map String.toList

namespace Tree

/-- Reads the file at a path. Line breaks are read as newlines. -/
def read (tree : Tree) (workingDirectory path : Path) : Except ReadFault ReadFile :=
  if path.hasNul then .error .nulInPath
  else
    match tree.find workingDirectory path with
    | .error .missing => .error .missing
    | .error .tooLong => .error .tooLong
    | .ok (.dir _) => .error .directory
    | .ok (.file content modified) =>
      match decodeUtf8? content with
      | none => .error .notUtf8
      | some text => .ok ⟨Text.normalizeNewlines text, modified⟩

end Tree

end ServiceMap
