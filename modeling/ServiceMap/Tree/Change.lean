import ServiceMap.Text.Quoted
import ServiceMap.Tree.Node

/-!
# Changing trees

Making directories, writing files at paths and removing what stands there. Directories on the way
to a path are made one after another, also those that two dots lead out of again. What is made
before a fault is met stays.
-/

namespace ServiceMap

/-- Why a file or directory cannot be made or removed. -/
inductive WriteFault where
  /-- There is nothing to be removed. -/
  | missing (path : Path)
  /-- There is a file where a directory is to be made. -/
  | occupied (path : Path)
  /-- A file stands on the way to a path. -/
  | notDirectory (path : Path)
  /-- There is a directory where a file is to be written. -/
  | isDirectory (path : Path)
  /-- The path or one of its names is longer than file systems allow. -/
  | tooLong (path : Path)
  /-- The path holds the NUL character. -/
  | nulInPath
deriving DecidableEq, Repr

/-- The wording of a fault. -/
def WriteFault.message : WriteFault → String
  | missing path => "[Errno 2] No such file or directory: " ++ Text.quoteString path.toString
  | occupied path => "[Errno 17] File exists: " ++ Text.quoteString path.toString
  | notDirectory path => "[Errno 20] Not a directory: " ++ Text.quoteString path.toString
  | isDirectory path => "[Errno 21] Is a directory: " ++ Text.quoteString path.toString
  | tooLong path => path.tooLongMessage
  | nulInPath => Path.nulMessage

/-- A tree after a change, and the fault that the change has ended at, if any. -/
structure Changed where
  tree : Tree
  fault : Option WriteFault := none

/-- One change after another; after a fault nothing follows. -/
def Changed.andThen (first : Changed) (next : Tree → Changed) : Changed :=
  match first.fault with
  | some _ => first
  | none => next first.tree

namespace Tree

/-- Names without two dots, for a place in a tree. -/
def place (names : List String) : List String :=
  Path.collapse true [] names

/-- Makes the directories along `todo`, below the names in `done`; `path` is the whole path, and
`begun` tells whether some have been made. A file on the way is met on a look at the whole path,
unless what stands before it has to be made first. -/
def makeAlong (path : Path) : (begun : Bool) → (done todo : List String) → Tree → Changed
  | _, _, [], tree => { tree }
  | begun, done, name :: todo, tree =>
    let here := done ++ [name]
    match Node.descend [] tree (place here) with
    | .ok (.dir _) => makeAlong path begun here todo tree
    | .ok (.file ..) =>
      ⟨tree, some (if begun || todo.isEmpty then .occupied path else .notDirectory path)⟩
    | .error .tooLong => ⟨tree, some (.tooLong path)⟩
    | .error .missing => makeAlong path true here todo (put (.dir []) (place here) tree)

/-- Makes a directory at a path, and all directories on the way to it. -/
def makeDirectories (tree : Tree) (workingDirectory path : Path) : Changed :=
  if path.hasNul then ⟨tree, some .nulInPath⟩
  else if path.isTooLong then ⟨tree, some (.tooLong path)⟩
  else makeAlong path false [] (workingDirectory ++ path).names tree

/-- The bytes of the file at a path; none where there is no file. -/
def bytesAt (tree : Tree) (workingDirectory path : Path) : ByteArray :=
  match tree.find? workingDirectory path with
  | some (.file content _) => content
  | _ => .empty

/-- Writes a file of this content at a path whose directory exists. -/
def writeBytes (tree : Tree) (workingDirectory path : Path) (content : ByteArray)
    (modified : Instant) : Changed :=
  let names := place (workingDirectory ++ path).names
  if path.hasNul then ⟨tree, some .nulInPath⟩
  else if path.isTooLong then ⟨tree, some (.tooLong path)⟩
  else
    match Node.descend [] tree names with
    | .ok (.dir _) => ⟨tree, some (.isDirectory path)⟩
    | .error .tooLong => ⟨tree, some (.tooLong path)⟩
    | _ => { tree := put (.file content modified) names tree }

/-- Writes a file at a path, and makes all directories on the way to it. -/
def writeFile (tree : Tree) (workingDirectory path : Path) (content : ByteArray)
    (modified : Instant) : Changed :=
  (tree.makeDirectories workingDirectory path.parent).andThen fun tree =>
    tree.writeBytes workingDirectory path content modified

/-- Writes a text file at a path, and makes all directories on the way to it. -/
def writeText (tree : Tree) (workingDirectory path : Path) (text : String) (modified : Instant) :
    Changed :=
  tree.writeFile workingDirectory path text.toUTF8 modified

/-- Adds a text to the file at a path, and makes all directories on the way to it. -/
def appendText (tree : Tree) (workingDirectory path : Path) (text : String) (modified : Instant) :
    Changed :=
  (tree.makeDirectories workingDirectory path.parent).andThen fun tree =>
    tree.writeBytes workingDirectory path
      (tree.bytesAt workingDirectory path ++ text.toUTF8) modified

/-- Whether a file stands on the way to a sequence of names. -/
def hasFileBefore (tree : Tree) (names : List String) : Bool :=
  (List.range names.length).any fun n =>
    match Node.descend [] tree (names.take n) with
    | .ok (.file ..) => true
    | _ => false

/-- Removes the file or the directory at a path. -/
def remove (tree : Tree) (workingDirectory path : Path) : Changed :=
  match tree.find workingDirectory path with
  | .ok _ => { tree := erase (place (workingDirectory ++ path).names) tree }
  | .error .tooLong => ⟨tree, some (.tooLong path)⟩
  | .error .missing =>
    ⟨tree, some (if path.hasNul then .nulInPath
      else if hasFileBefore tree (workingDirectory ++ path).names then .notDirectory path
      else .missing path)⟩

end Tree

end ServiceMap
