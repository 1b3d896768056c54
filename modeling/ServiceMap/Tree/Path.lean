import ServiceMap.Text.Blank
import ServiceMap.Text.Find
import ServiceMap.Text.Lines
import ServiceMap.Text.Quoted

/-!
# Paths

Paths as sequences of names. Repeated slashes and single dots do not count; two dots are kept until
a path is resolved. A path that starts with exactly two slashes keeps both.
-/

namespace ServiceMap

open Text

/-- A path of the file system. -/
structure Path where
  /-- The number of slashes in front: none for a relative path, one or two for an absolute one. -/
  slashes : Nat := 0
  names : List String := []
deriving DecidableEq, Repr, BEq

namespace Path

/-- The character that no path of a file system may hold. -/
def isNul (c : Char) : Bool :=
  c == Char.ofNat 0

/-- The wording for a path that holds the NUL character. -/
def nulMessage : String := "embedded null byte"

/-- The path that a text denotes. -/
def ofString (text : String) : Path :=
  let s := text.toList
  let front := (s.takeWhile (· == '/')).length
  let names := (splitOn (· == '/') s).filter fun name => !name.isEmpty && name != ['.']
  ⟨if front == 0 then 0 else if front == 2 then 2 else 1, names.map String.ofList⟩

/-- The text of a path; a single dot for the empty relative path. -/
def toText (p : Path) : List Char :=
  let names := join ['/'] (p.names.map String.toList)
  if p.slashes == 0 && names.isEmpty then ['.']
  else List.replicate p.slashes '/' ++ names

/-- Whether a path holds the NUL character. -/
def hasNul (p : Path) : Bool :=
  p.toText.any isNul

/-- The text of a path as a string. -/
def toString (p : Path) : String :=
  String.ofList p.toText

instance : ToString Path := ⟨Path.toString⟩

/-- The most bytes in a path. -/
def longest : Nat := 4095

/-- The most bytes in a name. -/
def longestName : Nat := 255

/-- Whether a path has more bytes than file systems allow. -/
def isTooLong (p : Path) : Bool :=
  longest < p.toString.utf8ByteSize

/-- The wording for a path that is too long, or that has a name which is. -/
def tooLongMessage (p : Path) : String :=
  "[Errno 36] File name too long: " ++ quoteString p.toString

/-- Whether the path starts at the root. -/
def isAbsolute (p : Path) : Bool :=
  p.slashes != 0

/-- The last name; empty if there is none. -/
def name (p : Path) : String :=
  p.names.getLast?.getD ""

/-- The path without its last name. -/
def parent (p : Path) : Path :=
  { p with names := p.names.dropLast }

/-- The path one name further down. -/
def child (p : Path) (name : String) : Path :=
  { p with names := p.names ++ [name] }

/-- A path taken relative to another one; an absolute path stays as it is. -/
def append (p q : Path) : Path :=
  if q.isAbsolute then q else { p with names := p.names ++ q.names }

instance : Append Path := ⟨append⟩

/-- Names read backwards, and what is left as they are dropped one by one. -/
def dropLasts : (reversed : List String) → List (List String)
  | [] => [[]]
  | name :: outer => (name :: outer).reverse :: dropLasts outer

/-- The path itself, its parent, and so on up to the path without names. -/
def upward (p : Path) : List Path :=
  (dropLasts p.names.reverse).map fun names => { p with names }

/-- Where the ending of a file name starts: at its last dot, unless that is the first or the last
character. -/
def endingStart? (name : List Char) : Option Nat :=
  match findLast? '.' name with
  | some i => if 0 < i && i + 1 < name.length then some i else none
  | none => none

/-- The last name without its ending. -/
def stem (p : Path) : List Char :=
  let name := p.name.toList
  match endingStart? name with
  | some i => name.take i
  | none => name

/-- The ending of the last name, with its dot; empty if there is none. -/
def ending (p : Path) : List Char :=
  let name := p.name.toList
  match endingStart? name with
  | some i => name.drop i
  | none => []

/-- Names with every pair of a name and two dots after it taken out. Leading pairs of dots stay in
a relative path and are dropped in an absolute one; `done` holds the names so far, last first. -/
def collapse (absolute : Bool) (done : List String) : List String → List String
  | [] => done.reverse
  | ".." :: rest =>
    match done with
    | [] => if absolute then collapse absolute [] rest else collapse absolute [".."] rest
    | ".." :: _ => collapse absolute (".." :: done) rest
    | _ :: outer => collapse absolute outer rest
  | name :: rest => collapse absolute (name :: done) rest

/-- The path with two dots taken out as far as possible, without a look at any tree. -/
def normalized (p : Path) : Path :=
  { p with names := collapse p.isAbsolute [] p.names }

/-- The absolute path without two dots that a path denotes in a working directory. -/
def resolve (p workingDirectory : Path) : Path :=
  ⟨1, collapse true [] (workingDirectory ++ p).names⟩

/-- The part of a path below a directory, if it lies there. -/
def relativeTo? (p directory : Path) : Option Path :=
  if directory.slashes == p.slashes && directory.names.isPrefixOf p.names then
    some ⟨0, p.names.drop directory.names.length⟩
  else none

/-- The text after the last slash of a path's text. -/
def baseName (text : String) : String :=
  String.ofList (afterLast '/' text.toList)

end Path

end ServiceMap
