import ServiceMap.Facts.FileTime
import ServiceMap.Text.Lines
import ServiceMap.Tree.Change

/-!
# Listings

A tree as text. A listing names one file a line: its absolute path, the time of its last change in
seconds since 1970, and its bytes in hexadecimal digits, with tabs between them.
-/

namespace ServiceMap

open Text

namespace Listing

/-- The value of a hexadecimal digit. -/
def digit? (c : Char) : Option Nat :=
  if c.isDigit then some (c.toNat - '0'.toNat)
  else if 'a' ≤ c && c ≤ 'f' then some (c.toNat - 'a'.toNat + 10)
  else none

/-- The bytes that pairs of hexadecimal digits denote. -/
def readBytes? : List Char → Option (List UInt8)
  | [] => some []
  | [_] => none
  | high :: low :: rest => do
    let byte := 16 * (← digit? high) + (← digit? low)
    return UInt8.ofNat byte :: (← readBytes? rest)

/-- A byte in two hexadecimal digits. -/
def byteDigits (b : UInt8) : List Char :=
  Nat.toDigits 16 (b.toNat / 16) ++ Nat.toDigits 16 (b.toNat % 16)

/-- The tree with the file that a line names. -/
def addLine? (tree : Tree) (line : String) : Option Tree :=
  match splitOn (· == '\t') line.toList with
  | [path, time, digits] => do
    let modified ← FileTime.ofSeconds? (String.ofList time)
    let bytes ← readBytes? digits
    let names := Tree.place (Path.ofString (String.ofList path)).names
    return Tree.put (.file ⟨bytes.toArray⟩ modified) names tree
  | _ => none

/-- The tree that lines name; lines that name no file are passed over. -/
def readTree (lines : List String) : Tree :=
  lines.foldl (fun tree line => (addLine? tree line).getD tree) (.dir [])

mutual

/-- The files of a node with their names, below the names given. -/
def files (above : List String) : Node → List (List String × ByteArray)
  | .file content _ => [(above, content)]
  | .dir entries => filesOfEntries above entries

/-- The files of entries, below the names given. -/
def filesOfEntries (above : List String) :
    List (String × Node) → List (List String × ByteArray)
  | [] => []
  | (name, node) :: entries => files (above ++ [name]) node ++ filesOfEntries above entries

end

/-- Files that a tree has and an earlier one has not, or not with these bytes. -/
def changes (before after : Tree) : List (List String × ByteArray) :=
  (files [] after).filter fun entry =>
    match Node.descend [] before entry.1 with
    | .ok (.file content _) => content.toList != entry.2.toList
    | _ => true

/-- A changed file as a line. -/
def changeLine (entry : List String × ByteArray) : String :=
  (Path.mk 1 entry.1).toString ++ "\t" ++ String.ofList (entry.2.toList.flatMap byteDigits)

end Listing

end ServiceMap
