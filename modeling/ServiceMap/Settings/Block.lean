import ServiceMap.Settings.Tag

/-!
# Block scalars

Scalars that are written as lines of their own after a vertical bar or an angle bracket. After a bar
every line break counts; after a bracket the single break between two lines that do not start with
a blank is read as a space. What becomes of the breaks after the last line is stated beside the
mark, and so may be the indentation, which otherwise is that of the first line.
-/

namespace ServiceMap.Settings

/-- What becomes of the line breaks after the last line of a scalar. -/
inductive Chomping where
  /-- None is kept. -/
  | strip
  /-- The first is kept. -/
  | clip
  /-- All are kept. -/
  | keep
deriving DecidableEq, Repr

/-- The sign for what becomes of the last line breaks. -/
def Chomping.ofSign? (c : Char) : Option Chomping :=
  if c == '+' then some .keep else if c == '-' then some .strip else none

/-- The digit for the indentation; zero is none. -/
def readIndentDigit (c : Cursor) : Except DocumentFault (Option Nat × Cursor) :=
  if c.current == '0' then .error .malformed
  else if c.current.isDigit then .ok (some (c.current.toNat - '0'.toNat), c.next)
  else .ok (none, c)

/-- What is stated after the mark of a block scalar, in either order, up to the next line. -/
def readBlockHeader (c : Cursor) : Except DocumentFault (Chomping × Option Nat × Cursor) := do
  let (chomping, indent?, c) ←
    match Chomping.ofSign? c.current with
    | some chomping => do
      let (indent?, c) ← readIndentDigit c.next
      .ok (chomping, indent?, c)
    | none => do
      let (indent?, c) ← readIndentDigit c
      match indent?, Chomping.ofSign? c.current with
      | some _, some chomping => .ok (chomping, indent?, c.next)
      | _, _ => .ok (.clip, indent?, c)
  if isStop c.current then return (chomping, indent?, ← readLineEnd c) else .error .malformed

/-- The position after spaces before a column. -/
def skipIndent (indent : Nat) (c : Cursor) : Cursor :=
  c.skip (min (c.rest.takeWhile (· == ' ')).length (indent - c.column))

/-- The line breaks of empty lines, with spaces before a column passed over. -/
def readEmptyLines (indent : Nat) : (fuel : Nat) → Cursor → List Char × Cursor
  | 0, c => ([], c)
  | fuel + 1, c =>
    let c := skipIndent indent c
    match c.lineBreak? with
    | some (br, c) =>
      let (breaks, after) := readEmptyLines indent fuel c
      (br :: breaks, after)
    | none => ([], c)

/-- The line breaks of empty lines at the start, and the greatest column that their spaces and those
of the first other line reach. -/
def readFirstLines : (fuel : Nat) → Cursor → List Char × Nat × Cursor
  | 0, c => ([], 0, c)
  | fuel + 1, c =>
    let spaces := c.rest.takeWhile (· == ' ')
    let c := c.skip spaces.length
    let reached := if spaces.isEmpty then 0 else c.column
    match c.lineBreak? with
    | some (br, c) =>
      let (breaks, most, after) := readFirstLines fuel c
      (br :: breaks, max reached most, after)
    | none => ([], reached, c)

/-- Whether a line of a block scalar starts at the position. -/
def atBlockLine (indent : Nat) (c : Cursor) : Bool :=
  c.column == indent && !c.atEnd

/-- Blanks within a line. -/
def isInlineBlank (c : Char) : Bool := c == ' ' || c == '\t'

/-- The lines of a block scalar after the breaks given: their text, the break after the last of
them, the breaks of the empty lines after that one, and the position behind. -/
def readBlockLines (folded : Bool) (indent : Nat) : (fuel : Nat) → Cursor → (breaks : List Char) →
    List Char × List Char × List Char × Cursor
  | 0, c, breaks => ([], [], breaks, c)
  | fuel + 1, c, breaks =>
    if !atBlockLine indent c then ([], [], breaks, c)
    else
      let (line, after) := c.readWhile fun ch => !isBreak ch
      let (lineBreak, after) := match after.lineBreak? with
        | some (br, after) => ([br], after)
        | none => ([], after)
      let (others, after) := readEmptyLines indent after.rest.length.succ after
      if atBlockLine indent after then
        let folds := folded && lineBreak == ['\n'] && !isInlineBlank c.current
          && !isInlineBlank after.current
        let gap := if !folds then lineBreak else if others.isEmpty then [' '] else []
        let (text, last) := readBlockLines folded indent fuel after others
        (breaks ++ line ++ gap ++ text, last)
      else (breaks ++ line, lineBreak, others, after)

/-- A block scalar at its mark, within a block at a column. -/
def readBlock (folded : Bool) (outer : Int) (c : Cursor) :
    Except DocumentFault (List Char × Cursor) := do
  let (chomping, indent?, c) ← readBlockHeader c.next
  let least := max (outer + 1) 1
  let fuel := c.rest.length + 1
  let (indent, breaks, c) := match indent? with
    | none =>
      let (breaks, most, c) := readFirstLines fuel c
      (max least.toNat most, breaks, c)
    | some more =>
      let indent := least.toNat + more - 1
      let (breaks, c) := readEmptyLines indent fuel c
      (indent, breaks, c)
  let (text, lineBreak, breaks, c) := readBlockLines folded indent fuel c breaks
  let ending := match chomping with
    | .strip => []
    | .clip => lineBreak
    | .keep => lineBreak ++ breaks
  return (text ++ ending, c)

end ServiceMap.Settings
