/-!
# Lines

Two notions of line live here. Lines of a document end at any line-breaking character, a carriage
return followed by a newline counting as one break. Line *numbers* count newline characters only.
-/

namespace ServiceMap.Text

/-- Characters at which a document's line ends. -/
def isLineBreak (c : Char) : Bool :=
  let n := c.toNat
  (10 ≤ n && n ≤ 13) || (28 ≤ n && n ≤ 30) || n == 0x85 || n == 0x2028 || n == 0x2029

/-- The lines of a document without their breaks. A break at the very end opens no further line. -/
def lines : List Char → List (List Char)
  | [] => []
  | '\r' :: '\n' :: s => [] :: lines s
  | c :: s =>
    if isLineBreak c then [] :: lines s
    else
      match lines s with
      | [] => [[c]]
      | line :: rest => (c :: line) :: rest

/-- The number of newlines in a text. -/
def newlines (s : List Char) : Nat :=
  s.count '\n'

/-- The number, from 1, of the line that holds position `index`. -/
def lineNumber (text : List Char) (index : Nat) : Nat :=
  newlines (text.take index) + 1

/-- Carriage returns, alone or before a newline, read as newlines. -/
def normalizeNewlines : List Char → List Char
  | [] => []
  | '\r' :: '\n' :: s => '\n' :: normalizeNewlines s
  | c :: s => (if c = '\r' then '\n' else c) :: normalizeNewlines s

/-- Several texts with a separator between each two. -/
def join (separator : List Char) : List (List Char) → List Char
  | [] => []
  | [s] => s
  | s :: rest => s ++ separator ++ join separator rest

/-- Texts joined by newlines. -/
def joinLines (parts : List (List Char)) : List Char :=
  join ['\n'] parts

end ServiceMap.Text
