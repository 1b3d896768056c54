import ServiceMap.Settings.Fault

/-!
# Tokens of settings documents

A settings document is YAML: nested mappings and sequences, in blocks told apart by indentation or
in flow style between brackets, with plain, quoted and block scalars, tags, anchors, directives and
comments. This module holds its tokens and the reading position; `ServiceMap.Settings.Scanner` finds
the tokens of a text.
-/

namespace ServiceMap.Settings

/-- A line that says how the document after it is to be read. -/
inductive Directive where
  /-- The version of the rules. -/
  | version (major minor : Nat)
  /-- Tags that start with `handle` start with `start` in full. -/
  | handle (handle start : List Char)
  /-- A directive that means nothing here. -/
  | other
deriving DecidableEq, Repr

/-- A token of a document. -/
inductive Token where
  | directive (directive : Directive)
  | documentStart
  | documentEnd
  /-- There is nothing more. -/
  | streamEnd
  /-- A sequence in a block starts. -/
  | blockSequence
  /-- A mapping in a block starts. -/
  | blockMapping
  /-- The innermost block ends. -/
  | blockEnd
  /-- An entry of a sequence in a block starts. -/
  | blockEntry
  | flowSequence
  | flowSequenceEnd
  | flowMapping
  | flowMappingEnd
  /-- A comma between entries in flow style. -/
  | flowEntry
  /-- The key of a member follows. -/
  | key
  /-- The value of a member follows. -/
  | value
  /-- A name is given to the node that follows. -/
  | anchor (name : List Char)
  /-- The node of this name. -/
  | alias (name : List Char)
  /-- The kind of the node that follows is stated: in full, or after a handle. -/
  | tag (handle : Option (List Char)) (text : List Char)
  /-- A scalar; only a plain one may stand for something else than text by its form. -/
  | scalar (text : List Char) (plain : Bool)
  /-- No further token can be found, for this reason. -/
  | fault (cause : DocumentFault)
deriving DecidableEq, Repr

/-- A reading position. -/
structure Cursor where
  rest : List Char
  /-- The number of characters before. -/
  index : Nat := 0
  /-- The number of line breaks before. -/
  line : Nat := 0
  /-- The number of characters since the last line break. -/
  column : Nat := 0
deriving DecidableEq, Repr

/-- The mark that may open a text and takes no column. -/
def byteOrderMark : Char := '\uFEFF'

/-- What stands for the end of the text. -/
def endMark : Char := Char.ofNat 0

/-- Characters that break a line. -/
def isBreak (c : Char) : Bool :=
  c == '\n' || c == '\r' || c == '\u0085' || c == '\u2028' || c == '\u2029'

/-- Blanks, line breaks and the end. -/
def isGap (c : Char) : Bool :=
  c == ' ' || c == '\t' || c == endMark || isBreak c

/-- Blanks but tabs, line breaks and the end. -/
def isStop (c : Char) : Bool :=
  c == ' ' || c == endMark || isBreak c

/-- Characters of the names of anchors, directives and handles. -/
def isNameChar (c : Char) : Bool :=
  c.isAlphanum || c == '-' || c == '_'

/-- Characters that have a meaning of their own in flow style. -/
def isFlowMark (c : Char) : Bool :=
  c == ',' || c == '[' || c == ']' || c == '\x7b' || c == '\x7d'

/-- Characters that a document may hold. -/
def isAllowed (c : Char) : Bool :=
  let n := c.toNat
  n == 9 || n == 10 || n == 13 || (0x20 ≤ n && n ≤ 0x7E) || n == 0x85
    || (0xA0 ≤ n && n ≤ 0xD7FF) || (0xE000 ≤ n && n ≤ 0xFFFD) || 0x10000 ≤ n

namespace Cursor

/-- The character `n` places on. -/
def peek (c : Cursor) (n : Nat) : Char :=
  (c.rest.drop n).head?.getD endMark

/-- The character at the position. -/
def current (c : Cursor) : Char :=
  c.rest.head?.getD endMark

/-- The position one character on. -/
def next (c : Cursor) : Cursor :=
  match c.rest with
  | [] => c
  | ch :: rest =>
    if ch == '\n' || ch == '\u0085' || ch == '\u2028' || ch == '\u2029'
        || (ch == '\r' && rest.head? != some '\n') then
      ⟨rest, c.index + 1, c.line + 1, 0⟩
    else if ch == byteOrderMark then ⟨rest, c.index + 1, c.line, c.column⟩
    else ⟨rest, c.index + 1, c.line, c.column + 1⟩

/-- The position `n` characters on. -/
def skip (c : Cursor) : (n : Nat) → Cursor
  | 0 => c
  | n + 1 => c.next.skip n

/-- The position after the characters that satisfy `p`. -/
def skipWhile (p : Char → Bool) (c : Cursor) : Cursor :=
  c.skip (c.rest.takeWhile p).length

/-- The characters that satisfy `p`, and the position after them. -/
def readWhile (p : Char → Bool) (c : Cursor) : List Char × Cursor :=
  let read := c.rest.takeWhile p
  (read, c.skip read.length)

/-- Whether the text ends at the position. -/
def atEnd (c : Cursor) : Bool :=
  c.rest.isEmpty

/-- The line break at the position, as it is read, and the position after it. A carriage return
with a newline is one break; all but the two separators are read as newlines. -/
def lineBreak? (c : Cursor) : Option (Char × Cursor) :=
  let ch := c.current
  if ch == '\r' && c.peek 1 == '\n' then some ('\n', c.skip 2)
  else if ch == '\r' || ch == '\n' || ch == '\u0085' then some ('\n', c.next)
  else if ch == '\u2028' || ch == '\u2029' then some (ch, c.next)
  else none

/-- The position after the line break there, if there is one. -/
def skipBreak (c : Cursor) : Cursor :=
  match c.lineBreak? with
  | some (_, c) => c
  | none => c

/-- Whether a mark of three equal characters stands at the position with a gap after it. -/
def atMark (mark : Char) (c : Cursor) : Bool :=
  [mark, mark, mark].isPrefixOf c.rest && isGap (c.peek 3)

/-- Whether the document ends or another one starts at the position. -/
def atDocumentMark (c : Cursor) : Bool :=
  c.atMark '-' || c.atMark '.'

end Cursor

end ServiceMap.Settings
