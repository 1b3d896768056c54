import ServiceMap.Settings.Block
import ServiceMap.Settings.Quoting

/-!
# Finding tokens

The tokens of a document. Indentation is turned into tokens that open and close blocks. That a
scalar is a key shows only at the colon after it, so a place where a key may have started is kept
in mind until then, and the token that announces the key is put in front of it. Where no further
token can be found, those that are certain by then are followed by the reason.
-/

namespace ServiceMap.Settings

/-- A place where the key of a member may have started. -/
structure PossibleKey where
  /-- How many brackets are open there. -/
  level : Nat
  /-- The number of tokens before. -/
  tokenNumber : Nat
  /-- Whether nothing but a key may stand there. -/
  required : Bool
  index : Nat
  line : Nat
  column : Nat
deriving DecidableEq, Repr

/-- The state of finding tokens. -/
structure Scanner where
  cursor : Cursor
  tokens : Array Token := #[]
  /-- How many brackets are open. -/
  level : Nat := 0
  /-- The column of the innermost block. -/
  indent : Int := -1
  /-- The columns of the blocks around it, the nearest first. -/
  outer : List Int := []
  /-- Whether the key of a member may start at the position. -/
  keyAllowed : Bool := true
  possibleKeys : List PossibleKey := []

namespace Scanner

/-- Adds a token. -/
def emit (s : Scanner) (t : Token) : Scanner :=
  { s with tokens := s.tokens.push t }

/-- Moves to a position. -/
def moveTo (s : Scanner) (c : Cursor) : Scanner :=
  { s with cursor := c }

/-- Allows or forbids a key at the position. -/
def allowKey (s : Scanner) (allowed : Bool) : Scanner :=
  { s with keyAllowed := allowed }

/-- The longest key, in characters. -/
def longestKey : Nat := 1024

/-- Whether a key that started at a place would end on another line or is too long by now. -/
def isStale (s : Scanner) (k : PossibleKey) : Bool :=
  k.line != s.cursor.line || longestKey < s.cursor.index - k.index

/-- Forgets places where no key can have started any more; one that had to be a key is an error. -/
def dropStale (s : Scanner) : Except DocumentFault Scanner :=
  if s.possibleKeys.any fun k => s.isStale k && k.required then .error .malformed
  else .ok { s with possibleKeys := s.possibleKeys.filter fun k => !s.isStale k }

/-- Forgets the place at this level of brackets; one that had to be a key is an error. -/
def dropKey (s : Scanner) : Except DocumentFault Scanner :=
  if s.possibleKeys.any fun k => k.level == s.level && k.required then .error .malformed
  else .ok { s with possibleKeys := s.possibleKeys.filter fun k => k.level != s.level }

/-- Keeps the position in mind as the start of a key, if one may start there. -/
def saveKey (s : Scanner) : Except DocumentFault Scanner :=
  if s.keyAllowed then do
    let s ← s.dropKey
    let key : PossibleKey := {
      level := s.level
      tokenNumber := s.tokens.size
      required := s.level == 0 && s.indent == (s.cursor.column : Int)
      index := s.cursor.index
      line := s.cursor.line
      column := s.cursor.column }
    return { s with possibleKeys := key :: s.possibleKeys }
  else .ok s

/-- Closes the blocks that are indented by more than a column. -/
def closeBlocks (column : Int) : (outer : List Int) → Scanner → Scanner
  | [], s => s
  | indent :: outer, s =>
    if column < s.indent then closeBlocks column outer { s.emit .blockEnd with indent, outer }
    else s

/-- Closes the blocks that end at a column. Between brackets indentation does not count. -/
def unwind (s : Scanner) (column : Int) : Scanner :=
  if s.level == 0 then closeBlocks column s.outer s else s

/-- Opens a block at a column, if it is indented by more than the innermost one; tells whether it
did. -/
def openBlock (s : Scanner) (column : Nat) : Bool × Scanner :=
  if s.indent < (column : Int) then
    (true, { s with indent := column, outer := s.indent :: s.outer })
  else (false, s)

/-- Opens a block at the position with a token, if it is indented by more than the innermost. -/
def openHere (s : Scanner) (t : Token) : Scanner :=
  let (opened, s) := s.openBlock s.cursor.column
  if opened then s.emit t else s

/-- Passes over spaces, comments and line breaks. After a line break outside brackets a key may
start. -/
def skipGap : (fuel : Nat) → Scanner → Scanner
  | 0, s => s
  | fuel + 1, s =>
    let c := s.cursor.skipWhile (· == ' ')
    let c := if c.current == '#' then c.skipWhile fun ch => !isBreak ch else c
    match c.lineBreak? with
    | some (_, c) =>
      let s := s.moveTo c
      skipGap fuel (if s.level == 0 then s.allowKey true else s)
    | none => s.moveTo c

/-- A mark between documents. -/
def documentMark (s : Scanner) (t : Token) : Except DocumentFault Scanner := do
  let s ← (s.unwind (-1)).dropKey
  return ((s.allowKey false).moveTo (s.cursor.skip 3)).emit t

/-- An opening bracket. -/
def openFlow (s : Scanner) (t : Token) : Except DocumentFault Scanner := do
  let s ← s.saveKey
  return ({ s with level := s.level + 1, keyAllowed := true }.moveTo s.cursor.next).emit t

/-- A closing bracket. -/
def closeFlow (s : Scanner) (t : Token) : Except DocumentFault Scanner := do
  if s.level == 0 then .error .malformed
  else
    let s ← s.dropKey
    return ({ s with level := s.level - 1, keyAllowed := false }.moveTo s.cursor.next).emit t

/-- A comma between brackets. -/
def flowEntry (s : Scanner) : Except DocumentFault Scanner := do
  let s ← (s.allowKey true).dropKey
  return (s.moveTo s.cursor.next).emit .flowEntry

/-- A dash that starts an entry. -/
def blockEntry (s : Scanner) : Except DocumentFault Scanner := do
  if s.level == 0 && !s.keyAllowed then .error .malformed
  else
    let s := if s.level == 0 then s.openHere .blockSequence else s
    let s ← (s.allowKey true).dropKey
    return (s.moveTo s.cursor.next).emit .blockEntry

/-- A question mark that announces a key. -/
def explicitKey (s : Scanner) : Except DocumentFault Scanner := do
  if s.level == 0 && !s.keyAllowed then .error .malformed
  else
    let s := if s.level == 0 then s.openHere .blockMapping else s
    let s ← (s.allowKey (s.level == 0)).dropKey
    return (s.moveTo s.cursor.next).emit .key

/-- Puts tokens in front of the token with a number. -/
def insertTokens (s : Scanner) (number : Nat) (tokens : List Token) : Scanner :=
  let all := s.tokens.toList
  { s with tokens := (all.take number ++ tokens ++ all.drop number).toArray }

/-- A colon that announces a value. If a key was started at this level of brackets, it is the key
of the value. -/
def memberValue (s : Scanner) : Except DocumentFault Scanner := do
  match s.possibleKeys.find? fun k => k.level == s.level with
  | some k =>
    let s := { s with possibleKeys := s.possibleKeys.filter fun other => other.level != s.level }
    let (opened, s) := if s.level == 0 then s.openBlock k.column else (false, s)
    let s := s.insertTokens k.tokenNumber
      (if opened then [.blockMapping, .key] else [.key])
    return ((s.allowKey false).moveTo s.cursor.next).emit .value
  | none =>
    if s.level == 0 && !s.keyAllowed then .error .malformed
    else
      let s := if s.level == 0 then s.openHere .blockMapping else s
      let s ← (s.allowKey (s.level == 0)).dropKey
      return (s.moveTo s.cursor.next).emit .value

/-- A name after an ampersand or an asterisk. -/
def anchorName (s : Scanner) (token : List Char → Token) : Except DocumentFault Scanner := do
  let s ← s.saveKey
  let (name, after) := s.cursor.next.readWhile isNameChar
  let next := after.current
  if name.isEmpty then .error .malformed
  else if isGap next || [',', '?', ':', ']', '\x7d', '%', '@', '\x60'].contains next then
    return ((s.allowKey false).moveTo after).emit (token name)
  else .error .malformed

/-- A tag. -/
def tag (s : Scanner) : Except DocumentFault Scanner := do
  let s ← s.saveKey
  let (token, after) ← readTag s.cursor
  return ((s.allowKey false).moveTo after).emit token

/-- A directive. -/
def directive (s : Scanner) : Except DocumentFault Scanner := do
  let s ← (s.unwind (-1)).dropKey
  let (token, after) ← readDirective s.cursor
  return ((s.allowKey false).moveTo after).emit token

/-- A block scalar; a key may follow it. -/
def blockScalar (s : Scanner) (folded : Bool) : Except DocumentFault Scanner := do
  let s ← (s.allowKey true).dropKey
  let (text, after) ← readBlock folded s.indent s.cursor
  return (s.moveTo after).emit (.scalar text false)

/-- A scalar in quotes. -/
def quotedScalar (s : Scanner) (double : Bool) : Except DocumentFault Scanner := do
  let s ← s.saveKey
  let (text, after) ← readQuoted double (s.cursor.rest.length + 1) s.cursor.next []
  return ((s.allowKey false).moveTo after).emit (.scalar text false)

/-- A plain scalar. -/
def plainScalar (s : Scanner) : Except DocumentFault Scanner := do
  let s ← s.saveKey
  let fuel := s.cursor.rest.length + 1
  let read := readPlain (s.level != 0) (s.indent + 1) fuel s.cursor [] [] false
  return ((s.allowKey read.brokeLine).moveTo read.after).emit (.scalar read.text true)

/-- Characters that start no plain scalar. -/
def isIndicator (c : Char) : Bool :=
  ['-', '?', ':', ',', '[', ']', '\x7b', '\x7d', '#', '&', '*', '!', '|', '>', '\x27', '\x22', '%',
    '@', '\x60'].contains c

/-- Whether a plain scalar starts at the position. -/
def startsPlain (s : Scanner) : Bool :=
  let c := s.cursor.current
  if isGap c then false
  else if !isIndicator c then true
  else !isGap (s.cursor.peek 1) && (c == '-' || (s.level == 0 && (c == '?' || c == ':')))

/-- Finds the next token after a gap; the position is not at the end. -/
def nextToken (s : Scanner) : Except DocumentFault Scanner :=
  let c := s.cursor
  let inBlock := s.level == 0
  let gapAfter := isGap (c.peek 1)
  if c.column == 0 && c.current == '%' then s.directive
  else if c.column == 0 && c.atMark '-' then s.documentMark .documentStart
  else if c.column == 0 && c.atMark '.' then s.documentMark .documentEnd
  else
    match c.current with
    | '[' => s.openFlow .flowSequence
    | '\x7b' => s.openFlow .flowMapping
    | ']' => s.closeFlow .flowSequenceEnd
    | '\x7d' => s.closeFlow .flowMappingEnd
    | ',' => s.flowEntry
    | '*' => s.anchorName .alias
    | '&' => s.anchorName .anchor
    | '!' => s.tag
    | '\x27' => s.quotedScalar false
    | '\x22' => s.quotedScalar true
    | ch =>
      if inBlock && (ch == '|' || ch == '>') then s.blockScalar (ch == '>')
      else if ch == '-' && gapAfter then s.blockEntry
      else if ch == '?' && (!inBlock || gapAfter) then s.explicitKey
      else if ch == ':' && (!inBlock || gapAfter) then s.memberValue
      else if s.startsPlain then s.plainScalar
      else .error .malformed

/-- Finds the next token, or the end of the text. -/
def step (s : Scanner) : Except DocumentFault Scanner := do
  let s ← (skipGap (s.cursor.rest.length + 1) s).dropStale
  let s := s.unwind s.cursor.column
  if s.cursor.atEnd then return (← (s.unwind (-1)).dropKey).emit .streamEnd
  else s.nextToken

/-- The tokens that no further one can change: those before a possible key. -/
def certain (s : Scanner) : List Token :=
  let number := s.possibleKeys.foldl
    (fun number k => if s.isStale k then number else min number k.tokenNumber) s.tokens.size
  s.tokens.toList.take number

/-- Finds the tokens of the rest of a text. -/
def run : (fuel : Nat) → Scanner → List Token
  | 0, s => s.certain
  | fuel + 1, s =>
    match s.step with
    | .error fault => s.certain ++ [.fault fault]
    | .ok next =>
      if next.tokens.back? == some .streamEnd then next.tokens.toList else run fuel next

end Scanner

/-- The tokens of a document. -/
def tokens (text : List Char) : List Token :=
  if text.all isAllowed then
    let start : Cursor := { rest := text }
    let start := if start.current == byteOrderMark then start.next else start
    Scanner.run (text.length + 2) { cursor := start }
  else [.fault .malformed]

end ServiceMap.Settings
