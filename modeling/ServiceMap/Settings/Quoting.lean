import ServiceMap.Settings.Token
import ServiceMap.Text.Bytes

/-!
# Scalars in documents

Reading plain and quoted scalars that may run over several lines. A single line break inside a
scalar is read as a space, each further one as a newline.
-/

namespace ServiceMap.Settings

/-- What a stretch of line breaks stands for: the first is a space unless others follow, the others
are themselves. -/
def foldBreaks (first : Char) (others : List Char) : List Char :=
  if first != '\n' then first :: others
  else if others.isEmpty then [' ']
  else others

/-! ## Plain scalars -/

/-- The number of characters of a plain scalar up to a gap, a mark of a value, or in flow style a
mark of that style. -/
def plainLength (flow : Bool) : List Char → Nat
  | [] => 0
  | c :: s =>
    let next := s.head?.getD endMark
    if isGap c || (c == ':' && (isGap next || (flow && isFlowMark next)))
        || (flow && (isFlowMark c || c == '?')) then 0
    else plainLength flow s + 1

/-- The line breaks and spaces after the first break of a plain scalar: the breaks in order, and
the position after them; none if a document ends there. -/
def plainBreaks : (fuel : Nat) → Cursor → List Char → Option (List Char × Cursor)
  | 0, c, breaks => some (breaks, c)
  | fuel + 1, c, breaks =>
    if c.current == ' ' then plainBreaks fuel c.next breaks
    else
      match c.lineBreak? with
      | none => some (breaks, c)
      | some (br, c) =>
        if c.atDocumentMark then none else plainBreaks fuel c (breaks ++ [br])

/-- What the gap after a part of a plain scalar stands for, whether it breaks the line, and the
position after it. Nothing stands for a gap at which the scalar ends. -/
def plainGap (c : Cursor) : List Char × Bool × Cursor :=
  let spaces := c.rest.takeWhile (· == ' ')
  let after := c.skip spaces.length
  match after.lineBreak? with
  | none => (spaces, false, after)
  | some (br, c) =>
    if c.atDocumentMark then ([], true, c)
    else
      match plainBreaks c.rest.length c [] with
      | none => ([], true, c)
      | some (others, c) => (foldBreaks br others, true, c)

/-- A plain scalar as it is read. -/
structure PlainScalar where
  text : List Char
  /-- Whether the scalar was followed by a line break. -/
  brokeLine : Bool
  after : Cursor

/-- Reads a plain scalar, part by part. In a block its lines are indented by `indent` or more. -/
def readPlain (flow : Bool) (indent : Int) : (fuel : Nat) → Cursor → (text gap : List Char) →
    (brokeLine : Bool) → PlainScalar
  | 0, c, text, _, brokeLine => ⟨text, brokeLine, c⟩
  | fuel + 1, c, text, gap, brokeLine =>
    let length := if c.current == '#' then 0 else plainLength flow c.rest
    if length == 0 then ⟨text, brokeLine, c⟩
    else
      let text := text ++ gap ++ c.rest.take length
      let (gap, broke, c) := plainGap (c.skip length)
      if gap.isEmpty || c.current == '#' || (!flow && (c.column : Int) < indent) then
        ⟨text, broke, c⟩
      else readPlain flow indent fuel c text gap broke

/-! ## Quoted scalars -/

/-- What a character after a backslash stands for. -/
def escapes : List (Char × Char) :=
  [('0', Char.ofNat 0), ('a', '\x07'), ('b', '\x08'), ('t', '\t'), ('\t', '\t'), ('n', '\n'),
    ('v', '\x0b'), ('f', '\x0c'), ('r', '\r'), ('e', '\x1b'), (' ', ' '), ('"', '"'), ('\\', '\\'),
    ('/', '/'), ('N', '\u0085'), ('_', '\u00A0'), ('L', '\u2028'), ('P', '\u2029')]

/-- The number of hexadecimal digits after a backslash and a letter. -/
def codeLengths : List (Char × Nat) := [('x', 2), ('u', 4), ('U', 8)]

/-- The number that hexadecimal digits denote. -/
def hexValue? (s : List Char) : Option Nat :=
  s.foldlM (fun n c => (Text.hexDigit? c).map (16 * n + ·)) 0

/-- What stands for half of a character of UTF-16, which is no character by itself. -/
def replacement : Char := '\uFFFD'

/-- The first number after those of characters. -/
def characterCount : Nat := 0x110000

/-- The first number that cannot even be asked for. -/
def codeCount : Nat := 0x80000000

/-- The character of a number. -/
def charOf (n : Nat) : Except ScalarFault Char :=
  if codeCount ≤ n then .error .codeTooLarge
  else if characterCount ≤ n then .error .noCharacter
  else if h : n.isValidChar then .ok (Char.ofNatAux n h)
  else .ok replacement

/-- The character that an escape of `length` hexadecimal digits stands for. -/
def readCode (c : Cursor) (length : Nat) : Except DocumentFault Char :=
  let digits := c.rest.take length
  if digits.length == length then
    match hexValue? digits with
    | some n => (charOf n).mapError .scalar
    | none => .error .malformed
  else .error .malformed

/-- The line breaks after the first break of a quoted scalar, with blanks passed over. No document
may end within a scalar. -/
def quotedBreaks : (fuel : Nat) → Cursor → List Char → Except DocumentFault (List Char × Cursor)
  | 0, c, breaks => .ok (breaks, c)
  | fuel + 1, c, breaks =>
    if c.atDocumentMark then .error .malformed
    else
      let c := c.skipWhile fun ch => ch == ' ' || ch == '\t'
      match c.lineBreak? with
      | some (br, c) => quotedBreaks fuel c (breaks ++ [br])
      | none => .ok (breaks, c)

/-- Characters of quoted scalars that stand for themselves. -/
def isOrdinary (c : Char) : Bool :=
  !isGap c && c != '\x27' && c != '\x22' && c != '\\'

/-- Reads a quoted scalar whose opening quote is already passed. -/
def readQuoted (double : Bool) : (fuel : Nat) → Cursor → (text : List Char) →
    Except DocumentFault (List Char × Cursor)
  | 0, _, _ => .error .malformed
  | fuel + 1, c, text =>
    match c.rest with
    | [] => .error .malformed
    | ch :: _ =>
      if ch == '\x27' && !double then
        if c.peek 1 == '\x27' then readQuoted double fuel (c.skip 2) (text ++ [ch])
        else .ok (text, c.next)
      else if ch == '\x22' && double then .ok (text, c.next)
      else if ch == '\\' && double then
        let c := c.next
        let mark := c.current
        if isBreak mark then do
          let c := c.skipBreak
          let (breaks, c) ← quotedBreaks c.rest.length c []
          readQuoted double fuel c (text ++ breaks)
        else
          match c.rest, escapes.lookup mark, codeLengths.lookup mark with
          | [], _, _ => .error .malformed
          | _ :: _, some meaning, _ => readQuoted double fuel c.next (text ++ [meaning])
          | _ :: _, none, some length => do
            let meaning ← readCode c.next length
            readQuoted double fuel (c.next.skip length) (text ++ [meaning])
          | _ :: _, none, none => .error .malformed
      else if ch == ' ' || ch == '\t' || isBreak ch then
        let blanks := c.rest.takeWhile fun b => b == ' ' || b == '\t'
        let after := c.skip blanks.length
        match after.lineBreak? with
        | none => readQuoted double fuel after (text ++ blanks)
        | some (br, c) => do
          let (others, c) ← quotedBreaks (c.rest.length + 1) c []
          readQuoted double fuel c (text ++ foldBreaks br others)
      else if isOrdinary ch then
        let (run, after) := c.readWhile isOrdinary
        readQuoted double fuel after (text ++ run)
      else readQuoted double fuel c.next (text ++ [ch])

end ServiceMap.Settings
