import ServiceMap.Settings.Token
import ServiceMap.Text.Bytes

/-!
# Tags and directives

Reading what states the kind of a node, and the lines before a document that say how it is to be
read. A tag is a handle and the text that follows it, an angle bracket around the tag in full, or a
lone exclamation mark.
-/

namespace ServiceMap.Settings

open Text

/-- Passes over the rest of a line that has nothing but a comment on it, and over its break. -/
def readLineEnd (c : Cursor) : Except DocumentFault Cursor :=
  let c := c.skipWhile (· == ' ')
  let c := if c.current == '#' then c.skipWhile fun ch => !isBreak ch else c
  if c.atEnd || isBreak c.current then .ok c.skipBreak else .error .malformed

/-! ## Tags -/

/-- Characters of tags, but for those that are escaped. -/
def isTagChar (c : Char) : Bool :=
  c.isAlphanum || "-;/?:@&=+$,_.!~*'()[]".toList.contains c

/-- The bytes of escapes, each a percent sign with two hexadecimal digits. -/
def readEscapes : (fuel : Nat) → Cursor → Except DocumentFault (List Nat × Cursor)
  | 0, c => .ok ([], c)
  | fuel + 1, c =>
    if c.current == '%' then
      match hexDigit? (c.peek 1), hexDigit? (c.peek 2) with
      | some high, some low => do
        let (bytes, after) ← readEscapes fuel (c.skip 3)
        return ((16 * high + low) :: bytes, after)
      | _, _ => .error .malformed
    else .ok ([], c)

/-- The characters that bytes stand for; all of them have to stand for some. -/
def readBytes (bytes : List Nat) : Except DocumentFault (List Char) :=
  let chars := decodeBytes bytes
  if chars.all Option.isSome then .ok (chars.filterMap id) else .error .malformed

/-- The characters of a tag, and those that escapes in it stand for. -/
def readTagChars : (fuel : Nat) → Cursor → Except DocumentFault (List Char × Cursor)
  | 0, c => .ok ([], c)
  | fuel + 1, c => do
    let (text, after) := c.readWhile isTagChar
    if after.current == '%' then
      let (bytes, after) ← readEscapes after.rest.length after
      let escaped ← readBytes bytes
      let (more, after) ← readTagChars fuel after
      return (text ++ escaped ++ more, after)
    else return (text, after)

/-- The text of a tag, which may not be missing. -/
def readTagText (c : Cursor) : Except DocumentFault (List Char × Cursor) :=
  if isTagChar c.current || c.current == '%' then readTagChars (c.rest.length + 1) c
  else .error .malformed

/-- A handle: an exclamation mark, or a name between two of them. -/
def readHandle (c : Cursor) : Except DocumentFault (List Char × Cursor) :=
  if c.current != '!' then .error .malformed
  else if c.peek 1 == ' ' then .ok (['!'], c.next)
  else
    let (name, after) := c.next.readWhile isNameChar
    if after.current == '!' then .ok ('!' :: name ++ ['!'], after.next) else .error .malformed

/-- Whether the tag at the position has a handle with a second exclamation mark. -/
def hasLongHandle (c : Cursor) : Bool :=
  (c.next.rest.takeWhile fun ch => !isStop ch).contains '!'

/-- A tag. -/
def readTag (c : Cursor) : Except DocumentFault (Token × Cursor) := do
  let (token, after) ←
    if c.peek 1 == '<' then do
      let (text, after) ← readTagText (c.skip 2)
      if after.current == '>' then .ok (Token.tag none text, after.next) else .error .malformed
    else if isGap (c.peek 1) then .ok (Token.tag none ['!'], c.next)
    else do
      let (handle, after) ← if hasLongHandle c then readHandle c else .ok (['!'], c.next)
      let (text, after) ← readTagText after
      .ok (Token.tag (some handle) text, after)
  if isStop after.current then return (token, after) else .error .malformed

/-! ## Directives -/

/-- A number in the version of the rules. -/
def readVersionPart (c : Cursor) : Except DocumentFault (Nat × Cursor) :=
  let (digits, after) := c.readWhile Char.isDigit
  match readNatural digits with
  | .ok n => .ok (n, after)
  | .error .malformed => .error .malformed
  | .error (.tooLong count) => .error (.scalar (.longNumeral count))

/-- A version of the rules: two numbers with a point between them. -/
def readVersion (c : Cursor) : Except DocumentFault (Directive × Cursor) := do
  let (major, c) ← readVersionPart c
  if c.current != '.' then .error .malformed
  else
    let (minor, c) ← readVersionPart c.next
    if isStop c.current then return (.version major minor, c) else .error .malformed

/-- A handle and the start of the tags that it stands for. -/
def readHandleMeaning (c : Cursor) : Except DocumentFault (Directive × Cursor) := do
  let (handle, c) ← readHandle c
  if c.current != ' ' then .error .malformed
  else
    let (start, c) ← readTagText (c.skipWhile (· == ' '))
    if isStop c.current then return (.handle handle start, c) else .error .malformed

/-- A directive, with the line that it stands on. -/
def readDirective (c : Cursor) : Except DocumentFault (Token × Cursor) := do
  let (name, c) := c.next.readWhile isNameChar
  if name.isEmpty || !isStop c.current then .error .malformed
  else
    let value := c.skipWhile (· == ' ')
    let (directive, c) ←
      if name == "YAML".toList then readVersion value
      else if name == "TAG".toList then readHandleMeaning value
      else .ok (.other, c.skipWhile fun ch => !isBreak ch)
    return (.directive directive, ← readLineEnd c)

end ServiceMap.Settings
