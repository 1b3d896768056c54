/-!
# Bytes and texts

Characters from bytes in UTF-8, and bytes from characters of six bits each. Bytes that make up no
character are given as none: one for every longest stretch that might have gone on to be a character,
and one for every other byte. In base 64, characters that stand for no bits are passed over; equals
signs fill up the last group of four.
-/

namespace ServiceMap.Text

/-! ## UTF-8 -/

/-- The bounds of most bytes after the first of a character. -/
def continuation : Nat × Nat := (0x80, 0xBF)

/-- What the first byte of a character says: the bits it holds itself, and the bounds of the bytes
after it. No character starts with a byte that does not say so. -/
def bytesAfter? (lead : Nat) : Option (Nat × List (Nat × Nat)) :=
  if lead < 0x80 then some (lead, [])
  else if 0xC2 ≤ lead && lead ≤ 0xDF then some (lead - 0xC0, [continuation])
  else if lead == 0xE0 then some (0, [(0xA0, 0xBF), continuation])
  else if lead == 0xED then some (0xD, [(0x80, 0x9F), continuation])
  else if 0xE1 ≤ lead && lead ≤ 0xEF then some (lead - 0xE0, [continuation, continuation])
  else if lead == 0xF0 then some (0, [(0x90, 0xBF), continuation, continuation])
  else if lead == 0xF4 then some (4, [(0x80, 0x8F), continuation, continuation])
  else if 0xF1 ≤ lead && lead ≤ 0xF3 then
    some (lead - 0xF0, [continuation, continuation, continuation])
  else none

/-- The characters of bytes after the start of a character: `bits` are those it has so far, and
`bounds` those of the bytes that it still needs. -/
def decodeFrom (bits : Nat) (bounds : List (Nat × Nat)) : List Nat → List (Option Char)
  | [] => if bounds.isEmpty then [] else [none]
  | byte :: bytes =>
    let start := fun (_ : Unit) =>
      match bytesAfter? byte with
      | none => none :: decodeFrom 0 [] bytes
      | some (bits, []) => some (Char.ofNat bits) :: decodeFrom 0 [] bytes
      | some (bits, bounds) => decodeFrom bits bounds bytes
    match bounds with
    | [] => start ()
    | (least, greatest) :: bounds =>
      if least ≤ byte && byte ≤ greatest then
        let bits := 64 * bits + (byte - 0x80)
        if bounds.isEmpty then some (Char.ofNat bits) :: decodeFrom 0 [] bytes
        else decodeFrom bits bounds bytes
      else none :: start ()

/-- The characters of bytes. -/
def decodeBytes (bytes : List Nat) : List (Option Char) :=
  decodeFrom 0 [] bytes

/-- The value of a hexadecimal digit. -/
def hexDigit? (c : Char) : Option Nat :=
  if c.isDigit then some (c.toNat - '0'.toNat)
  else if 'a' ≤ c && c ≤ 'f' then some (c.toNat - 'a'.toNat + 10)
  else if 'A' ≤ c && c ≤ 'F' then some (c.toNat - 'A'.toNat + 10)
  else none

/-! ## Base 64 -/

/-- The six bits that a character stands for. -/
def sixBits? (c : Char) : Option Nat :=
  if 'A' ≤ c && c ≤ 'Z' then some (c.toNat - 'A'.toNat)
  else if 'a' ≤ c && c ≤ 'z' then some (c.toNat - 'a'.toNat + 26)
  else if c.isDigit then some (c.toNat - '0'.toNat + 52)
  else if c == '+' then some 62
  else if c == '/' then some 63
  else none

/-- The bytes of a text whose group of four has `place` characters so far: `bits` are those of the
last of them that belong to the next byte, and `fills` counts the equals signs after it. A group
that is neither complete nor filled up is no group. -/
def readBase64From (place bits fills : Nat) : List Char → Option (List Nat)
  | [] => if place == 0 then some [] else none
  | c :: s =>
    if c == '=' then
      if place < 2 then readBase64From place bits fills s
      else if 4 ≤ place + fills + 1 then some []
      else readBase64From place bits (fills + 1) s
    else
      match sixBits? c, place with
      | none, _ => readBase64From place bits fills s
      | some six, 0 => readBase64From 1 six 0 s
      | some six, 1 => (readBase64From 2 (six % 16) 0 s).map ((4 * bits + six / 16) :: ·)
      | some six, 2 => (readBase64From 3 (six % 4) 0 s).map ((16 * bits + six / 4) :: ·)
      | some six, _ => (readBase64From 0 0 0 s).map ((64 * bits + six) :: ·)

/-- The bytes that a text stands for. -/
def readBase64? (s : List Char) : Option (List Nat) :=
  readBase64From 0 0 0 s

end ServiceMap.Text
