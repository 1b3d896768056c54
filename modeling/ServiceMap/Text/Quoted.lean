import ServiceMap.Text.PrintTable

/-!
# Quoted text

Text in quotes, as it appears in messages: in single quotes, or in double ones if it holds single
quotes and no double ones. Backslashes, the quote itself and characters without a visible form are
written as escapes.
-/

namespace ServiceMap.Text

/-- Whether a character is written as it is. -/
def isVisible (c : Char) : Bool :=
  if c.toNat < 128 then 32 ≤ c.toNat && c.toNat < 127 else !hiddenRanges.contains c.toNat

/-- The hexadecimal digits of a number, in small letters, with zeros in front up to a width. -/
def hexDigits (width n : Nat) : List Char :=
  let digits := Nat.toDigits 16 n
  List.replicate (width - digits.length) '0' ++ digits

/-- An escape by code point: two, four or eight hexadecimal digits. -/
def escapeCode (n : Nat) : List Char :=
  if n < 0x100 then '\\' :: 'x' :: hexDigits 2 n
  else if n < 0x10000 then '\\' :: 'u' :: hexDigits 4 n
  else '\\' :: 'U' :: hexDigits 8 n

/-- One character of a text in the given quotes. -/
def quoteChar (quote c : Char) : List Char :=
  if c == quote || c == '\\' then ['\\', c]
  else if c == '\n' then ['\\', 'n']
  else if c == '\r' then ['\\', 'r']
  else if c == '\t' then ['\\', 't']
  else if isVisible c then [c]
  else escapeCode c.toNat

/-- The text in quotes. -/
def quote (s : List Char) : List Char :=
  let q := if s.contains '\x27' && !s.contains '\x22' then '\x22' else '\x27'
  q :: s.flatMap (quoteChar q) ++ [q]

/-- The text in quotes. -/
def quoteString (s : String) : String :=
  String.ofList (quote s.toList)

end ServiceMap.Text
