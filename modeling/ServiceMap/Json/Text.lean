import ServiceMap.Json.Basic

/-!
# The text of JSON

Values of JSON as text in reports: ASCII only, one member or item a line, indented by two spaces for
each level. Characters outside the visible ASCII range are written as escapes of their UTF-16 units.
-/

namespace ServiceMap

namespace Json

/-- A unit of UTF-16 in four hexadecimal digits. -/
def unitDigits (n : Nat) : List Char :=
  let digits := Nat.toDigits 16 n
  List.replicate (4 - digits.length) '0' ++ digits

/-- A unit of UTF-16 as an escape. -/
def escapeUnit (n : Nat) : List Char :=
  '\\' :: 'u' :: unitDigits n

/-- A character in a string of JSON. -/
def escapeChar (c : Char) : List Char :=
  if c == '\x22' then ['\\', '\x22']
  else if c == '\\' then ['\\', '\\']
  else if c == '\n' then ['\\', 'n']
  else if c == '\r' then ['\\', 'r']
  else if c == '\t' then ['\\', 't']
  else if c == '\x08' then ['\\', 'b']
  else if c == '\x0c' then ['\\', 'f']
  else
    let n := c.toNat
    if 0x20 ≤ n && n < 0x7F then [c]
    else if n < 0x10000 then escapeUnit n
    else
      let rest := n - 0x10000
      escapeUnit (0xD800 + rest / 0x400) ++ escapeUnit (0xDC00 + rest % 0x400)

/-- A string of JSON. -/
def quoted (s : String) : List Char :=
  '\x22' :: s.toList.flatMap escapeChar ++ ['\x22']

/-- An integer. -/
def digits (n : Int) : List Char :=
  match n with
  | .ofNat n => Nat.toDigits 10 n
  | .negSucc n => '-' :: Nat.toDigits 10 (n + 1)

/-- The start of a line at a level. -/
def newLine (level : Nat) : List Char :=
  '\n' :: List.replicate (2 * level) ' '

mutual

/-- The text of a value that stands at a level. -/
def renderAt (level : Nat) : Json → List Char
  | null => "null".toList
  | bool true => "true".toList
  | bool false => "false".toList
  | int n => digits n
  | str s => quoted s
  | arr [] => ['[', ']']
  | arr (item :: items) =>
    '[' :: newLine (level + 1) ++ renderAt (level + 1) item ++ renderItems (level + 1) items
      ++ newLine level ++ [']']
  | obj [] => ['\x7b', '\x7d']
  | obj ((key, value) :: members) =>
    '\x7b' :: newLine (level + 1) ++ quoted key ++ ':' :: ' ' :: renderAt (level + 1) value
      ++ renderMembers (level + 1) members ++ newLine level ++ ['\x7d']

/-- The text of the items after the first. -/
def renderItems (level : Nat) : List Json → List Char
  | [] => []
  | item :: items => ',' :: newLine level ++ renderAt level item ++ renderItems level items

/-- The text of the members after the first. -/
def renderMembers (level : Nat) : List (String × Json) → List Char
  | [] => []
  | (key, value) :: members =>
    ',' :: newLine level ++ quoted key ++ ':' :: ' ' :: renderAt level value
      ++ renderMembers level members

end

/-- The text of a value. -/
def render (value : Json) : String :=
  String.ofList (renderAt 0 value)

end Json

end ServiceMap
