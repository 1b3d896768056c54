import ServiceMap.Text.Blank
import ServiceMap.Text.DigitTable

/-!
# Digits and integers

The decimal digits of every script read as numbers. An integer may carry blanks around it, a sign,
and single underscores between its digits; a decimal numeral of more than `longestNumeral` digits is
refused.
-/

namespace ServiceMap.Text

/-- The value of a decimal digit of any script. -/
def digitValue? (c : Char) : Option Nat :=
  if c.toNat < 128 then
    if c.isDigit then some (c.toNat - '0'.toNat) else none
  else
    (digitRanges.find? c.toNat).map fun range => (c.toNat - range.1) % 10

/-- Decimal digits of any script. -/
def isDecimal (c : Char) : Bool :=
  (digitValue? c).isSome

/-- The most digits a decimal numeral may have, be it read or written. -/
def longestNumeral : Nat := 4300

/-- The number a run of digits denotes; characters that are no digits are passed over. -/
def numeralValue (digits : List Char) : Nat :=
  digits.foldl (fun value c => match digitValue? c with
    | some d => 10 * value + d
    | none => value) 0

/-- Why a text is no integer. -/
inductive NumeralFault where
  /-- The text is not of the form of an integer. -/
  | malformed
  /-- The numeral has this many digits, which are too many. -/
  | tooLong (digits : Nat)
deriving DecidableEq, Repr

/-- The wording for a numeral of too many digits; `found` says how many there are. -/
def tooLongMessage (found : String) : String :=
  "Exceeds the limit (" ++ toString longestNumeral ++ " digits) for integer string conversion"
    ++ found ++ "; use sys.set_int_max_str_digits() to increase the limit"

/-- The wording of a fault. -/
def NumeralFault.message : NumeralFault → String
  | .malformed => "Expected an integer"
  | .tooLong digits => tooLongMessage (": value has " ++ toString digits ++ " digits")

/-- Blanks that may surround a numeral: all but the information separators. -/
def isNumeralBlank (c : Char) : Bool :=
  isBlank c && !(28 ≤ c.toNat && c.toNat ≤ 31)

/-- The text without the blanks that may surround a numeral. -/
def trimNumeral (s : List Char) : List Char :=
  dropRight isNumeralBlank (dropLeft isNumeralBlank s)

/-- A sign and what follows it; without a sign a number is positive. -/
def splitSign : List Char → Bool × List Char
  | '-' :: s => (true, s)
  | '+' :: s => (false, s)
  | s => (false, s)

/-- The bases in which numerals may be written. -/
inductive Base where
  | binary
  | octal
  | decimal
  | hexadecimal
deriving DecidableEq, Repr

namespace Base

/-- The number of digits of a base. -/
def size : Base → Nat
  | binary => 2
  | octal => 8
  | decimal => 10
  | hexadecimal => 16

/-- The letters that may announce a base after a zero. -/
def marks : Base → List Char
  | binary => ['b', 'B']
  | octal => ['o', 'O']
  | decimal => []
  | hexadecimal => ['x', 'X']

/-- The value of a digit of a base. Letters count on from ten. -/
def digit? (base : Base) (c : Char) : Option Nat :=
  let value? :=
    if 'a' ≤ c && c ≤ 'f' then some (c.toNat - 'a'.toNat + 10)
    else if 'A' ≤ c && c ≤ 'F' then some (c.toNat - 'A'.toNat + 10)
    else digitValue? c
  value?.filter (· < base.size)

/-- Digits of a base without the mark of the base, which an underscore may follow. -/
def dropMark (base : Base) (s : List Char) : List Char :=
  match s with
  | '0' :: c :: rest =>
    if base.marks.contains c then
      match rest with
      | '_' :: rest => rest
      | rest => rest
    else s
  | s => s

end Base

/-- Whether digits, which are told by `isDigit`, start with one, end with one, and have no two
underscores together; `afterDigit` tells that an underscore may follow. -/
def wellSpaced (isDigit : Char → Bool) : (afterDigit : Bool) → List Char → Bool
  | afterDigit, [] => afterDigit
  | afterDigit, c :: s =>
    if c == '_' then afterDigit && wellSpaced isDigit false s
    else isDigit c && wellSpaced isDigit true s

/-- A numeral without sign. What follows its digits is refused after their number has been found to
be acceptable; only decimal digits are counted. -/
def readNaturalIn (base : Base) (s : List Char) : Except NumeralFault Nat :=
  let isDigit := fun c => (base.digit? c).isSome
  let s := base.dropMark s
  let spaced := s.takeWhile fun c => c == '_' || isDigit c
  let digits := spaced.filterMap base.digit?
  if !wellSpaced isDigit false spaced then .error .malformed
  else if base == .decimal && longestNumeral < digits.length then .error (.tooLong digits.length)
  else if spaced.length < s.length then .error .malformed
  else .ok (digits.foldl (fun value d => base.size * value + d) 0)

/-- A numeral without sign, in decimal digits. -/
def readNatural (s : List Char) : Except NumeralFault Nat :=
  readNaturalIn .decimal s

/-- An integer, with blanks around it, a sign and underscores between digits allowed. -/
def readIntegerIn (base : Base) (s : List Char) : Except NumeralFault Int :=
  let (negative, digits) := splitSign (trimNumeral s)
  (readNaturalIn base digits).map fun n => if negative then -(n : Int) else n

/-- An integer in decimal digits; none if they are more than a numeral may have. -/
def writeInteger? (n : Int) : Option (List Char) :=
  if Nat.pow 10 longestNumeral ≤ n.natAbs then none else some (toString n).toList

/-- An integer in decimal digits. -/
def readInteger (s : List Char) : Except NumeralFault Int :=
  readIntegerIn .decimal s

end ServiceMap.Text
