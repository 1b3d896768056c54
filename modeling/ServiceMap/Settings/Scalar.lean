import ServiceMap.Pattern.Matching
import ServiceMap.Settings.Fault
import ServiceMap.Settings.Value
import ServiceMap.Text.Bytes
import ServiceMap.Text.Case
import ServiceMap.Text.Find

/-!
# Scalars and their values

A plain scalar may be a truth value, a number, a date or null by the way it is written; a tag may
say of any scalar what it is. Here are the forms that tell the kind of a plain scalar, and the value
of a scalar of a given kind.
-/

namespace ServiceMap.Settings

open Text Pattern Decimal

/-! ## The forms of plain scalars -/

/-- Digits. -/
def isDigit (c : Char) : Bool := c.isDigit

/-- Digits and the underscore, which may stand between them. -/
def isSpacedDigit (c : Char) : Bool := c.isDigit || c == '_'

/-- A sign. -/
def sign : Pattern := opt (char fun c => c == '-' || c == '+')

/-- A digit other than zero, and more digits. -/
def spacedDigits1 : Pattern := char (fun c => c.isDigit && c != '0') ++ many isSpacedDigit

/-- Groups of up to sixty, each after a colon. -/
def sixties : Pattern :=
  star (lit ":" ++ opt (char fun c => '0' ≤ c && c ≤ '5') ++ char isDigit)

/-- One group of up to sixty after a colon, and more. -/
def sixties1 : Pattern :=
  lit ":" ++ opt (char fun c => '0' ≤ c && c ≤ '5') ++ char isDigit ++ sixties

/-- Integers: binary, octal, decimal, hexadecimal, or in groups of sixty. -/
def integerForm : Pattern :=
  ((sign ++ lit "0b" ++ many1 fun c => c == '0' || c == '1' || c == '_')
    <|> (sign ++ lit "0" ++ many1 fun c => ('0' ≤ c && c ≤ '7') || c == '_')
    <|> (sign ++ (lit "0" <|> spacedDigits1) ++ textEnd)
    <|> (sign ++ lit "0x" ++ many1 fun c =>
      c.isDigit || ('a' ≤ c && c ≤ 'f') || ('A' ≤ c && c ≤ 'F') || c == '_')
    <|> (sign ++ spacedDigits1 ++ sixties1)) ++ textEnd

/-- A power of ten. -/
def exponentForm : Pattern :=
  opt (char (fun c => c == 'e' || c == 'E') ++ char (fun c => c == '-' || c == '+')
    ++ many1 isDigit)

/-- Numbers with places. -/
def numberForm : Pattern :=
  ((sign ++ char isDigit ++ many isSpacedDigit ++ lit "." ++ many isSpacedDigit ++ exponentForm
      ++ textEnd)
    <|> (lit "." ++ char isDigit ++ many isSpacedDigit ++ exponentForm ++ textEnd)
    <|> (sign ++ char isDigit ++ many isSpacedDigit ++ sixties1 ++ lit "." ++ many isSpacedDigit
      ++ textEnd)
    <|> (sign ++ oneOf [".inf", ".Inf", ".INF"] ++ textEnd)
    <|> (oneOf [".nan", ".NaN", ".NAN"] ++ textEnd))

/-- One or two digits, remembered under `slot`. -/
def oneOrTwo (slot : Nat) : Pattern :=
  capture slot (char isDigit ++ opt (char isDigit))

/-- Two digits, remembered under `slot`. -/
def two (slot : Nat) : Pattern :=
  capture slot (char isDigit ++ char isDigit)

/-- Four digits, remembered under `slot`. -/
def four (slot : Nat) : Pattern :=
  capture slot (char isDigit ++ char isDigit ++ char isDigit ++ char isDigit)

/-- Blanks within a line. -/
def inlineBlank (c : Char) : Bool := c == ' ' || c == '\t'

/-- A time of day after a blank or the letter t, possibly with a time zone. -/
def timeForm : Pattern :=
  (char (fun c => c == 'T' || c == 't') <|> many1 inlineBlank)
    ++ oneOrTwo 4 ++ lit ":" ++ two 5 ++ lit ":" ++ two 6 ++ opt (lit "." ++ many isDigit)
    ++ opt (many inlineBlank
        ++ (lit "Z" <|> (capture 7 (char fun c => c == '-' || c == '+') ++ oneOrTwo 8
            ++ opt (lit ":" ++ two 9))))

/-- A day whose month and day have two digits each. -/
def dayForm : Pattern :=
  four 1 ++ lit "-" ++ two 2 ++ lit "-" ++ two 3 ++ textEnd

/-- A day and a time of day. -/
def momentForm : Pattern :=
  four 1 ++ lit "-" ++ oneOrTwo 2 ++ lit "-" ++ oneOrTwo 3 ++ timeForm ++ textEnd

/-- A day, with a time of day or without. -/
def dateForm : Pattern :=
  four 1 ++ lit "-" ++ oneOrTwo 2 ++ lit "-" ++ oneOrTwo 3 ++ opt timeForm ++ textEnd

/-- Words for null. -/
def nullWords : List String := ["~", "null", "Null", "NULL"]

/-- Words for truth values. -/
def truthWords : List (String × Bool) :=
  [("yes", true), ("no", false), ("true", true), ("false", false), ("on", true), ("off", false)]

/-- The ways in which a word may be written: in small letters, with a capital first, in capitals. -/
def spellings (word : String) : List (List Char) :=
  [word.toList, upperFirst word.toList, upper word.toList]

/-- Whether a scalar is a word for a truth value. -/
def isTruthWord (s : List Char) : Bool :=
  truthWords.any fun (word, _) => (spellings word).contains s

/-- The kind that a plain scalar has by its form. A line break at its end does not count. -/
def Kind.ofPlain (text : List Char) : Kind :=
  let s := if text.length == 1 then text else dropEnding ['\n'] text
  if text.isEmpty || nullWords.contains (String.ofList s) then .null
  else if isTruthWord s then .bool
  else if (numberForm.matchStart? s).isSome then .number
  else if (integerForm.matchStart? s).isSome then .int
  else if (dayForm.matchStart? s).isSome || (momentForm.matchStart? s).isSome then .date
  else if s == "<<".toList then .merge
  else if s == "=".toList then .default
  else if s == "!".toList || s == "&".toList || s == "*".toList then .unknown
  else .text

/-! ## Integers -/

/-- An integer in a base. -/
def integerIn (base : Base) (s : List Char) : Except ScalarFault Int :=
  match readIntegerIn base s with
  | .ok n => .ok n
  | .error .malformed => .error (.notInteger base s)
  | .error (.tooLong digits) => .error (.longNumeral digits)

/-- The integer that groups of sixty stand for. -/
def integerInSixties (groups : List (List Char)) : Except ScalarFault Int := do
  let values ← groups.mapM (integerIn .decimal)
  return values.foldl (fun n value => 60 * n + value) 0

/-- The integer of a text without its first sign. -/
def unsignedInteger (s : List Char) : Except ScalarFault Int :=
  match s with
  | [] => .error .noDigits
  | ['0'] => .ok 0
  | '0' :: 'b' :: digits => integerIn .binary digits
  | '0' :: 'x' :: digits => integerIn .hexadecimal digits
  | '0' :: _ => integerIn .octal s
  | s => if s.contains ':' then integerInSixties (splitOn (· == ':') s) else integerIn .decimal s

/-- The integer that a text stands for. Underscores in it do not count. -/
def integerOf (text : List Char) : Except ScalarFault Int := do
  let (negative, s) := splitSign (text.filter (· != '_'))
  let n ← unsignedInteger s
  return if negative then -n else n

/-! ## Numbers with places -/

/-- A number with places. -/
def readNumber (s : List Char) : Except ScalarFault Number :=
  match Number.read? s with
  | some n => .ok n
  | none => .error (.notNumber s)

/-- Groups of sixty added up from the last on; `weight` is what the first of them counts for. -/
def addSixties (weight : Nat) (sum : Number) : (reversed : List Number) → Except ScalarFault Number
  | [] => .ok sum
  | group :: groups =>
    match Number.ofInt? weight with
    | some w => addSixties (60 * weight) (sum.add (group.mul w)) groups
    | none => .error .tooManyGroups

/-- The number that groups of sixty stand for. -/
def numberInSixties (groups : List (List Char)) : Except ScalarFault Number := do
  addSixties 1 .zero (← groups.mapM readNumber).reverse

/-- The number that a text stands for. Underscores in it and letter case do not count. -/
def numberOf (text : List Char) : Except ScalarFault Number := do
  let text := lower (text.filter (· != '_'))
  if text.isEmpty then .error .noDigits
  else
    let (negative, s) := splitSign text
    let n ←
      if s == ".inf".toList then .ok (.infinite false)
      else if s == ".nan".toList then .ok .undefined
      else if s.contains ':' then numberInSixties (splitOn (· == ':') s)
      else readNumber s
    return if negative then n.neg else n

/-! ## Dates -/

/-- The days of a month. -/
def daysOfMonth (year month : Nat) : Nat :=
  let leap := year % 4 == 0 && (year % 100 != 0 || year % 400 == 0)
  if month == 2 then (if leap then 29 else 28)
  else if [4, 6, 9, 11].contains month then 30
  else 31

/-- The minutes in a day. -/
def dayMinutes : Int := 1440

/-- The offset from universal time in a match, in minutes. -/
def offsetOf (m : Match) : Int :=
  let minutes : Int := 60 * numeralValue (m.group 8) + numeralValue (m.group 9)
  if m.group 7 == ['-'] then -minutes else minutes

/-- The first part of a date that is out of range. The offset is looked at first; a part that is not
written is zero. -/
def firstOutOfRange? (m : Match) : Option TimePart :=
  let number := fun slot => numeralValue (m.group slot)
  if dayMinutes ≤ offsetOf m || offsetOf m ≤ -dayMinutes then some (.offset (offsetOf m))
  else if number 1 == 0 then some .year
  else if number 2 == 0 || 12 < number 2 then some .month
  else if number 3 == 0 || daysOfMonth (number 1) (number 2) < number 3 then some .day
  else if 23 < number 4 then some .hour
  else if 59 < number 5 then some .minute
  else if 59 < number 6 then some .second
  else none

/-- The date that a text stands for. A line break at its end does not count. -/
def dateOf (text : List Char) : Except ScalarFault Value :=
  match dateForm.matchStart? (dropEnding ['\n'] text) with
  | none => .error .notDate
  | some m =>
    match firstOutOfRange? m with
    | some part => .error (.outOfRange part)
    | none => .ok .date

/-! ## Values -/

/-- The truth value that a text stands for, in any letter case. -/
def truthOf (text : List Char) : Except ScalarFault Bool :=
  match truthWords.lookup (String.ofList (lower text)) with
  | some b => .ok b
  | none => .error .notTruth

/-- The bytes that a text stands for. -/
def binaryOf (text : List Char) : Except DocumentFault Value :=
  match text.all (·.toNat < 128), readBase64? text with
  | true, some bytes => .ok (.binary bytes)
  | _, _ => .error .malformed

/-- The value of a text of a kind; kinds of collections and of keys have none. -/
def Kind.read (kind : Kind) (text : List Char) : Except DocumentFault Value :=
  match kind with
  | .null => .ok .null
  | .bool => ((truthOf text).map Value.bool).mapError .scalar
  | .int => ((integerOf text).map Value.int).mapError .scalar
  | .number => ((numberOf text).map Value.number).mapError .scalar
  | .date => (dateOf text).mapError .scalar
  | .binary => binaryOf text
  | .text => .ok (.text text)
  | _ => .error .malformed

end ServiceMap.Settings
