import ServiceMap.Decimal.Binary
import ServiceMap.Text.Digit

/-!
# Numbers with places

Numbers of 53 binary digits with a sign, the two infinities, and what is no number. Each operation
rounds its exact result once.
-/

namespace ServiceMap.Decimal

open Text

/-- A number with places. -/
inductive Number where
  | finite (negative : Bool) (magnitude : Binary)
  | infinite (negative : Bool)
  /-- The outcome of operations that have none. -/
  | undefined
deriving DecidableEq, Repr

namespace Number

/-- The number nearest to a fraction with a sign; an infinity if there is none near it. -/
def ofFraction (negative : Bool) (n d : Nat) : Number :=
  match Binary.ofFraction? n d with
  | some magnitude => finite negative magnitude
  | none => infinite negative

/-- The number nearest to an integer, if there is one near it. -/
def ofInt? (n : Int) : Option Number :=
  (Binary.ofFraction? n.natAbs 1).map (finite (n < 0))

/-- Zero. -/
def zero : Number := ofFraction false 0 1

/-- The number with the other sign. -/
def neg : Number → Number
  | finite negative magnitude => finite (!negative) magnitude
  | infinite negative => infinite (!negative)
  | undefined => undefined

/-- Whether a number is zero. -/
def isZero : Number → Bool
  | finite _ magnitude => magnitude.mantissa == 0
  | _ => false

/-- A fraction with a sign as an integer and a denominator. -/
def signedFraction (negative : Bool) (magnitude : Binary) : Int × Nat :=
  let (n, d) := magnitude.toFraction
  (if negative then -(n : Int) else n, d)

/-- The sum of two numbers. A sum of zero is positive unless both numbers are negative. -/
def add : Number → Number → Number
  | undefined, _ => undefined
  | _, undefined => undefined
  | infinite a, infinite b => if a == b then infinite a else undefined
  | infinite a, _ => infinite a
  | _, infinite b => infinite b
  | finite a x, finite b y =>
    let (n, d) := signedFraction a x
    let (m, e) := signedFraction b y
    let sum := n * e + m * d
    ofFraction (if sum == 0 then a && b else sum < 0) sum.natAbs (d * e)

/-- The product of two numbers. -/
def mul : Number → Number → Number
  | undefined, _ => undefined
  | _, undefined => undefined
  | infinite a, infinite b => infinite (a != b)
  | infinite a, finite b y => if y.mantissa == 0 then undefined else infinite (a != b)
  | finite a x, infinite b => if x.mantissa == 0 then undefined else infinite (a != b)
  | finite a x, finite b y =>
    let (n, d) := x.toFraction
    let (m, e) := y.toFraction
    ofFraction (a != b) (n * m) (d * e)

/-- The text of a number: the shortest decimal that reads back as it. -/
def render : Number → List Char
  | finite negative magnitude =>
    if negative then '-' :: Decimal.render magnitude else Decimal.render magnitude
  | infinite negative => (if negative then "-inf" else "inf").toList
  | undefined => "nan".toList

/-! ## Reading -/

/-- A power of ten above all numbers that can be told from infinity, and whose inverse is below all
that can be told from zero. -/
def largestPower : Nat := 400

/-- A decimal by its digits before and after the point and the power of ten after them, as a
fraction. A power that is too large to matter is cut short. -/
def fractionOf (whole places : List Char) (negativePower : Bool) (power : Nat) : Nat × Nat :=
  let value := numeralValue (whole ++ places)
  let power := min power (whole.length + places.length + largestPower)
  if negativePower then (value, Nat.pow 10 (places.length + power))
  else (value * Nat.pow 10 power, Nat.pow 10 places.length)

/-- A decimal without sign: digits, a point among them or not, and a power of ten. -/
def readDecimal? (negative : Bool) (s : List Char) : Option Number :=
  let whole := s.takeWhile isDecimal
  let s := s.drop whole.length
  let (places, s) := match s with
    | '.' :: s => (s.takeWhile isDecimal, s.dropWhile isDecimal)
    | s => ([], s)
  if whole.isEmpty && places.isEmpty then none
  else
    let value := fun (negativePower : Bool) (power : Nat) =>
      let (n, d) := fractionOf whole places negativePower power
      ofFraction negative n d
    match s with
    | [] => some (value false 0)
    | mark :: power =>
      let (negativePower, power) := splitSign power
      if (mark == 'e' || mark == 'E') && !power.isEmpty && power.all isDecimal then
        some (value negativePower (numeralValue power))
      else none

/-- A number with blanks around it and a sign: a decimal, or a word for what is none. -/
def read? (s : List Char) : Option Number :=
  let (negative, s) := splitSign (trimNumeral s)
  let word := String.ofList (s.map Char.toLower)
  if word == "inf" || word == "infinity" then some (infinite negative)
  else if word == "nan" then some undefined
  else readDecimal? negative s

end Number

end ServiceMap.Decimal
