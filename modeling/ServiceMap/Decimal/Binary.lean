/-!
# Binary floating-point numbers

The finite numbers of 53 binary digits, and rounding a fraction to the nearest of them. A fraction
in the middle between two goes to the one with an even last digit. A number is written with the
fewest decimal digits that read back as it; among decimals of that many digits the one nearest to
it is taken.
-/

namespace ServiceMap.Decimal

/-- The number `mantissa * 2 ^ exponent`. -/
structure Binary where
  mantissa : Nat
  exponent : Int
deriving DecidableEq, Repr

namespace Binary

/-- The number of binary digits of a mantissa. -/
def precision : Nat := 53

/-- The least exponent. -/
def leastExponent : Int := -1074

/-- The greatest exponent. -/
def greatestExponent : Int := 971

/-- A quotient rounded to the nearest integer, a half to the even one. -/
def roundDiv (n d : Nat) : Nat :=
  let quotient := n / d
  let remainder := n % d
  if d < 2 * remainder || (d == 2 * remainder && quotient % 2 == 1) then quotient + 1 else quotient

/-- A fraction divided by a power of two, as a fraction. -/
def scaled (n d : Nat) (exponent : Int) : Nat × Nat :=
  if exponent < 0 then (n * Nat.pow 2 (-exponent).toNat, d)
  else (n, d * Nat.pow 2 exponent.toNat)

/-- The exponent at which the mantissa of a fraction has its full length, or the least one. -/
def exponentFor (n d : Nat) : Int :=
  let guess : Int := (Nat.log2 n : Int) - Nat.log2 d - precision
  let fits := fun (e : Int) =>
    let (a, b) := scaled n d e
    a / b < Nat.pow 2 precision
  let exponent := if fits guess then guess else if fits (guess + 1) then guess + 1 else guess + 2
  max exponent leastExponent

/-- The number nearest to a fraction; none if it is too large. -/
def ofFraction? (n d : Nat) : Option Binary :=
  if n == 0 then some ⟨0, leastExponent⟩
  else
    let exponent := exponentFor n d
    let (a, b) := scaled n d exponent
    let mantissa := roundDiv a b
    let (mantissa, exponent) :=
      if mantissa == Nat.pow 2 precision then (Nat.pow 2 (precision - 1), exponent + 1)
      else (mantissa, exponent)
    if greatestExponent < exponent then none else some ⟨mantissa, exponent⟩

/-- The number as a fraction. -/
def toFraction (b : Binary) : Nat × Nat :=
  if b.exponent < 0 then (b.mantissa, Nat.pow 2 (-b.exponent).toNat)
  else (b.mantissa * Nat.pow 2 b.exponent.toNat, 1)

end Binary

/-! ## Shortest decimals -/

/-- A decimal number: digits, the first before the point, times ten to a power. -/
structure Digits where
  digits : List Char
  power : Int
deriving DecidableEq, Repr

/-- A fraction times ten to a power, as a fraction. -/
def timesTen (n d : Nat) (power : Int) : Nat × Nat :=
  if power < 0 then (n, d * Nat.pow 10 (-power).toNat) else (n * Nat.pow 10 power.toNat, d)

/-- The greatest power of ten that is not above a positive fraction. -/
def leadingPower (n d : Nat) : Int :=
  if d ≤ n then ((Nat.toDigits 10 (n / d)).length : Int) - 1
  else -((Nat.toDigits 10 ((d + n - 1) / n - 1)).length : Int)

/-- Whether a fraction reads back as a binary number. -/
def readsBack (b : Binary) (n d : Nat) : Bool :=
  Binary.ofFraction? n d == some b

/-- The distance of two fractions with the same denominator. -/
def distance (a b : Nat) : Nat :=
  if a ≤ b then b - a else a - b

/-- The decimal of `count` digits nearest to a binary number that reads back as it, if any. -/
def withDigits? (b : Binary) (count : Nat) : Option Digits :=
  let (n, d) := b.toFraction
  let power := leadingPower n d
  let step := power - (count : Int) + 1
  let (a, e) := timesTen n d (-step)
  let low := a / e
  let reads := fun (grid : Nat) =>
    let (x, y) := timesTen grid 1 step
    readsBack b x y
  let nearest := if distance (low * e) a ≤ distance ((low + 1) * e) a then low else low + 1
  let grid? := if reads nearest then some nearest
    else if reads low then some low
    else if reads (low + 1) then some (low + 1)
    else none
  grid?.map fun grid =>
    let digits := Nat.toDigits 10 grid
    ⟨digits, step + digits.length - 1⟩

/-- The shortest decimal of a positive binary number. -/
def shortest (b : Binary) : Digits :=
  ((List.range 17).findSome? fun i => withDigits? b (i + 1)).getD ⟨['0'], 0⟩

/-- Digits without zeros at the end. -/
def trimZeros (digits : List Char) : List Char :=
  (digits.reverse.dropWhile (· == '0')).reverse

/-- A positive decimal as text: positional from ten to the minus fourth up to, not including, ten to
the sixteenth, with at least one place; otherwise with an exponent of at least two digits. -/
def Digits.render (x : Digits) : List Char :=
  let digits := trimZeros x.digits
  if -4 ≤ x.power && x.power < 16 then
    if x.power < 0 then
      '0' :: '.' :: List.replicate ((-x.power).toNat - 1) '0' ++ digits
    else
      let whole := x.power.toNat + 1
      let front := digits.take whole ++ List.replicate (whole - digits.length) '0'
      let places := digits.drop whole
      front ++ '.' :: if places.isEmpty then ['0'] else places
  else
    let exponent := Nat.toDigits 10 x.power.natAbs
    digits.take 1 ++ (if digits.length ≤ 1 then [] else '.' :: digits.drop 1)
      ++ 'e' :: (if x.power < 0 then '-' else '+')
      :: List.replicate (2 - exponent.length) '0' ++ exponent

/-- A number that is not negative, as text. -/
def render (b : Binary) : List Char :=
  if b.mantissa == 0 then ['0', '.', '0'] else (shortest b).render

end ServiceMap.Decimal
