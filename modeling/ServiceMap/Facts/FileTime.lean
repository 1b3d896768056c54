import ServiceMap.Decimal.Number
import ServiceMap.Facts.Instant

/-!
# Times of files

The time of a file's last change. File systems keep it in whole nanoseconds; it is set from a number
of seconds of 53 binary digits and told as one, and what is told is rounded to microseconds. Each of
these steps may move a time that lies between two microseconds.
-/

namespace ServiceMap.FileTime

open Decimal

/-- Nanoseconds in a second. -/
def nanos : Nat := 1000000000

/-- Microseconds in a second. -/
def micros : Nat := 1000000

/-- The part of a number before the point, and the part after it times `scale`, rounded to 53 binary
digits and given as a fraction. -/
def split (magnitude : Binary) (scale : Nat) : Nat × Nat × Nat :=
  let (n, d) := magnitude.toFraction
  let part := (Binary.ofFraction? (n % d * scale) d).getD ⟨0, 0⟩
  (n / d, part.toFraction)

/-- The nanoseconds that are kept for a number of seconds: the last that are not above it. -/
def kept (negative : Bool) (magnitude : Binary) : Int :=
  let (whole, n, d) := split magnitude nanos
  if negative then -((whole * nanos + (n + d - 1) / d : Nat) : Int)
  else ((whole * nanos + n / d : Nat) : Int)

/-- The number of seconds that is told for nanoseconds: whole seconds, and the rest of the
nanoseconds times the number next to a billionth. -/
def told (nanoseconds : Int) : Number :=
  let rest := (nanoseconds.fmod nanos).toNat
  (Number.ofInt? (nanoseconds.fdiv nanos)).elim .undefined fun seconds =>
    seconds.add ((Number.ofFraction false rest 1).mul (.ofFraction false 1 nanos))

/-- A number of seconds rounded to microseconds, a half to the even one. -/
def rounded? : Number → Option Int
  | .finite negative magnitude =>
    let (whole, n, d) := split magnitude micros
    let total : Int := (whole * micros + Binary.roundDiv n d : Nat)
    some (if negative then -total else total)
  | _ => none

/-- The instant that is told for a file whose time is set to a number of seconds since the start of
1970, written as a decimal. -/
def ofSeconds? (text : String) : Option Instant :=
  match Number.read? text.toList with
  | some (.finite negative magnitude) => (rounded? (told (kept negative magnitude))).map Instant.mk
  | _ => none

end ServiceMap.FileTime
