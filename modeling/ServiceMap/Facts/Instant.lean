/-!
# Instants

Points in time, in microseconds since the start of 1970, and their calendar form
`YYYY-MM-DDThh:mm:ss`, followed by six decimals of the second unless they are zero, and by the
offset of universal time.
-/

namespace ServiceMap

/-- A point in time. -/
structure Instant where
  /-- Microseconds since the start of 1970, universal time. -/
  microseconds : Int
deriving DecidableEq, Repr

namespace Instant

/-- A day of the calendar. -/
structure Date where
  year : Int
  month : Nat
  day : Nat
deriving DecidableEq, Repr

/-- Days before 1970 that the count of days starts at: the first of March of the year 0. -/
def epochShift : Int := 719468

/-- The calendar day that lies `days` after the first of January 1970. Years are counted from
March, so that the leap day is the last of its year, in cycles of 400 years. -/
def Date.ofDays (days : Int) : Date :=
  let z := days + epochShift
  let era := z.fdiv 146097
  let dayOfEra := (z.fmod 146097).toNat
  let yearOfEra := (dayOfEra - dayOfEra / 1460 + dayOfEra / 36524 - dayOfEra / 146096) / 365
  let dayOfYear := dayOfEra - (365 * yearOfEra + yearOfEra / 4 - yearOfEra / 100)
  let shifted := (5 * dayOfYear + 2) / 153
  let day := dayOfYear - (153 * shifted + 2) / 5 + 1
  let month := if shifted < 10 then shifted + 3 else shifted - 9
  ⟨yearOfEra + era * 400 + (if month ≤ 2 then 1 else 0), month, day⟩

/-- The number of days from the first of January 1970. -/
def Date.toDays (d : Date) : Int :=
  let y := if d.month ≤ 2 then d.year - 1 else d.year
  let era := y.fdiv 400
  let yearOfEra := (y.fmod 400).toNat
  let shifted := if d.month > 2 then d.month - 3 else d.month + 9
  let dayOfYear := (153 * shifted + 2) / 5 + d.day - 1
  let dayOfEra := yearOfEra * 365 + yearOfEra / 4 - yearOfEra / 100 + dayOfYear
  era * 146097 + dayOfEra - epochShift

/-- A number with zeros in front, to at least `width` digits. -/
def padded (width n : Nat) : List Char :=
  let digits := Nat.toDigits 10 n
  List.replicate (width - digits.length) '0' ++ digits

/-- Whole seconds since the start of 1970. -/
def seconds (t : Instant) : Int :=
  t.microseconds.fdiv 1000000

/-- Microseconds since the last whole second. -/
def fraction (t : Instant) : Nat :=
  (t.microseconds.fmod 1000000).toNat

/-- The day as it is written. -/
def dayText (t : Instant) : List Char :=
  let date := Date.ofDays (t.seconds.fdiv 86400)
  padded 4 date.year.toNat ++ '-' :: padded 2 date.month ++ '-' :: padded 2 date.day

/-- The time of the day as it is written, in whole seconds. -/
def timeText (t : Instant) : List Char :=
  let time := (t.seconds.fmod 86400).toNat
  padded 2 (time / 3600) ++ ':' :: padded 2 (time / 60 % 60) ++ ':' :: padded 2 (time % 60)

/-- The calendar form. -/
def render (t : Instant) : String :=
  let fraction := if t.fraction = 0 then [] else '.' :: padded 6 t.fraction
  String.ofList (t.dayText ++ 'T' :: t.timeText ++ fraction ++ "+00:00".toList)

/-- The calendar form in log files: a blank between day and time, and three decimals after a
comma. -/
def stamp (t : Instant) : String :=
  String.ofList (t.dayText ++ ' ' :: t.timeText ++ ',' :: padded 3 (t.fraction / 1000))

/-- The number that a run of digits denotes. -/
def digitsValue? (s : List Char) : Option Nat :=
  if !s.isEmpty && s.all Char.isDigit then
    some (s.foldl (fun n c => 10 * n + (c.toNat - '0'.toNat)) 0)
  else none

/-- Reads the calendar form. -/
def read? (text : String) : Option Instant := do
  let s := text.toList
  let number := fun (start length : Nat) => digitsValue? ((s.drop start).take length)
  let date : Date := ⟨← number 0 4, ← number 5 2, ← number 8 2⟩
  let time := (← number 11 2) * 3600 + (← number 14 2) * 60 + (← number 17 2)
  let micros ← if s[19]? = some '.' then number 20 6 else some 0
  return ⟨(date.toDays * 86400 + time) * 1000000 + micros⟩

end Instant

end ServiceMap
