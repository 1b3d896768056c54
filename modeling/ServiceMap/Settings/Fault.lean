import ServiceMap.Text.Digit
import ServiceMap.Text.Quoted

/-!
# Faults of documents

Why the text of a document has no value.
-/

namespace ServiceMap.Settings

open Text

/-- A part of a point in time that is out of range. -/
inductive TimePart where
  /-- There is no year zero. -/
  | year
  | month
  | day
  | hour
  | minute
  | second
  /-- The offset from universal time, in minutes, is a day or more. -/
  | offset (minutes : Int)
deriving DecidableEq, Repr

/-- Why a scalar has no value, although it has the form or the tag of one. -/
inductive ScalarFault where
  /-- An escape is the number of no character. -/
  | noCharacter
  /-- The number in an escape is above all that can be asked for. -/
  | codeTooLarge
  /-- A decimal numeral has this many digits, which are too many. -/
  | longNumeral (digits : Nat)
  /-- The text is no integer in a base. -/
  | notInteger (base : Base) (text : List Char)
  /-- The text is no number with places. -/
  | notNumber (text : List Char)
  /-- Nothing is left of a number but its sign. -/
  | noDigits
  /-- Groups of sixty stand for a number that is too large. -/
  | tooManyGroups
  /-- The text is no word for a truth value. -/
  | notTruth
  /-- The text is no date. -/
  | notDate
  /-- A mapping stands where the text of a date is expected. -/
  | dateInMapping
  /-- A part of a date or a time of day is not in the calendar. -/
  | outOfRange (part : TimePart)
deriving DecidableEq, Repr

/-- Why a document has no value. -/
inductive DocumentFault where
  /-- The text does not follow the rules of documents. -/
  | malformed
  /-- Parts lie in each other too deep. -/
  | tooDeep
  /-- A scalar has no value. -/
  | scalar (fault : ScalarFault)
deriving DecidableEq, Repr

/-- The most characters of a text that is no integer which a message repeats. -/
def longestRepeat : Nat := 200

/-- A stretch of time in minutes, as whole days and the seconds after them. -/
def stretchText (minutes : Int) : String :=
  let days := minutes.fdiv 1440
  let seconds := 60 * minutes.fmod 1440
  "datetime.timedelta(days=" ++ toString days
    ++ (if seconds == 0 then "" else ", seconds=" ++ toString seconds) ++ ")"

/-- The wording for a part that is out of range. -/
def TimePart.message : TimePart → String
  | year => "year 0 is out of range"
  | month => "month must be in 1..12"
  | day => "day is out of range for month"
  | hour => "hour must be in 0..23"
  | minute => "minute must be in 0..59"
  | second => "second must be in 0..59"
  | offset minutes =>
    "offset must be a timedelta strictly between -timedelta(hours=24) and timedelta(hours=24), not "
      ++ stretchText minutes ++ "."

/-- The wording of a fault. -/
def ScalarFault.message : ScalarFault → String
  | noCharacter => "chr() arg not in range(0x110000)"
  | codeTooLarge => "the number of a character is too large"
  | longNumeral digits => (NumeralFault.tooLong digits).message
  | notInteger base text =>
    "invalid literal for int() with base " ++ toString base.size ++ ": "
      ++ String.ofList ((quote text).take longestRepeat)
  | notNumber text => "could not convert string to float: " ++ String.ofList (quote text)
  | noDigits => "a number has no digits"
  | tooManyGroups => "a number has too many groups"
  | notTruth => "no truth value"
  | notDate => "no date"
  | dateInMapping => "no date but a mapping"
  | outOfRange part => part.message

end ServiceMap.Settings
