import ServiceMap.Text.Digit
import ServiceMap.Tree.Path

/-!
# Faults of reading

What can go wrong when source text is read by position.
-/

namespace ServiceMap

/-- Why a question about a source text has no answer. -/
inductive Fault where
  /-- The character at the position opens no bracket. -/
  | notAnOpener
  /-- The position lies past the end of the text. -/
  | pastEnd
  /-- There is no line of that number. -/
  | noSuchLine
  /-- A path holds the NUL character. -/
  | nulInPath
  /-- A status code is written with too many digits. -/
  | numeral (cause : Text.NumeralFault)
deriving DecidableEq, Repr

/-- The wording of a fault. -/
def Fault.message : Fault → String
  | notAnOpener => "no bracket opens at this position"
  | pastEnd => "the position lies past the end of the text"
  | noSuchLine => "there is no line of this number"
  | nulInPath => Path.nulMessage
  | numeral cause => cause.message

end ServiceMap
