import ServiceMap.Proofs.Text.Numeral
import ServiceMap.Settings.Basic

/-!
# Values read as settings

When a value can be read as a list of texts, as a number of workers, as languages or as directories.
An integer of too many digits is neither written nor read as a text, and no path holds the NUL
character.
-/

namespace ServiceMap

open Text

namespace Settings

namespace Value

variable {v : Value}

/-! ## Values as texts -/

/-- What a value lists: a text itself, a sequence its items, and bytes their numbers. -/
def entries : Value → List Value
  | text s => [text s]
  | seq items => items
  | binary bytes => bytes.map fun byte => text (Nat.toDigits 10 byte)
  | _ => []

/-- The text that an entry is written as, however long it is; none if it is no text, number or truth
value. -/
def textOf? : Value → Option (List Char)
  | bool b => some (if b then "True" else "False").toList
  | int n => some (toString n).toList
  | number n => some n.render
  | text s => some s
  | _ => none

/-- Whether a value has no more digits than a numeral may have. -/
def IsWritable : Value → Prop
  | int n => n.natAbs < Nat.pow 10 longestNumeral
  | _ => True

/-- The texts of the entries. -/
def names (v : Value) : List (List Char) :=
  v.entries.filterMap textOf?

/-- Whether all entries can be written. -/
def HasWritableEntries (v : Value) : Prop :=
  ∀ entry ∈ v.entries, entry.IsWritable

/-- Whether a value states a number of workers that is none: an integer below one, or a text that
denotes no integer or such a one. -/
def IsBadNumber : Value → Prop
  | int n => n < 1
  | text s => ∀ n, denotedInteger? s = some n → n < 1
  | _ => False

/-- Whether a value is a text with more digits than a numeral may have. -/
def IsLongText : Value → Prop
  | text s => HasLongNumeral s
  | _ => False

end Value

/-! ## Languages and directories -/

/-- Whether a name, in any letter case, is that of no language. -/
def IsUnsupported (name : List Char) : Prop :=
  Language.ofLabel? (String.ofList (lower name)) = none

section Lists

variable {names : List (List Char)}

end Lists

end Settings

end ServiceMap
