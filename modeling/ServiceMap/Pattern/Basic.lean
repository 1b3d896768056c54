import ServiceMap.Text.Blank
import ServiceMap.Text.Word
import ServiceMap.Text.Digit

/-!
# Patterns of text

A pattern describes the stretches of text that a declaration, a route or an import may be written
as. Where a pattern can match in several ways the ways are ordered: an eager repetition prefers
many rounds, a reluctant one few, an alternative its first branch. Which stretch a pattern takes
is the first way after which the rest of the pattern matches too.

This module holds the patterns; `ServiceMap.Pattern.Matching` says how one is matched.
-/

namespace ServiceMap

/-- A description of stretches of text. -/
inductive Pattern where
  /-- Nothing at all. -/
  | empty
  /-- One character of a class. -/
  | char (accepts : Char → Bool)
  /-- The place between a character of a name and one that is none. -/
  | wordEdge
  /-- The start of the text or the place after a newline. -/
  | lineStart
  /-- The end of the text. -/
  | textEnd
  /-- The one after the other. -/
  | seq (first second : Pattern)
  /-- The one, or else the other. -/
  | either (first second : Pattern)
  /-- Any number of characters of a class, the most first if `eager`. -/
  | chars (accepts : Char → Bool) (eager : Bool)
  /-- Any number of rounds, the most first if `eager`. -/
  | rounds (body : Pattern) (eager : Bool)
  /-- A stretch to be remembered under a number. -/
  | capture (slot : Nat) (body : Pattern)
  /-- A place before a stretch, which is not taken. -/
  | ahead (body : Pattern)

namespace Pattern

instance : Append Pattern := ⟨seq⟩

instance : OrElse Pattern := ⟨fun p q => either p (q ())⟩

/-- Exactly these characters. -/
def ofChars : List Char → Pattern
  | [] => empty
  | [c] => char (· == c)
  | c :: s => char (· == c) ++ ofChars s

/-- Exactly this text. -/
def lit (s : String) : Pattern :=
  ofChars s.toList

/-- Any number of characters of a class, the most first. -/
def many (accepts : Char → Bool) : Pattern :=
  chars accepts true

/-- One or more characters of a class, the most first. -/
def many1 (accepts : Char → Bool) : Pattern :=
  char accepts ++ chars accepts true

/-- Any number of characters of a class, the fewest first. -/
def few (accepts : Char → Bool) : Pattern :=
  chars accepts false

/-- One or more characters of a class, the fewest first. -/
def few1 (accepts : Char → Bool) : Pattern :=
  char accepts ++ chars accepts false

/-- The pattern, or else nothing. -/
def opt (p : Pattern) : Pattern :=
  either p empty

/-- Any number of rounds, the most first. -/
def star (p : Pattern) : Pattern :=
  rounds p true

/-- Any number of rounds, the fewest first. -/
def fewRounds (p : Pattern) : Pattern :=
  rounds p false

/-- One of these texts, the earlier ones first. -/
def oneOf : List String → Pattern
  | [] => char fun _ => false
  | [s] => lit s
  | s :: rest => either (lit s) (oneOf rest)

/-- A name. -/
def word : Pattern :=
  many1 Text.isWord

/-- A name that may be qualified with dots. -/
def dottedWord : Pattern :=
  many1 Text.isDottedWord

/-- Any number of blanks. -/
def blanks : Pattern :=
  many Text.isBlank

/-- One or more blanks. -/
def blanks1 : Pattern :=
  many1 Text.isBlank

/-- A double-quoted stretch of any length without double quotes, remembered under `slot`. -/
def quoted (slot : Nat) : Pattern :=
  lit "\"" ++ capture slot (many (· != '"')) ++ lit "\""

/-- A double-quoted stretch of at least one character, remembered under `slot`. -/
def quoted1 (slot : Nat) : Pattern :=
  lit "\"" ++ capture slot (many1 (· != '"')) ++ lit "\""

end Pattern

end ServiceMap
