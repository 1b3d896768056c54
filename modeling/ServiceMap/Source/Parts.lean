import ServiceMap.Source.Bracket
import ServiceMap.Text.Blank

/-!
# Lists in source text

Splitting a list of arguments, parameters or types at its separators. A separator counts only
outside brackets and string literals. The four kinds of bracket share one depth, and a closer that
nothing opened is passed over.
-/

namespace ServiceMap.Source

open ServiceMap.Text

/-- Characters put in front of the first of several pieces. -/
def prepend (s : List Char) : List (List Char) → List (List Char)
  | [] => [s]
  | piece :: pieces => (s ++ piece) :: pieces

/-- The stretches between separators at depth 0, as they stand. -/
def pieces (separator : Char) : (depth : Nat) → List Char → List (List Char)
  | _, [] => [[]]
  | depth, c :: s =>
    if isQuote c then
      let n := literalRest c true s
      prepend (c :: s.take n) (pieces separator depth (s.drop n))
    else if isOpener c then prepend [c] (pieces separator (depth + 1) s)
    else if isCloser c then prepend [c] (pieces separator (depth - 1) s)
    else if c == separator && depth == 0 then [] :: pieces separator 0 s
    else prepend [c] (pieces separator depth s)
termination_by _ s => s.length
decreasing_by all_goals simp; try omega

/-- The parts of a list with the given separator: trimmed, and without empty ones. -/
def partsAt (separator : Char) (text : List Char) : List (List Char) :=
  ((pieces separator 0 text).map trim).filter fun part => !part.isEmpty

/-- The parts of a list whose separator is given as a text. Only a single character separates. -/
def partsBy (separator text : List Char) : List (List Char) :=
  match separator with
  | [c] => partsAt c text
  | _ => [trim text].filter fun part => !part.isEmpty

/-- The parts of a comma-separated list: trimmed, and without empty ones. -/
def parts (text : List Char) : List (List Char) :=
  partsAt ',' text

end ServiceMap.Source
