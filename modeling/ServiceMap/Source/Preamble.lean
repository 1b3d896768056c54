import ServiceMap.Source.Annotation
import ServiceMap.Source.Comment

/-!
# Preambles

The preamble of a declaration is what stands between the statement before it and the declaration:
its annotations and its documentation.
-/

namespace ServiceMap.Source

open ServiceMap.Text

/-- The number of characters, read backwards, that belong to a preamble: those up to the nearest
semicolon or brace outside parentheses and square brackets. `depth` is closers less openers passed,
and may be negative. -/
def preambleLength : (depth : Int) → (reversed : List Char) → Nat
  | _, [] => 0
  | depth, c :: s =>
    if c == ')' || c == ']' then preambleLength (depth + 1) s + 1
    else if c == '(' || c == '[' then preambleLength (depth - 1) s + 1
    else if depth ≤ 0 && (c == ';' || c == '\x7b' || c == '\x7d') then 0
    else preambleLength depth s + 1

/-- Where the preamble of a declaration at `index` starts in a masked text. -/
def preambleStart (masked : List Char) (index : Nat) : Except Fault Nat :=
  if masked.length < index then .error .pastEnd
  else .ok (index - preambleLength 0 (masked.take index).reverse)

/-- Annotations and documentation above a declaration. -/
structure Preamble where
  annotations : List (List Char) := []
  description : List Char := []
deriving Repr, DecidableEq

/-- The characters that masking changed; all others are spaces, newlines stay. -/
def commentsOf (text masked : List Char) : List Char :=
  (text.zip masked).map fun (c, m) => if c != m || c == '\n' then c else ' '

/-- How the preambles of a language are read: its annotations and the text of its comments. -/
structure PreambleStyle where
  annotations : List Char → Except Fault (List (List Char))
  comments : List Char → List Char

/-- The preamble that stands between two positions. -/
def readRegion (style : PreambleStyle) (text masked : List Char) (start stop : Nat) :
    Except Fault Preamble := do
  let region := slice masked start stop
  let annotations ← style.annotations region
  return ⟨annotations, style.comments (commentsOf (slice text start stop) region)⟩

/-- The preamble of the declaration at `index`. -/
def readPreamble (style : PreambleStyle) (text masked : List Char) (index : Nat) :
    Except Fault Preamble := do
  let start ← preambleStart masked index
  readRegion style text masked start index

/-- Preambles with at-sign annotations and block documentation. -/
def annotatedStyle : PreambleStyle := ⟨readAnnotations, docText⟩

/-- Preambles with bracketed attributes and XML documentation. -/
def attributedStyle : PreambleStyle := ⟨fun region => .ok (readAttributes region), xmlDocText⟩

end ServiceMap.Source
