import ServiceMap.Source.Fault
import ServiceMap.Source.Masking
import ServiceMap.Text.Blank
import ServiceMap.Text.Find
import ServiceMap.Text.Lines

/-!
# Source texts

A source text together with its masked form and its lines, and the line comments directly above a
line.
-/

namespace ServiceMap.Source

open ServiceMap.Text

/-- A source text as its readers see it. -/
structure SourceText where
  /-- The text as written. -/
  text : List Char
  /-- The text with its comments blanked out. -/
  masked : List Char
  /-- The lines of the text as written. -/
  lines : List (List Char)
deriving Repr, DecidableEq

/-- A text in a language whose raw strings are delimited by `rawQuote`. -/
def SourceText.ofText (rawQuote : Option Char) (text : List Char) : SourceText :=
  ⟨text, maskComments rawQuote text, Text.lines text⟩

/-- The number of the line that holds a position. -/
def SourceText.lineNumber (s : SourceText) (index : Nat) : Nat :=
  Text.lineNumber s.masked index

/-- The block of comment lines directly above line `number`, read line by line with `read`, which
refuses a line that is no comment. Empty comments are left out. -/
def commentAbove (read : List Char → Option (List Char)) (lines : List (List Char))
    (number : Nat) : Except Fault (List Char) :=
  if lines.length + 1 < number then .error .noSuchLine
  else
    let block := ((lines.take (number - 1)).reverse.map read).takeWhile Option.isSome
    .ok (joinLines ((block.filterMap id).filter fun line => !line.isEmpty).reverse)

/-- The words of a line that is a comment as a whole: a line comment, or a block comment that ends
on the line. -/
def wholeComment? (line : List Char) : Option (List Char) :=
  let line := trim line
  if ['/', '/'].isPrefixOf line then some (trim (line.drop 2))
  else if ['/', '*'].isPrefixOf line && endsWith ['*', '/'] line then
    some (trim (slice line 2 (line.length - 2)))
  else none

/-- The words of a line that is a line comment, whatever the number of its slashes. -/
def lineComment? (line : List Char) : Option (List Char) :=
  let line := trim line
  if ['/', '/'].isPrefixOf line then some (trim (dropLeft (· == '/') line)) else none

end ServiceMap.Source
