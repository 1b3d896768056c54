import ServiceMap.Source.Fault
import ServiceMap.Source.Masking
import ServiceMap.Text.Find

/-!
# Bracketed groups

A group runs from an opening bracket to the closing one at which the two kinds of this bracket are
equal in number. Brackets inside string literals do not count, brackets of other kinds are ordinary
characters. A group that is never closed runs to the end of the text.
-/

namespace ServiceMap.Source

open ServiceMap.Text

/-- The four kinds of bracket. -/
inductive Bracket where
  | round
  | square
  | curly
  | angle
deriving DecidableEq, Repr

namespace Bracket

/-- The opening character. -/
def opener : Bracket → Char
  | round => '('
  | square => '['
  | curly => '\x7b'
  | angle => '<'

/-- The closing character. -/
def closer : Bracket → Char
  | round => ')'
  | square => ']'
  | curly => '\x7d'
  | angle => '>'

/-- The bracket that a character opens. -/
def ofOpener? (c : Char) : Option Bracket :=
  [round, square, curly, angle].find? fun b => b.opener == c

/-- The number of characters up to and including the closer at which `depth` open brackets of this
kind are all closed; none if there is no such closer. -/
def closing? (b : Bracket) : (depth : Nat) → List Char → Option Nat
  | _, [] => none
  | depth, c :: s =>
    if isAnyQuote c then
      let n := literalRest c (c != backtick) s
      (b.closing? depth (s.drop n)).map (· + n + 1)
    else if c == b.opener then (b.closing? (depth + 1) s).map (· + 1)
    else if c == b.closer then
      if depth ≤ 1 then some 1 else (b.closing? (depth - 1) s).map (· + 1)
    else (b.closing? depth s).map (· + 1)
termination_by _ s => s.length
decreasing_by all_goals simp; try omega

end Bracket

/-- Whether a character opens a group. -/
def isOpener (c : Char) : Bool :=
  (Bracket.ofOpener? c).isSome

/-- Whether a character closes a group. -/
def isCloser (c : Char) : Bool :=
  [Bracket.round, .square, .curly, .angle].any fun b => b.closer == c

/-- The end of the group that the bracket at `index` opens: the position after its closer, or the
end of the text. -/
def groupEnd (text : List Char) (index : Nat) : Except Fault Nat :=
  match text.drop index with
  | [] => .error .pastEnd
  | c :: s =>
    match Bracket.ofOpener? c with
    | none => .error .notAnOpener
    | some b =>
      .ok (match b.closing? 1 s with
        | some n => index + 1 + n
        | none => text.length)

/-- The text between an opening position and the end of its group, less the opener and the last
character before the end. -/
def insideGroup (text : List Char) (index stop : Nat) : List Char :=
  slice text (index + 1) (stop - 1)

/-- The inside of the group that the bracket at `index` opens, and the end of the group. -/
def group (text : List Char) (index : Nat) : Except Fault (List Char × Nat) :=
  (groupEnd text index).map fun stop => (insideGroup text index stop, stop)

/-- Opening less closing braces between two positions. -/
def braceDepth (text : List Char) (start index : Nat) : Int :=
  let between := slice text start index
  (between.count '\x7b' : Int) - between.count '\x7d'

end ServiceMap.Source
