import ServiceMap.Source.Preamble

/-!
# Positions from the end

A position below zero counts from the end of a text: the last character stands at -1. Stretches are
cut off at the bounds of the text. A group that opens before zero goes on at the start of the text,
as positions do.
-/

namespace ServiceMap.Source

open ServiceMap.Text

/-- The position from the start that a position stands for, within the bounds of a text. -/
def place (text : List Char) (position : Int) : Nat :=
  if position < 0 then (text.length + position).toNat else min position.toNat text.length

/-- The number, from 1, of the line that holds a position. -/
def lineNumberAt (text : List Char) (position : Int) : Nat :=
  lineNumber text (place text position)

/-- Opening less closing braces between two positions. -/
def braceDepthAt (text : List Char) (start position : Int) : Int :=
  braceDepth text (place text start) (place text position)

/-- The end of the group that the bracket at a position opens. -/
def groupEndAt (text : List Char) (position : Int) : Except Fault Int :=
  if 0 ≤ position then (groupEnd text position.toNat).map Int.ofNat
  else if text.length + position < 0 then .error .pastEnd
  else (groupEnd (text.drop (place text position) ++ text) 0).map fun stop => position + stop

/-- The inside of the group that the bracket at a position opens, and the end of the group. -/
def groupAt (text : List Char) (position : Int) : Except Fault (List Char × Int) :=
  (groupEndAt text position).map fun stop =>
    (slice text (place text (position + 1)) (place text (max (position + 1) (stop - 1))), stop)

/-- Where the preamble of a declaration at a position starts: at the start of the text, if the
position is below zero. -/
def preambleStartAt (masked : List Char) (position : Int) : Except Fault Nat :=
  if position < 0 then .ok 0 else preambleStart masked position.toNat

/-- The preamble of the declaration at a position. -/
def readPreambleAt (style : PreambleStyle) (text masked : List Char) (position : Int) :
    Except Fault Preamble := do
  let start ← preambleStartAt masked position
  readRegion style text masked start (place masked position)

end ServiceMap.Source
