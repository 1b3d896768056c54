import ServiceMap.Pattern.Matching
import ServiceMap.Source.Parts

/-!
# Annotations

Annotations start with an at sign, attributes stand in square brackets. Both have a name, which may
be qualified, and may have arguments in parentheses.
-/

namespace ServiceMap.Source

open ServiceMap.Text Pattern

/-- The front of an annotation or attribute up to the end of its name. -/
def annotationHead : Pattern :=
  char (fun c => c == '@' || c == '[') ++ blanks ++ capture 1 dottedWord

/-- The unqualified name of an annotation or attribute; empty if it has none. -/
def annotationName (mark : List Char) : List Char :=
  match annotationHead.matchStart? mark with
  | some m => afterLast '.' (m.group 1)
  | none => []

/-- The text between the parentheses of an annotation; empty if there are none. -/
def annotationArguments (mark : List Char) : Except Fault (List Char) :=
  match find? ['('] mark with
  | none => .ok []
  | some index => (group mark index).map Prod.fst

/-- A double-quoted stretch. -/
def quotedText : Pattern :=
  quoted 1

/-- The first double-quoted stretch of a text. -/
def firstString? (text : List Char) : Option (List Char) :=
  (quotedText.find? text).bind (·.group? 1)

/-- An at sign and a name. -/
def atName : Pattern :=
  lit "@" ++ char isNameStart ++ many isDottedWord

/-- The annotation that starts with the at sign and name `m`, with its arguments if any. -/
def annotationAt (region : List Char) (m : Match) : Except Fault (List Char) :=
  let after := region.drop m.stop
  let skipped := after.takeWhile isBlank
  if (after.drop skipped.length).head? == some '(' then
    (groupEnd region (m.stop + skipped.length)).map fun stop =>
      collapseBlanks (slice region m.start stop)
  else .ok m.text

/-- The annotations that are not part of an earlier one: an annotation that occurs inside an
earlier kept one and differs from it is left out. -/
def dropNested (annotations : List (List Char)) : List (List Char) :=
  annotations.foldl (fun kept mark =>
    if kept.any fun other => mark != other && isWithin mark other then kept
    else kept ++ [mark]) []

/-- The annotations of a region of masked text that are not arguments of another annotation. -/
def readAnnotations (region : List Char) : Except Fault (List (List Char)) :=
  ((atName.findAll region).mapM (annotationAt region)).map dropNested

/-- The groups in square brackets at the top of a region: the inside of each. -/
def squareGroups : List Char → List (List Char)
  | [] => []
  | c :: s =>
    if c == '[' then
      match Bracket.square.closing? 1 s with
      | some n => s.take (n - 1) :: squareGroups (s.drop n)
      | none => [s.take (s.length - 1)]
    else squareGroups s
termination_by s => s.length
decreasing_by all_goals simp; try omega

/-- The attributes of a region of masked text, each in brackets of its own. -/
def readAttributes (region : List Char) : List (List Char) :=
  (squareGroups region).flatMap fun inner =>
    (parts inner).map fun part => collapseBlanks ('[' :: part ++ [']'])

end ServiceMap.Source
