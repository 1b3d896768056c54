import ServiceMap.Facts.Basic
import ServiceMap.Pattern.Matching
import ServiceMap.Source.Parts
import ServiceMap.Source.SourceText

/-!
# Go functions

Functions and methods of Go sources: their names, receivers, parameters and results.
-/

namespace ServiceMap.Declaration

open ServiceMap.Text ServiceMap.Source Pattern

/-- A function with the type it is a method of, if any. -/
structure GoFunction where
  receiver : Option (List Char)
  info : Function
deriving Repr, DecidableEq

/-- A list in square brackets. -/
def squareList : Pattern :=
  lit "[" ++ many (· != ']') ++ lit "]"

/-- A function's head up to the parenthesis of its parameters: the type of its receiver is
remembered under 1, its name under 2. -/
def goFunctionHead : Pattern :=
  wordEdge ++ lit "func" ++ blanks
    ++ opt (lit "(" ++ blanks ++ opt (word ++ blanks1) ++ opt (lit "*") ++ capture 1 word
        ++ opt squareList ++ blanks ++ lit ")" ++ blanks)
    ++ capture 2 word ++ blanks ++ opt squareList ++ lit "("

/-- A parameter; one without a name is described by its type. -/
def goParameter (name type : List Char) : Parameter :=
  let type := String.ofList (trim type)
  let named := String.ofList name
  ⟨named, type, "body", true,
    if name.isEmpty then "Parameter of type " ++ type else "Parameter: " ++ named⟩

/-- A part of a parameter list as its first word and what follows it. -/
def firstWord (part : List Char) : List Char × List Char :=
  let name := part.takeWhile fun c => !isBlank c
  (name, trimLeft (part.drop name.length))

/-- The parameters of a list's parts. Names that stand alone wait for the type of the next part
that has one; those left at the end are types without names. -/
def goParametersFrom (waiting : List (List Char)) : List (List Char) → List Parameter
  | [] => waiting.map (goParameter [])
  | part :: rest =>
    let (name, type) := firstWord part
    if type.isEmpty then goParametersFrom (waiting ++ [name]) rest
    else (waiting ++ [name]).map (goParameter · type) ++ goParametersFrom [] rest

/-- The parameters of a function. -/
def goParameters (text : List Char) : List Parameter :=
  goParametersFrom [] (parts text)

/-- The result type written after a parameter list that ends at `stop`: the rest of the line up to
a brace, or void. -/
def goResult (masked : List Char) (stop : Nat) : List Char :=
  let line := (masked.drop stop).takeWhile (· != '\n')
  let result := trim (before '\x7b' line)
  if result.isEmpty then "void".toList else result

/-- The function whose head is `m`. -/
def goFunction (source : SourceText) (m : Match) : Except Fault GoFunction := do
  let name := String.ofList (m.group 2)
  let (parameters, stop) ← group source.masked (m.stop - 1)
  let line := source.lineNumber m.start
  let doc ← commentAbove wholeComment? source.lines line
  return {
    receiver := m.group? 1
    info := {
      name
      description := if doc.isEmpty then "Function: " ++ name else String.ofList doc
      lineNumber := line
      parameters := goParameters parameters
      returnType := String.ofList (goResult source.masked stop)
      annotations := match m.group? 1 with
        | some receiver => ["receiver:" ++ String.ofList receiver]
        | none => [] } }

/-- The functions and methods of a source, in its order. -/
def goFunctions (source : SourceText) : Except Fault (List GoFunction) :=
  (goFunctionHead.findAll source.masked).mapM (goFunction source)

end ServiceMap.Declaration
