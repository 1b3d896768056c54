import ServiceMap.Declaration.GoFunction
import ServiceMap.Text.Case

/-!
# Go types

Structs and interfaces of Go sources. A struct's fields are read line by line; a line that names
only a type embeds it. A type has the methods of the functions that name it as their receiver.
-/

namespace ServiceMap.Declaration

open ServiceMap.Text ServiceMap.Source Pattern

/-- The head of a type up to the brace of its body: its name is remembered under 1, its kind
under 2. -/
def goTypeHead : Pattern :=
  wordEdge ++ lit "type" ++ blanks1 ++ capture 1 word ++ blanks1
    ++ capture 2 (oneOf ["struct", "interface"]) ++ blanks ++ char (· == '\x7b')

/-- A tag between backticks. -/
def fieldTag : Pattern :=
  char (· == backtick) ++ capture 1 (many (· != backtick)) ++ char (· == backtick)

/-- Names separated by commas, remembered under 1, and a type, remembered under 2. -/
def fieldLine : Pattern :=
  capture 1 (word ++ star (blanks ++ lit "," ++ blanks ++ word)) ++ blanks1
    ++ capture 2 (many1 (· != '\n')) ++ textEnd

/-- The name of a type without pointer mark and package. -/
def bareTypeName (type : List Char) : List Char :=
  afterLast '.' (dropLeft (· == '*') type)

/-- The properties that a line of a struct declares. -/
def goFields (line : List Char) : List Property :=
  let line := trim line
  if line.isEmpty || line == ['\x7b'] || line == ['\x7d'] then []
  else
    let tag := ((fieldTag.find? line).map fun m => m.group 1).getD []
    let declaration := trim (fieldTag.replaceAll [] line)
    let tags := if tag.isEmpty then [] else [String.ofList tag]
    let description := if tag.isEmpty then "" else "Tag: " ++ String.ofList tag
    match fieldLine.matchStart? declaration with
    | some m =>
      (splitOn (· == ',') (m.group 1)).map fun name =>
        ⟨String.ofList (trim name), String.ofList (trim (m.group 2)), description, tags⟩
    | none =>
      match (words declaration).head? with
      | some type =>
        [⟨String.ofList (bareTypeName type), String.ofList type, description, "embedded" :: tags⟩]
      | none => []

/-- The properties of a struct's body. -/
def goProperties (body : List Char) : List Property :=
  (lines body).flatMap goFields

/-- The type whose head is `m`, without methods. -/
def goType (source : SourceText) (m : Match) : Except Fault TypeDecl := do
  let name := String.ofList (m.group 1)
  let kind := m.group 2
  let (body, _) ← group source.masked (m.stop - 1)
  let line := source.lineNumber m.start
  let doc ← commentAbove wholeComment? source.lines line
  return {
    name
    description := if doc.isEmpty then String.ofList (title kind) ++ ": " ++ name
      else String.ofList doc
    lineNumber := line
    properties := if kind == "struct".toList then goProperties body else []
    annotations := [String.ofList kind] }

/-- Gives the first type of each name the functions that have this name as their receiver; `seen`
holds the names that were given theirs. -/
def attachMethods (functions : List GoFunction) (seen : List String) :
    List TypeDecl → List TypeDecl
  | [] => []
  | type :: rest =>
    let methods := if seen.contains type.name then []
      else (functions.filter fun f => f.receiver.map String.ofList == some type.name).map
        GoFunction.info
    { type with methods } :: attachMethods functions (type.name :: seen) rest

/-- The types of a source with their methods, in its order. -/
def goTypes (source : SourceText) : Except Fault (List TypeDecl) := do
  let types ← (goTypeHead.findAll source.masked).mapM (goType source)
  let functions ← goFunctions source
  return attachMethods functions [] types

end ServiceMap.Declaration
