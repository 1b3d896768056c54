import ServiceMap.Declaration.Span
import ServiceMap.Text.Case

/-!
# Java types

Classes, interfaces, enums and records of Java sources with their fields.
-/

namespace ServiceMap.Declaration

open ServiceMap.Text ServiceMap.Source Pattern

/-- Words that may stand before a declaration. -/
def javaModifiers : List String :=
  ["public", "private", "protected", "static", "final", "abstract", "synchronized", "default",
    "native", "transient", "volatile", "strictfp"]

/-- Words that start a statement, and are therefore no types. -/
def javaStatementWords : List String :=
  ["return", "new", "throw", "else", "if", "for", "while", "switch", "catch", "case", "do", "try",
    "yield"]

/-- The head of a type: modifiers under 1, its kind under 2, its name under 3. -/
def javaTypeHead : Pattern :=
  wordEdge
    ++ capture 1 (star (oneOf ["public", "private", "protected", "abstract", "final", "static",
        "sealed", "strictfp"] ++ blanks1))
    ++ capture 2 (oneOf ["class", "interface", "enum", "record"]) ++ blanks1 ++ capture 3 word

/-- Spaces and tabs at the start of a line. -/
def indentation : Pattern :=
  lineStart ++ many fun c => c == ' ' || c == '\t'

/-- Annotations on the line of a member. -/
def leadingAnnotations : Pattern :=
  star (lit "@" ++ dottedWord ++ opt (lit "(" ++ many (· != ')') ++ lit ")") ++ blanks1)

/-- The words before a member's type. -/
def leadingWords : Pattern :=
  fewRounds (word ++ blanks1)

/-- A type with type arguments, in which the characters of `excluded` do not occur, and with array
brackets. -/
def javaTypeName (excluded : List Char) : Pattern :=
  dottedWord ++ opt (lit "<" ++ many (fun c => !excluded.contains c) ++ lit ">") ++ star (lit "[]")

/-- A field: modifiers under 1, its type under 2, its name under 3. -/
def javaField : Pattern :=
  indentation ++ leadingAnnotations ++ capture 1 leadingWords
    ++ capture 2 (javaTypeName [';', '=', '(', ')', '\x7b', '\x7d']) ++ blanks1 ++ capture 3 word
    ++ blanks ++ opt (lit "=" ++ many (· != ';')) ++ lit ";"

/-- The fields in a body. -/
def javaFields (source : SourceText) (body : Span) : Except Fault (List Property) :=
  ((javaField.findBetween source.masked body.start body.stop).filter fun m =>
      let type := String.ofList (m.group 2)
      !javaStatementWords.contains type && !javaModifiers.contains type
        && body.encloses source.masked m.start
        && (strings (words (m.group 1))).all javaModifiers.contains).mapM fun m => do
    let preamble ← readPreamble annotatedStyle source.text source.masked (m.groupStart 1)
    return {
      name := String.ofList (m.group 3)
      type := String.ofList (m.group 2)
      description := String.ofList preamble.description
      annotations := strings preamble.annotations }

/-- The type whose head is `m`, without methods; none if it has no body. -/
def javaType? (source : SourceText) (m : Match) : Except Fault (Option OpenType) := do
  match findFrom? ['\x7b'] source.masked m.stop with
  | none => return none
  | some brace =>
    if (slice source.masked m.stop brace).contains ';' then return none
    let preamble ← readPreamble annotatedStyle source.text source.masked m.start
    let name := String.ofList (m.group 3)
    let body : Span := ⟨brace + 1, ← groupEnd source.masked brace⟩
    return some {
      info := {
        name
        description := describe preamble.description
          (String.ofList (title (m.group 2)) ++ ": " ++ name)
        lineNumber := source.lineNumber m.start
        properties := ← javaFields source body
        annotations := strings preamble.annotations }
      body }

/-- The types of a source, in its order. -/
def javaTypes (source : SourceText) : Except Fault (List OpenType) := do
  return (← (javaTypeHead.findAll source.masked).mapM (javaType? source)).filterMap id

end ServiceMap.Declaration
