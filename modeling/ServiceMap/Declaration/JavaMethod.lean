import ServiceMap.Declaration.JavaType

/-!
# Java methods

Methods of Java sources with their parameters and bodies.
-/

namespace ServiceMap.Declaration

open ServiceMap.Text ServiceMap.Source Pattern

/-- A method's head up to the parenthesis of its parameters: modifiers under 1, its result type
under 2, its name under 3. -/
def javaMethodHead : Pattern :=
  indentation ++ leadingAnnotations ++ capture 1 leadingWords
    ++ opt (lit "<" ++ many1 (· != '>') ++ lit ">" ++ blanks1)
    ++ capture 2 (javaTypeName [';', '\x7b', '\x7d', '(', ')']) ++ blanks1 ++ capture 3 word
    ++ blanks ++ lit "("

/-- An annotation with its arguments, as far as they hold no parenthesis. -/
def parameterMark : Pattern :=
  lit "@" ++ dottedWord ++ opt (blanks ++ lit "(" ++ many (· != ')') ++ lit ")")

/-- The parameter that a part of a parameter list declares: the last word is its name, the words
before are its type. -/
def javaParameter? (part : List Char) : Except Fault (Option DeclaredParameter) := do
  let annotations ← readAnnotations part
  let tokens := (words (parameterMark.replaceAll [' '] part)).filter (· != "final".toList)
  match tokens.reverse with
  | name :: type :: types =>
    return some { name, type := join [' '] (type :: types).reverse, annotations }
  | _ => return none

/-- The parameters of a method. -/
def javaParameters (text : List Char) : Except Fault (List DeclaredParameter) := do
  return (← (parts text).mapM javaParameter?).filterMap id

/-- The body of a method whose parameter list ends at `stop`; empty if a semicolon comes before the
brace. -/
def javaBody (masked : List Char) (stop : Nat) : Except Fault (List Char) :=
  match findFrom? ['\x7b'] masked stop with
  | none => .ok []
  | some brace =>
    if (slice masked stop brace).contains ';' then .ok []
    else (group masked brace).map Prod.fst

/-- Whether a head is that of a method: neither its type nor its name is a word of a statement,
and the words before are modifiers. -/
def isJavaMethod (m : Match) : Bool :=
  let type := String.ofList (m.group 2)
  !javaStatementWords.contains type && !javaModifiers.contains type
    && !javaStatementWords.contains (String.ofList (m.group 3))
    && (strings (words (m.group 1))).all javaModifiers.contains

/-- The method whose head is `m`. -/
def javaMethod (source : SourceText) (m : Match) : Except Fault DeclaredMethod := do
  let (parameters, stop) ← group source.masked (m.stop - 1)
  let body ← javaBody source.masked stop
  let start := if (m.group 1).isEmpty then m.groupStart 2 else m.groupStart 1
  let preamble ← readPreamble annotatedStyle source.text source.masked start
  let parameters ← javaParameters parameters
  let name := String.ofList (m.group 3)
  return {
    info := {
      name
      description := describe preamble.description ("Method: " ++ name)
      lineNumber := source.lineNumber (m.groupStart 2)
      parameters := parameters.map DeclaredParameter.toParameter
      returnType := String.ofList (m.group 2)
      annotations := strings preamble.annotations }
    index := m.start
    modifiers := words (m.group 1)
    parameters
    body
    doc := preamble.description }

/-- The methods of the types of a source, each with the number of its type. -/
def javaMethods (source : SourceText) (types : List OpenType) :
    Except Fault (List (Nat × DeclaredMethod)) := do
  let bodies := types.map OpenType.body
  let heads := (javaMethodHead.findAll source.masked).filter fun m =>
    isJavaMethod m && (owner? bodies source.masked m.start).isSome
  return ownedMethods types source.masked (← heads.mapM (javaMethod source))

end ServiceMap.Declaration
