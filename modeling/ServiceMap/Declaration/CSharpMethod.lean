import ServiceMap.Declaration.CSharpType

/-!
# C# methods

Methods of C# sources with their parameters and bodies.
-/

namespace ServiceMap.Declaration

open ServiceMap.Text ServiceMap.Source Pattern

/-- A method's head up to the parenthesis of its parameters: modifiers under 1, its result type
under 2, its name under 3. -/
def csharpMethodHead : Pattern :=
  leadingAttributes ++ capture 1 (fewRounds (word ++ blanks1))
    ++ capture 2 (csharpTypeName [';', '\x7b', '\x7d', '(', ')']) ++ blanks1 ++ capture 3 word
    ++ blanks ++ opt (lit "<" ++ many (· != '>') ++ lit ">") ++ blanks ++ lit "("

/-- The body of a method whose parameter list ends at `stop`: the inside of braces, or the
expression after an arrow up to the semicolon, whichever comes first; empty if a semicolon comes
before either. -/
def csharpBody (masked : List Char) (stop : Nat) : Except Fault (List Char) :=
  let brace := findFrom? ['\x7b'] masked stop
  let arrow := findFrom? ['=', '>'] masked stop
  let semicolon := findFrom? [';'] masked stop
  match comesFirst (comesFirst brace semicolon) arrow with
  | some brace => (group masked brace).map Prod.fst
  | none =>
    match comesFirst arrow semicolon with
    | some arrow => .ok ((masked.drop (arrow + 2)).takeWhile (· != ';'))
    | none => .ok []

/-- Whether a head is that of a method: neither its type nor its name is a word of a statement,
and the words before are modifiers. The head of a constructor has a modifier in place of a type. -/
def isCSharpMethod (m : Match) : Bool :=
  let type := String.ofList (m.group 2)
  !csharpModifiers.contains type && !csharpStatementWords.contains type
    && !csharpStatementWords.contains (String.ofList (m.group 3))
    && (strings (words (m.group 1))).all csharpModifiers.contains

/-- The method whose head is `m`. -/
def csharpMethod (source : SourceText) (m : Match) : Except Fault DeclaredMethod := do
  let (parameters, stop) ← group source.masked (m.stop - 1)
  let start := if (m.group 1).isEmpty then m.groupStart 2 else m.groupStart 1
  let preamble ← readPreamble attributedStyle source.text source.masked start
  let parameters := csharpParameters parameters
  let name := String.ofList (m.group 3)
  return {
    info := {
      name
      description := describe preamble.description ("Method: " ++ name)
      lineNumber := source.lineNumber (m.groupStart 2)
      parameters := parameters.map DeclaredParameter.toParameter
      returnType := String.ofList (m.group 2)
      annotations := strings preamble.annotations }
    index := m.start
    modifiers := words (m.group 1)
    parameters
    body := ← csharpBody source.masked stop
    doc := preamble.description }

/-- The methods of a source that lie directly in the body of one of its types. -/
def csharpMethods (source : SourceText) (types : List OpenType) :
    Except Fault (List DeclaredMethod) := do
  let heads := (csharpMethodHead.findAll source.masked).filter fun m =>
    isCSharpMethod m && types.any fun t => t.body.encloses source.masked m.start
  heads.mapM (csharpMethod source)

end ServiceMap.Declaration
