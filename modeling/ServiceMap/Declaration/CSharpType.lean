import ServiceMap.Declaration.Span
import ServiceMap.Text.Case

/-!
# C# types

Classes, interfaces, enums, structs and records of C# sources with their fields and properties. A
record that has no body has its parameters as properties.
-/

namespace ServiceMap.Declaration

open ServiceMap.Text ServiceMap.Source Pattern

/-- Words that may stand before a declaration. -/
def csharpModifiers : List String :=
  ["public", "private", "protected", "internal", "static", "virtual", "override", "abstract",
    "async", "sealed", "new", "extern", "partial", "readonly", "unsafe", "required", "const",
    "volatile"]

/-- Words that start a statement, and are therefore no types. -/
def csharpStatementWords : List String :=
  ["return", "throw", "else", "if", "for", "foreach", "while", "switch", "catch", "case", "using",
    "lock", "await", "var"]

/-- The head of a type: modifiers under 1, its kind under 2, its name under 3. -/
def csharpTypeHead : Pattern :=
  wordEdge
    ++ capture 1 (star (oneOf ["public", "private", "protected", "internal", "abstract", "sealed",
        "static", "partial", "readonly"] ++ blanks1))
    ++ capture 2 (oneOf ["class", "interface", "enum", "struct"]
        <|> (lit "record" ++ opt (blanks1 ++ oneOf ["class", "struct"])))
    ++ blanks1 ++ capture 3 word

/-- Spaces and tabs at the start of a line, and attributes on the lines of a member. -/
def leadingAttributes : Pattern :=
  lineStart ++ many (fun c => c == ' ' || c == '\t')
    ++ star (lit "[" ++ many (· != ']') ++ lit "]" ++ blanks)

/-- A type with type arguments, in which the characters of `excluded` do not occur, and possibly
array brackets and a question mark. -/
def csharpTypeName (excluded : List Char) : Pattern :=
  dottedWord ++ opt (lit "<" ++ many (fun c => !excluded.contains c) ++ lit ">") ++ opt (lit "[]")
    ++ opt (lit "?")

/-- A field or property: modifiers under 1, its type under 2, its name under 3. What follows is an
accessor, an initialiser or the end. -/
def csharpMember : Pattern :=
  leadingAttributes ++ capture 1 (fewRounds (word ++ blanks1))
    ++ capture 2 (csharpTypeName [';', '=', '(', ')', '\x7b', '\x7d']) ++ blanks1 ++ capture 3 word
    ++ blanks
    ++ ahead ((char (· == '\x7b') ++ blanks ++ oneOf ["get", "set", "init"] ++ wordEdge)
        <|> (lit "=" ++ char (· != '>')) <|> lit ";")

/-- An attribute group, as far as it holds no closing bracket. -/
def parameterAttribute : Pattern :=
  lit "[" ++ many (· != ']') ++ lit "]"

/-- Words that may stand before a parameter's type. -/
def parameterWords : List String := ["this", "params", "ref", "out", "in"]

/-- The parameter that a part of a parameter list declares: the last word before a default is its
name, the words before are its type. -/
def csharpParameter? (part : List Char) : Option DeclaredParameter :=
  let declaration := parameterAttribute.replaceAll [' '] part
  let tokens := (words (before '=' declaration)).filter fun token =>
    !parameterWords.contains (String.ofList token)
  match tokens.reverse with
  | name :: type :: types =>
    some {
      name
      type := join [' '] (type :: types).reverse
      annotations := readAttributes part
      hasDefault := declaration.contains '=' }
  | _ => none

/-- The parameters of a method or record. -/
def csharpParameters (text : List Char) : List DeclaredParameter :=
  (parts text).filterMap csharpParameter?

/-- The fields and properties in a body. -/
def csharpMembers (source : SourceText) (body : Span) : Except Fault (List Property) :=
  ((csharpMember.findBetween source.masked body.start body.stop).filter fun m =>
      let type := String.ofList (m.group 2)
      !csharpStatementWords.contains type && !csharpModifiers.contains type
        && (strings (words (m.group 1))).all csharpModifiers.contains
        && body.encloses source.masked m.start).mapM fun m => do
    let preamble ← readPreamble attributedStyle source.text source.masked (m.groupStart 1)
    return {
      name := String.ofList (m.group 3)
      type := String.ofList (m.group 2)
      description := String.ofList preamble.description
      annotations := strings preamble.annotations }

/-- Whether position `a` is there and no position `b` comes before it. -/
def comesFirst (a b : Option Nat) : Option Nat :=
  match a, b with
  | some a, some b => if b < a then none else some a
  | a, _ => a

/-- The type whose head is `m`, without methods; none if it has neither a body nor, as a record,
parameters. -/
def csharpType? (source : SourceText) (m : Match) : Except Fault (Option OpenType) := do
  let preamble ← readPreamble attributedStyle source.text source.masked m.start
  let name := String.ofList (m.group 3)
  let info : TypeDecl := {
    name
    description := describe preamble.description (String.ofList (title (m.group 2)) ++ ": " ++ name)
    lineNumber := source.lineNumber m.start
    annotations := strings preamble.annotations }
  let semicolon := findFrom? [';'] source.masked m.stop
  match comesFirst (findFrom? ['\x7b'] source.masked m.stop) semicolon with
  | some brace =>
    let body : Span := ⟨brace + 1, ← groupEnd source.masked brace⟩
    return some ⟨{ info with properties := ← csharpMembers source body }, body⟩
  | none =>
    if !"record".toList.isPrefixOf (m.group 2) then return none
    match comesFirst (findFrom? ['('] source.masked m.stop) semicolon with
    | none => return none
    | some parenthesis =>
      let (parameters, _) ← group source.masked parenthesis
      let properties := (csharpParameters parameters).map fun p =>
        ({ name := String.ofList p.name, type := String.ofList p.type,
           annotations := strings p.annotations } : Property)
      return some ⟨{ info with properties }, ⟨m.stop, m.stop⟩⟩

/-- The types of a source, in its order. -/
def csharpTypes (source : SourceText) : Except Fault (List OpenType) := do
  return (← (csharpTypeHead.findAll source.masked).mapM (csharpType? source)).filterMap id

end ServiceMap.Declaration
