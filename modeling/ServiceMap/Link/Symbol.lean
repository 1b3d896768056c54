import ServiceMap.Declaration.GoType
import ServiceMap.Service.Context

/-!
# Symbols

The type names that a source refers to by inheritance, embedding and injection, and the files that
declare them.
-/

namespace ServiceMap.Link

open Text Source Declaration Pattern

/-- A reference to a type by name. -/
structure SymbolUse where
  kind : EdgeKind
  name : List Char
  details : List Char
deriving Repr, DecidableEq

/-! ## Go -/

/-- A struct's head up to the brace of its body. -/
def structHead : Pattern :=
  wordEdge ++ lit "type" ++ blanks1 ++ capture 1 word ++ blanks1 ++ lit "struct" ++ blanks
    ++ char (· == '\x7b')

/-- A tag between backticks, whatever it holds. -/
def anyTag : Pattern :=
  char (· == backtick) ++ many (· != backtick) ++ char (· == backtick)

/-- A type that stands alone, possibly as a pointer. -/
def loneType : Pattern :=
  opt (lit "*") ++ dottedWord ++ textEnd

/-- The name of the type that a line of a struct embeds. -/
def embeddedName? (line : List Char) : Option (List Char) :=
  let line := trim (anyTag.replaceAll [] line)
  if (loneType.matchStart? line).isSome then some (bareTypeName line) else none

/-- The types that the struct whose head is `m` embeds. -/
def embeddings (masked : List Char) (m : Match) : Except Fault (List SymbolUse) := do
  let (body, _) ← group masked (m.stop - 1)
  return ((lines body).filterMap embeddedName?).map fun name =>
    ⟨.references, name,
      "Struct embedding: ".toList ++ m.group 1 ++ " embeds ".toList ++ name⟩

/-! ## Java -/

/-- The arguments of a generic type, the fewest characters that end in a closing bracket. -/
def fewTypeArguments : Pattern :=
  blanks ++ lit "<" ++ few (· != '\x7b') ++ lit ">"

/-- A class's head: its name under 1, the class it extends under 2, the interfaces it implements
under 3. -/
def javaClass : Pattern :=
  wordEdge ++ lit "class" ++ blanks1 ++ capture 1 word ++ opt fewTypeArguments
    ++ opt (blanks1 ++ lit "extends" ++ blanks1 ++ capture 2 dottedWord ++ opt fewTypeArguments)
    ++ opt (blanks1 ++ lit "implements" ++ blanks1
        ++ capture 3
          (many1 fun c => isDottedWord c || c == ',' || isBlank c || c == '<' || c == '>'))

/-- Type arguments, from the first opening to the last closing bracket of a line. -/
def typeArguments : Pattern :=
  lit "<" ++ many (· != '\n') ++ lit ">"

/-- A type without its arguments. -/
def withoutArguments (type : List Char) : List Char :=
  trim (typeArguments.replaceAll [] type)

/-- The class that a class extends. -/
def javaExtends (m : Match) : List SymbolUse :=
  match m.group? 2 with
  | some base =>
    [⟨.inherits, afterLast '.' base, m.group 1 ++ " extends ".toList ++ base⟩]
  | none => []

/-- The interfaces that a class implements. -/
def javaImplements (m : Match) : List SymbolUse :=
  (parts (m.group 3)).filterMap fun type =>
    let name := afterLast '.' (withoutArguments type)
    if name.isEmpty then none
    else some ⟨.implements, name, m.group 1 ++ " implements ".toList ++ name⟩

/-- A field that is injected: its type under 1, its name under 2. -/
def injectedField : Pattern :=
  lit "@Autowired" ++ blanks1 ++ opt (oneOf ["private", "protected", "public"]) ++ blanks
    ++ capture 1 word ++ blanks1 ++ capture 2 word ++ lit ";"

/-- A mark of injection. -/
def injectionMark : Pattern :=
  lit "@" ++ oneOf ["Autowired", "Inject", "Service", "Component", "Repository"] ++ wordEdge

/-- The type of an injected field. -/
def javaInjection (m : Match) : SymbolUse :=
  ⟨.references, m.group 1, "@Autowired ".toList ++ m.group 1 ++ ' ' :: m.group 2⟩

/-! ## C# -/

/-- A class's head up to the brace of its body: its name under 1, its base types under 2. -/
def csharpClass : Pattern :=
  wordEdge ++ lit "class" ++ blanks1 ++ capture 1 word
    ++ opt (blanks ++ lit "<" ++ many (fun c => c != '\x7b' && c != ':') ++ lit ">")
    ++ opt (blanks ++ lit ":" ++ blanks ++ capture 2 (few1 fun c => c != '\x7b' && c != ';'))
    ++ blanks
    ++ opt (wordEdge ++ lit "where" ++ wordEdge ++ many fun c => c != '\x7b' && c != ';')
    ++ char (· == '\x7b')

/-- The base types of a class. -/
def csharpBases (m : Match) : List SymbolUse :=
  (parts (m.group 2)).filterMap fun type =>
    let name := withoutArguments type
    if name.isEmpty then none
    else some ⟨.inherits, name, m.group 1 ++ " : ".toList ++ type⟩

/-- A field that is injected through the constructor: its type without the leading letter under 1,
its name under 2. -/
def readonlyField : Pattern :=
  oneOf ["private", "protected", "public"] ++ blanks1 ++ lit "readonly" ++ blanks1 ++ lit "I"
    ++ capture 1 word ++ blanks1 ++ lit "_" ++ capture 2 word ++ lit ";"

/-- The type of an injected field. -/
def csharpInjection (m : Match) : SymbolUse :=
  let name := 'I' :: m.group 1
  ⟨.references, name, "Dependency injection: ".toList ++ name⟩

/-! ## All languages -/

/-- The types that a masked source refers to, kind by kind. -/
def symbolUses : Language → (masked : List Char) → Except Fault (List SymbolUse)
  | .go, masked => do
    return (← (structHead.findAll masked).mapM (embeddings masked)).flatten
  | .java, masked =>
    let classes := javaClass.findAll masked
    let injected := if injectionMark.occurs masked then injectedField.findAll masked else []
    .ok (classes.flatMap javaExtends ++ classes.flatMap javaImplements
      ++ injected.map javaInjection)
  | .csharp, masked =>
    .ok ((csharpClass.findAll masked).flatMap csharpBases
      ++ (readonlyField.findAll masked).map csharpInjection)

/-- Type names with the files that declare them, in the order of the table. -/
abbrev SymbolIndex := List (String × String)

/-- The declarations of a table. -/
def SymbolIndex.ofTable (table : FileTable) : SymbolIndex :=
  table.flatMap fun file => file.types.map fun type => (type.name, file.path)

/-- The file that declares a type first. -/
def SymbolIndex.find? (index : SymbolIndex) (name : String) : Option String :=
  index.lookup name

/-- The first file of the table that declares a type, found by looking at each. -/
def declaringFile? (table : FileTable) (name : String) : Option String :=
  (List.find? (fun file => SourceFile.declares file name) table).map SourceFile.path

end ServiceMap.Link
