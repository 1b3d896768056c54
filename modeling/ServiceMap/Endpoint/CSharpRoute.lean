import ServiceMap.Endpoint.CSharpAction

/-!
# Routes mapped in code

Routes that a C# source maps directly on its application or on a group of routes, with the handler
as an argument of the call.
-/

namespace ServiceMap.Endpoint

open ServiceMap.Text ServiceMap.Source ServiceMap.Declaration Pattern

/-- A mapped route: the variable it is mapped on, its verb and its path. -/
def mappedRoute : Pattern :=
  wordEdge ++ capture 1 word ++ lit ".Map"
    ++ capture 2 (oneOf ["Get", "Post", "Put", "Delete", "Patch"]) ++ blanks ++ lit "(" ++ blanks
    ++ quoted 3

/-- A group of routes: its variable, the variable it is made from, and its path. -/
def mappedGroup : Pattern :=
  wordEdge ++ capture 1 word ++ blanks ++ lit "=" ++ blanks ++ capture 2 word ++ lit ".MapGroup("
    ++ blanks ++ quoted 3

/-- The parameters of the handler among the arguments of a call: those of a function in
parentheses that is the second argument. -/
def handlerParameters (arguments : List Char) : Except Fault (List DeclaredParameter) := do
  match parts arguments with
  | _ :: handler :: _ =>
    let handler := if "async".toList.isPrefixOf handler then trimLeft (handler.drop 5) else handler
    if handler.head? != some '(' then return []
    return csharpParameters (← group handler 0).1
  | _ => return []

/-- The endpoint of a mapped route. -/
def mappedEndpoint (source : SourceText) (file : String) (groups : Groups) (m : Match) :
    Except Fault Endpoint := do
  let verb := String.ofList (upper (m.group 2))
  let path := joinPaths (groupPath groups (m.group 1)) (m.group 3)
  let opening := (findFrom? ['('] source.masked m.start).getD source.masked.length
  let (arguments, _) ← group source.masked opening
  let line := source.lineNumber m.start
  let parameters ← handlerParameters arguments
  let doc ← commentAbove lineComment? source.lines line
  return {
    method := verb
    path := String.ofList path
    description := describe doc (verb ++ " " ++ String.ofList path)
    fileName := file
    lineNumber := line
    parameters := endpointParameters path parameters
    requestBody := endpointBody parameters
    responses := ← csharpResponses [] arguments ""
    tags := ["minimal-api"] }

/-- The mapped routes of a source. -/
def mappedEndpoints (source : SourceText) (file : String) : Except Fault (List Endpoint) :=
  let groups := collectGroups (mappedGroup.findAll source.masked)
  (mappedRoute.findAll source.masked).mapM (mappedEndpoint source file groups)

end ServiceMap.Endpoint
