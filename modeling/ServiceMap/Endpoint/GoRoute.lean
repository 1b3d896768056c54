import ServiceMap.Declaration.GoFunction
import ServiceMap.Endpoint.Route

/-!
# Routes of Go routers

Routes that a Go source registers on a router, on a group of a router, or with the standard
library. The responses of a route are read off the body of its handler.
-/

namespace ServiceMap.Endpoint

open ServiceMap.Text ServiceMap.Source ServiceMap.Declaration Pattern

/-- Routers by the import path that shows their use; the first that occurs counts. -/
def goRouters : List (String × String) :=
  [("github.com/gin-gonic/gin", "gin"), ("github.com/labstack/echo", "echo"),
    ("github.com/gofiber/fiber", "fiber"), ("github.com/go-chi/chi", "chi")]

/-- The router that a source uses. -/
def goRouter (masked : List Char) : String :=
  match goRouters.find? fun entry => isWithin entry.1.toList masked with
  | some entry => entry.2
  | none => "router"

/-- A path and a handler as the arguments of a call, remembered under the two numbers. -/
def pathAndHandler (path handler : Nat) : Pattern :=
  lit "(" ++ blanks ++ quoted1 path ++ blanks ++ lit "," ++ blanks
    ++ capture handler (many1 (· != ')')) ++ lit ")"

/-- A route: the router's variable, the verb, the path and the handler. -/
def goRoute : Pattern :=
  wordEdge ++ capture 1 word ++ lit "." ++ capture 2 word ++ pathAndHandler 3 4

/-- A route of the standard library: the path and the handler. -/
def goHandleFunc : Pattern :=
  wordEdge ++ lit "http.HandleFunc" ++ pathAndHandler 1 2

/-- A group of routes: its variable, the variable it is made from, and its path. -/
def goGroup : Pattern :=
  wordEdge ++ capture 1 word ++ blanks ++ opt (lit ":") ++ lit "=" ++ blanks ++ capture 2 word
    ++ lit ".Group(" ++ blanks ++ quoted 3

/-- A response written as JSON: its status and its value. -/
def goJsonResponse : Pattern :=
  wordEdge ++ word ++ lit ".JSON(" ++ blanks
    ++ capture 1 ((lit "http.Status" ++ word) <|> many1 isDecimal) ++ blanks ++ lit "," ++ blanks
    ++ capture 2 (many (· != ')'))

/-- The named status codes. -/
def goStatusNames : List (String × Int) :=
  [("StatusOK", 200), ("StatusCreated", 201), ("StatusAccepted", 202), ("StatusNoContent", 204),
    ("StatusBadRequest", 400), ("StatusUnauthorized", 401), ("StatusForbidden", 403),
    ("StatusNotFound", 404), ("StatusConflict", 409), ("StatusUnprocessableEntity", 422),
    ("StatusInternalServerError", 500)]

/-- The code of a status that is written as a numeral or as a name. -/
def goStatus (token : List Char) : Except Fault Int :=
  if token.all isDecimal then
    match readNatural token with
    | .ok code => .ok code
    | .error cause => .error (.numeral cause)
  else .ok ((goStatusNames.lookup (String.ofList ((token.dropWhile (· != '.')).drop 1))).getD 200)

/-- The schema of a response's value, by how it is written. -/
def goSchema (value : List Char) : Schema :=
  typeSchema <|
    if ["struct", "map", "gin.H"].any fun word => isWithin word.toList value then "object"
    else if isWithin "[]".toList value then "array"
    else if (trim value).head? == some '"' then "string"
    else "object"

/-- The head of the function of this name up to its parameters. -/
def goFunctionNamed (name : List Char) : Pattern :=
  wordEdge ++ lit "func" ++ blanks ++ opt (lit "(" ++ many (· != ')') ++ lit ")" ++ blanks)
    ++ ofChars name ++ blanks ++ lit "("

/-- The body of the first function of this name; empty if there is none. -/
def goBody (masked name : List Char) : Except Fault (List Char) :=
  match (goFunctionNamed name).find? masked with
  | none => .ok []
  | some m => do
    let (_, stop) ← group masked (m.stop - 1)
    match findFrom? ['\x7b'] masked stop with
    | none => return []
    | some brace => return (← group masked brace).1

/-- The response that a call writes. -/
def goResponse (m : Match) : Except Fault Response := do
  return response (← goStatus (m.group 1)) (some (goSchema (m.group 2)))

/-- The responses of a route with this handler. Only a handler that is given by name, possibly a
qualified one, has a body to look at. -/
def goResponses (masked handler : List Char) : Except Fault (List Response) := do
  let handler := trim handler
  let name := (handler.reverse.takeWhile isWord).reverse
  if name.isEmpty || "func".toList.isPrefixOf handler then return responsesOr none []
  let body ← goBody masked name
  return responsesOr none (← (goJsonResponse.findAll body).mapM goResponse)

/-- The endpoint of a route registered at position `index`. -/
def goEndpoint (source : SourceText) (file : String) (index : Nat) (verb : String)
    (path handler : List Char) (router : String) : Except Fault Endpoint := do
  let line := source.lineNumber index
  let doc ← commentAbove wholeComment? source.lines line
  return {
    method := verb
    path := String.ofList path
    description := if doc.isEmpty then verb ++ " " ++ String.ofList path else String.ofList doc
    fileName := file
    lineNumber := line
    parameters := pathParameters untyped path
    responses := ← goResponses source.masked handler
    tags := [router] }

/-- The endpoints of a source: routes of routers first, then those of the standard library. A call
on a router is a route if its name is a verb in some letter case. -/
def goEndpoints (source : SourceText) (file : String) : Except Fault (List Endpoint) := do
  let groups := collectGroups (goGroup.findAll source.masked)
  let router := goRouter source.masked
  let routes ← ((goRoute.findAll source.masked).filter fun m =>
      verbs.contains (String.ofList (upper (m.group 2)))).mapM fun m =>
    goEndpoint source file m.start (String.ofList (upper (m.group 2)))
      (joinPaths (groupPath groups (m.group 1)) (m.group 3)) (m.group 4) router
  let plain ← (goHandleFunc.findAll source.masked).mapM fun m =>
    goEndpoint source file m.start "GET" (m.group 1) (m.group 2) "net/http"
  return routes ++ plain

end ServiceMap.Endpoint
