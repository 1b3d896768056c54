import ServiceMap.Declaration.CSharpMethod
import ServiceMap.Endpoint.Route

/-!
# Actions of C# controllers

Methods that C# sources map to routes by attributes, or by the convention that a controller's public
actions are routes.
-/

namespace ServiceMap.Endpoint

open ServiceMap.Text ServiceMap.Source ServiceMap.Declaration Pattern

/-- Attributes that map a method to a route, with their verb. -/
def verbAttributes : List (String × String) :=
  [("HttpGet", "GET"), ("HttpPost", "POST"), ("HttpPut", "PUT"), ("HttpDelete", "DELETE"),
    ("HttpPatch", "PATCH")]

/-- Attributes that tell where a parameter's value comes from. -/
def bindingLocations : List (String × String) :=
  [("FromQuery", "query"), ("FromRoute", "path"), ("FromHeader", "header")]

/-- Calls that make a response, with its status. -/
def resultCalls : List (String × Int) :=
  [("Ok", 200), ("Created", 201), ("CreatedAtAction", 201), ("CreatedAtRoute", 201),
    ("Accepted", 202), ("NoContent", 204), ("BadRequest", 400), ("Unauthorized", 401),
    ("Forbid", 403), ("NotFound", 404), ("Conflict", 409), ("UnprocessableEntity", 422)]

/-- Starts of the names of actions, with the verb they stand for. -/
def verbNames : List (String × String) :=
  [("Get", "GET"), ("Post", "POST"), ("Put", "PUT"), ("Delete", "DELETE"), ("Patch", "PATCH")]

/-- The name of an attribute as a string. -/
def attributeName (mark : List Char) : String :=
  String.ofList (annotationName mark)

/-- The first quoted text among the arguments of an attribute. -/
def attributeText? (mark : List Char) : Except Fault (Option (List Char)) := do
  return firstString? (← annotationArguments mark)

/-- The ending of the names of controllers. -/
def controllerEnding : List Char := "Controller".toList

/-- Whether a type is a controller by its name. -/
def isController (type : TypeDecl) : Bool :=
  endsWith controllerEnding type.name.toList

/-- The name of a controller as it appears in routes. -/
def controllerName (name : String) : List Char :=
  lower (dropEnding controllerEnding name.toList)

/-- The path that a type's route attribute gives to all its routes. -/
def controllerPrefix? (type : TypeDecl) : Except Fault (Option (List Char)) := do
  match (type.annotations.map String.toList).find? fun a => attributeName a == "Route" with
  | none => return none
  | some mark =>
    let template := (← attributeText? mark).getD []
    return some (joinPaths [] (replace "[controller]".toList (controllerName type.name) template))

/-- What the attributes of a method say about its route. -/
structure RouteAttributes where
  verb : Option String := none
  path : Option (List Char) := none
deriving Repr, DecidableEq

/-- Takes one more attribute into account. The first verb counts, and its path replaces one given
before; a route mark gives the path only where there is none yet. -/
def RouteAttributes.add (r : RouteAttributes) (mark : List Char) :
    Except Fault RouteAttributes := do
  let name := attributeName mark
  match verbAttributes.lookup name, r.verb with
  | some verb, none => return ⟨some verb, ← attributeText? mark⟩
  | _, _ =>
    if name == "Route" && r.path.isNone then
      return { r with path := ← attributeText? mark }
    else return r

/-- What the attributes of a method say about its route. -/
def routeAttributes (attributes : List (List Char)) : Except Fault RouteAttributes :=
  attributes.foldlM RouteAttributes.add {}

/-- Whether a method is an action by convention: public, of a controller, and with an action's
result. -/
def isConventionalAction (owner : TypeDecl) (m : DeclaredMethod) : Bool :=
  isController owner && m.modifiers.contains "public".toList
    && !m.modifiers.contains "static".toList
    && isWithin "ActionResult".toList m.info.returnType.toList
    && !(m.info.annotations.map fun a => attributeName a.toList).contains "NonAction"

/-- The verb that the name of an action starts with, or else GET. -/
def conventionalVerb (name : List Char) : String :=
  match verbNames.find? fun entry => entry.1.toList.isPrefixOf name with
  | some entry => entry.2
  | none => "GET"

/-- The verb and the path of a method of the type `owner`, whose routes start with `base?`; none if
the method is no route. -/
def actionRoute? (owner : TypeDecl) (base? : Option (List Char)) (m : DeclaredMethod) :
    Except Fault (Option (String × List Char)) := do
  let given ← routeAttributes (m.info.annotations.map String.toList)
  let name := m.info.name.toList
  let base := base?.getD ('/' :: controllerName owner.name)
  let full := fun (path : List Char) =>
    let path := replace "[action]".toList (lower name) path
    if ['/'].isPrefixOf path || ['~', '/'].isPrefixOf path then
      joinPaths [] (dropLeft (· == '~') path)
    else joinPaths base path
  match given.verb with
  | some verb =>
    if base?.isNone && !isController owner then return none
    else return some (verb, full (given.path.getD []))
  | none =>
    if !isConventionalAction owner m then return none
    else
      let path := match given.path, base? with
        | some path, _ => path
        | none, none => lower name
        | none, some _ => []
      return some (conventionalVerb name, full path)

/-- A name that a binding gives a parameter. -/
def bindingName : Pattern :=
  lit "Name" ++ blanks ++ lit "=" ++ blanks ++ quoted 1

/-- Whether a parameter is the request's body. -/
def isFromBody (p : DeclaredParameter) : Bool :=
  (p.annotations.map attributeName).contains "FromBody"

/-- The parameter of an endpoint that a bound parameter stands for; none if it is not bound. -/
def bindParameter? (p : DeclaredParameter) : Option Parameter :=
  (p.annotations.findSome? fun mark =>
    (bindingLocations.lookup (attributeName mark)).map (mark, ·)).map
      fun (mark, location) => {
        name := String.ofList (match bindingName.find? mark with
          | some m => m.group 1
          | none => p.name)
        type := String.ofList p.type
        location
        required := location == "path"
          || !(p.type.getLast? == some '?' || p.hasDefault)
        description := String.ofList (title location.toList) ++ " parameter: "
          ++ String.ofList p.name }

/-- Adds the bound parameters to those found so far; `known` holds the names that are taken. -/
def addBound (known : List String) : List DeclaredParameter → List Parameter
  | [] => []
  | p :: rest =>
    let name := String.ofList p.name
    match bindParameter? p with
    | some parameter =>
      if isFromBody p || known.contains name then addBound known rest
      else parameter :: addBound (name :: known) rest
    | none => addBound known rest

/-- The parameters of an endpoint: those of its path, then the bound ones whose names are not taken
yet. -/
def endpointParameters (path : List Char) (parameters : List DeclaredParameter) : List Parameter :=
  let ofPath := pathParameters constraintType path
  ofPath ++ addBound (ofPath.map Parameter.name) parameters

/-- The body of an endpoint's request: its last parameter that is bound to it. -/
def endpointBody (parameters : List DeclaredParameter) : Option RequestBody :=
  (parameters.filter isFromBody).getLast?.map fun p =>
    ⟨"application/json", typeSchema (String.ofList p.type)⟩

/-- Three digits, remembered under `slot`. -/
def threeDigits (slot : Nat) : Pattern :=
  capture slot (char isDecimal ++ char isDecimal ++ char isDecimal)

/-- The status that an attribute declares, as a constant under 1 or as a numeral under 2. -/
def declaredStatus : Pattern :=
  (lit "Status" ++ threeDigits 1) <|> (wordEdge ++ threeDigits 2 ++ wordEdge)

/-- A call, under 1, or a status constant, under 2. -/
def resultCall : Pattern :=
  (wordEdge ++ capture 1 word ++ blanks ++ lit "(")
    <|> (wordEdge ++ lit "StatusCodes.Status" ++ threeDigits 2)

/-- A call that sets a status by its numeral. -/
def statusCodeCall : Pattern :=
  wordEdge ++ lit "StatusCode(" ++ blanks ++ threeDigits 1

/-- The status that an attribute of a method declares. -/
def attributeStatus? (mark : List Char) : Except Fault (Option Int) := do
  if attributeName mark != "ProducesResponseType" then return none
  return (declaredStatus.find? (← annotationArguments mark)).bind fun m =>
    ((m.group? 1).orElse fun _ => m.group? 2).map fun digits => (numeralValue digits : Int)

/-- The status that a call or constant stands for. -/
def calledResult? (m : Match) : Option Int :=
  match (m.group? 1).bind fun name => resultCalls.lookup (String.ofList name) with
  | some code => some code
  | none => (m.group? 2).map fun digits => (numeralValue digits : Int)

/-- The responses of a method or handler: those its attributes declare, those of the calls in its
body, and those that it sets by numeral. Only successes with content carry an object. -/
def csharpResponses (attributes : List (List Char)) (body : List Char) (result : String) :
    Except Fault (List Response) := do
  let declared := (← attributes.mapM attributeStatus?).filterMap id
  let called := (resultCall.findAll body).filterMap calledResult?
  let set := (statusCodeCall.findAll body).map fun m => (numeralValue (m.group 1) : Int)
  let object := typeSchema "object"
  return responsesOr (if result == "void" || result == "Task" then none else some object)
    ((declared ++ called ++ set).map fun code =>
      response code (if 200 ≤ code && code < 300 && code != 204 then some object else none))

/-- The endpoint of a method of the type `owner`; none if it is no route. -/
def actionEndpoint? (file : String) (owner : TypeDecl) (base? : Option (List Char))
    (m : DeclaredMethod) : Except Fault (Option Endpoint) := do
  match ← actionRoute? owner base? m with
  | none => return none
  | some (verb, path) =>
    return some {
      method := verb
      path := String.ofList path
      description := describe m.doc (verb ++ " " ++ String.ofList path)
      fileName := file
      lineNumber := m.info.lineNumber
      parameters := endpointParameters path m.parameters
      requestBody := endpointBody m.parameters
      responses := ← csharpResponses (m.info.annotations.map String.toList) m.body
        m.info.returnType
      tags := ["aspnet", owner.name] }

/-- The endpoints of the methods that lie directly in one type's body. -/
def typeEndpoints (source : SourceText) (file : String) (methods : List DeclaredMethod)
    (type : OpenType) : Except Fault (List Endpoint) := do
  let base? ← controllerPrefix? type.info
  let endpoints ← (methods.filter fun m => type.body.encloses source.masked m.index).mapM
    (actionEndpoint? file type.info base?)
  return endpoints.filterMap id

/-- The endpoints of the controllers of a source, type by type. -/
def actionEndpoints (source : SourceText) (file : String) (types : List OpenType)
    (methods : List DeclaredMethod) : Except Fault (List Endpoint) := do
  return (← types.mapM (typeEndpoints source file methods)).flatten

end ServiceMap.Endpoint
