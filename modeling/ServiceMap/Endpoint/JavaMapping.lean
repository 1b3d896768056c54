import ServiceMap.Declaration.JavaMethod
import ServiceMap.Endpoint.Route

/-!
# Routes by annotation

Methods that Java sources map to routes by annotations, in either of the two usual vocabularies.
-/

namespace ServiceMap.Endpoint

open ServiceMap.Text ServiceMap.Source ServiceMap.Declaration Pattern

/-- Mapping annotations with their verb; one without a verb takes it from its arguments. -/
def springMappings : List (String × Option String) :=
  [("GetMapping", some "GET"), ("PostMapping", some "POST"), ("PutMapping", some "PUT"),
    ("DeleteMapping", some "DELETE"), ("PatchMapping", some "PATCH"), ("RequestMapping", none)]

/-- Annotations that tell where a parameter's value comes from. -/
def parameterLocations : List (String × String) :=
  [("PathVariable", "path"), ("PathParam", "path"), ("RequestParam", "query"),
    ("QueryParam", "query"), ("RequestHeader", "header"), ("HeaderParam", "header")]

/-- Methods that make a response, with its status. -/
def responseFactories : List (String × Int) :=
  [("ok", 200), ("created", 201), ("accepted", 202), ("noContent", 204), ("badRequest", 400),
    ("notFound", 404), ("unprocessableEntity", 422), ("internalServerError", 500)]

/-- Status constants. -/
def statusConstants : List (String × Int) :=
  [("OK", 200), ("CREATED", 201), ("ACCEPTED", 202), ("NO_CONTENT", 204), ("BAD_REQUEST", 400),
    ("UNAUTHORIZED", 401), ("FORBIDDEN", 403), ("NOT_FOUND", 404), ("CONFLICT", 409),
    ("UNPROCESSABLE_ENTITY", 422), ("INTERNAL_SERVER_ERROR", 500)]

/-- A path given by name. -/
def namedPath : Pattern :=
  wordEdge ++ oneOf ["path", "value"] ++ blanks ++ lit "=" ++ blanks ++ opt (char (· == '\x7b'))
    ++ blanks ++ quoted 1

/-- A path given first. -/
def leadingPath : Pattern :=
  blanks ++ opt (char (· == '\x7b')) ++ blanks ++ lit "\""

/-- The path among the arguments of a mapping; empty if there is none. -/
def mappingPath (arguments : List Char) : List Char :=
  match namedPath.find? arguments with
  | some m => m.group 1
  | none =>
    if (leadingPath.matchStart? arguments).isSome then (firstString? arguments).getD [] else []

/-- A verb given as a constant. -/
def requestMethod : Pattern :=
  lit "RequestMethod." ++ capture 1 word

/-- The name of an annotation as a string. -/
def markName (mark : String) : String :=
  String.ofList (annotationName mark.toList)

/-- The arguments of an annotation. -/
def markArguments (mark : String) : Except Fault (List Char) :=
  annotationArguments mark.toList

/-- The verb and the path that the first mapping annotation gives. -/
def springRoute? (marks : List String) : Except Fault (Option (String × List Char)) := do
  match marks.findSome? fun mark => (springMappings.lookup (markName mark)).map (mark, ·) with
  | none => return none
  | some (mark, verb?) =>
    let arguments ← markArguments mark
    let verb := match verb? with
      | some verb => verb
      | none => match requestMethod.find? arguments with
        | some m => String.ofList (upper (m.group 1))
        | none => "GET"
    return some (verb, mappingPath arguments)

/-- The path that a type's mapping annotation gives to all its routes. -/
def springPrefix (marks : List String) : Except Fault (List Char) := do
  match marks.find? fun mark => markName mark == "RequestMapping" with
  | none => return []
  | some mark => return mappingPath (← markArguments mark)

/-- The path of the first path annotation; empty if there is none. -/
def jaxrsPath (marks : List String) : Except Fault (List Char) := do
  match marks.find? fun mark => markName mark == "Path" with
  | none => return []
  | some mark => return (firstString? (← markArguments mark)).getD []

/-- The verb that is the name of an annotation, and the path of the path annotation. -/
def jaxrsRoute? (marks : List String) : Except Fault (Option (String × List Char)) := do
  match (marks.map markName).find? verbs.contains with
  | none => return none
  | some verb => return some (verb, ← jaxrsPath marks)

/-- A name given by name. -/
def namedName : Pattern :=
  wordEdge ++ oneOf ["name", "value"] ++ blanks ++ lit "=" ++ blanks ++ quoted 1

/-- The name that the arguments of a parameter's annotation give it. -/
def explicitName (arguments : List Char) : List Char :=
  match namedName.find? arguments with
  | some m => m.group 1
  | none =>
    if ((blanks ++ lit "\"").matchStart? arguments).isSome then (firstString? arguments).getD []
    else []

/-- The mark of a parameter that may be left out. -/
def notRequired : Pattern :=
  lit "required" ++ blanks ++ lit "=" ++ blanks ++ lit "false"

/-- The parameter of an endpoint that an annotated parameter of its method stands for; none if no
annotation says where its value comes from. -/
def boundParameter? (p : DeclaredParameter) : Except Fault (Option Parameter) := do
  let located := p.annotations.findSome? fun mark =>
    (parameterLocations.lookup (String.ofList (annotationName mark))).map (mark, ·)
  match located with
  | none => return none
  | some (mark, location) =>
    let arguments ← annotationArguments mark
    let name := explicitName arguments
    return some {
      name := String.ofList (if name.isEmpty then p.name else name)
      type := String.ofList p.type
      location
      required := location == "path"
        || !(notRequired.occurs arguments || isWithin "defaultValue".toList arguments)
      description := String.ofList (title location.toList) ++ " parameter: "
        ++ String.ofList p.name }

/-- Whether a parameter is the request's body. -/
def isRequestBody (p : DeclaredParameter) : Bool :=
  (strings (p.annotations.map annotationName)).contains "RequestBody"

/-- A list type. -/
def listType : Pattern :=
  (wordEdge ++ oneOf ["List", "Set", "Collection", "Iterable"] ++ lit "<") <|> lit "[]"

/-- The schema of a result type; none for void. -/
def resultSchema (type : String) : Option Schema :=
  if type == "void" then none
  else some <| typeSchema <|
    if listType.occurs type.toList then "array"
    else if type == "String" || type == "ResponseEntity<String>" then "string"
    else "object"

/-- A status constant. -/
def statusConstant : Pattern :=
  lit "HttpStatus." ++ capture 1 word

/-- A call that makes a response, its name under 1, or a status constant, under 2. -/
def responseCall : Pattern :=
  (wordEdge ++ lit "ResponseEntity" ++ blanks ++ lit "." ++ blanks ++ capture 1 word ++ blanks
      ++ lit "(")
    <|> (wordEdge ++ lit "HttpStatus." ++ capture 2 word)

/-- The status code that an annotation sets. -/
def annotatedStatus? (mark : String) : Option Int :=
  if markName mark == "ResponseStatus" then
    (statusConstant.find? mark.toList).bind fun m =>
      statusConstants.lookup (String.ofList (m.group 1))
  else none

/-- The status code that a call or constant stands for. -/
def calledStatus? (m : Match) : Option Int :=
  match (m.group? 1).bind fun name => responseFactories.lookup (String.ofList name) with
  | some code => some code
  | none => (m.group? 2).bind fun name => statusConstants.lookup (String.ofList name)

/-- The responses of a method: those of its annotations, then those of its body. Only successes
carry the result. -/
def javaResponses (m : DeclaredMethod) : List Response :=
  let schema := resultSchema m.info.returnType
  let codes := m.info.annotations.filterMap annotatedStatus?
    ++ (responseCall.findAll m.body).filterMap calledStatus?
  responsesOr schema (codes.map fun code => response code (if code < 300 then schema else none))

/-- The vocabulary, the verb, the path of the type and the path of the method, for a method that
is mapped to a route. -/
def javaRoute? (owner : TypeDecl) (m : DeclaredMethod) :
    Except Fault (Option (String × String × List Char × List Char)) := do
  match ← springRoute? m.info.annotations with
  | some (verb, path) => return some ("spring", verb, ← springPrefix owner.annotations, path)
  | none =>
    match ← jaxrsRoute? m.info.annotations with
    | some (verb, path) => return some ("jax-rs", verb, ← jaxrsPath owner.annotations, path)
    | none => return none

/-- The endpoint of a method of the type `owner`; none if it is mapped to no route. -/
def javaEndpoint? (file : String) (owner : TypeDecl) (m : DeclaredMethod) :
    Except Fault (Option Endpoint) := do
  match ← javaRoute? owner m with
  | none => return none
  | some (vocabulary, verb, base, path) =>
    let path := String.ofList (joinPaths base path)
    let parameters ← (m.parameters.filter fun p => !isRequestBody p).mapM boundParameter?
    return some {
      method := verb
      path
      description := describe m.doc (verb ++ " " ++ path)
      fileName := file
      lineNumber := m.info.lineNumber
      parameters := parameters.filterMap id
      requestBody := (m.parameters.filter isRequestBody).getLast?.map fun p =>
        ⟨"application/json", typeSchema (String.ofList p.type)⟩
      responses := javaResponses m
      tags := [vocabulary, owner.name] }

/-- The endpoints of the methods of a source. -/
def javaEndpoints (file : String) (types : List OpenType)
    (methods : List (Nat × DeclaredMethod)) : Except Fault (List Endpoint) := do
  let endpoints ← methods.mapM fun (number, m) =>
    match types[number]? with
    | some type => javaEndpoint? file type.info m
    | none => .ok none
  return endpoints.filterMap id

end ServiceMap.Endpoint
