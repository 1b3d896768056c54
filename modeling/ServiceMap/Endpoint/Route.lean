import ServiceMap.Facts.Basic
import ServiceMap.Pattern.Matching
import ServiceMap.Text.Case
import ServiceMap.Text.Find

/-!
# Routes and responses

Joining the paths of nested routes, groups of routes, and the placeholders of a path. A placeholder
is a name after a colon, or a name in braces that a constraint may follow after a colon. The
responses of an endpoint are collected so that each status code occurs once.
-/

namespace ServiceMap.Endpoint

open ServiceMap.Text Pattern

/-- Whether a character is a slash. -/
def isSlash (c : Char) : Bool :=
  c == '/'

/-- The path of a route below a base path. Slashes at the end of the base and at the start of the
path do not count, and the result starts with a slash. -/
def joinPaths (base path : List Char) : List Char :=
  let base := dropRight isSlash base
  let path := dropLeft isSlash path
  if base.isEmpty then '/' :: path
  else
    let base := if base.head? == some '/' then base else '/' :: base
    if path.isEmpty then base else base ++ '/' :: path

/-- Variables with the path of the group they stand for, the latest first. -/
abbrev Groups := List (List Char × List Char)

/-- The path that a variable stands for; empty for one that is no group. -/
def groupPath (groups : Groups) (name : List Char) : List Char :=
  (groups.lookup name).getD []

/-- The groups of a source after its last assignment. -/
def collectGroups (assignments : List Match) : Groups :=
  assignments.foldl (fun groups m =>
    (m.group 1, joinPaths (groupPath groups (m.group 2)) (m.group 3)) :: groups) []

/-- A colon and a name. -/
def colonPlaceholder : Pattern :=
  lit ":" ++ capture 1 word

/-- A name in braces, with a constraint if a colon follows it. -/
def bracePlaceholder : Pattern :=
  char (· == '\x7b') ++ capture 1 word
    ++ opt (lit ":" ++ capture 2 (many1 (· != '\x7d'))) ++ char (· == '\x7d')

/-- Whether the last brace before a position is an opening one. -/
def insideBraces (path : List Char) (index : Nat) : Bool :=
  match (path.take index).reverse.find? fun c => c == '\x7b' || c == '\x7d' with
  | some c => c == '\x7b'
  | none => false

/-- The parameter of a placeholder. -/
def pathParameter (name : List Char) (type : String) : Parameter :=
  let name := String.ofList name
  ⟨name, type, "path", true, "Path parameter: " ++ name⟩

/-- The parameters of a path: names after colons first, then names in braces, whose type is read
off their constraint. -/
def pathParameters (typeOf : Option (List Char) → String) (path : List Char) : List Parameter :=
  (((colonPlaceholder.findAll path).filter fun m => !insideBraces path m.start).map fun m =>
      pathParameter (m.group 1) "string")
    ++ (bracePlaceholder.findAll path).map fun m => pathParameter (m.group 1) (typeOf (m.group? 2))

/-- The type of a placeholder without regard to its constraint. -/
def untyped (_ : Option (List Char)) : String := "string"

/-- Types by the name of the first constraint. -/
def constraintTypes : List (String × String) :=
  [("int", "integer"), ("long", "integer"), ("decimal", "number"), ("double", "number"),
    ("float", "number"), ("bool", "boolean"), ("guid", "string"), ("datetime", "string")]

/-- The type that a constraint gives a placeholder: that of its first part, whose arguments and
letter case do not matter. -/
def constraintType : Option (List Char) → String
  | none => "string"
  | some constraint =>
    (constraintTypes.lookup (String.ofList (lower (before '(' (before ':' constraint))))).getD
      "string"

/-- The verbs of routes. -/
def verbs : List String := ["GET", "POST", "PUT", "DELETE", "PATCH"]

/-! ## Status codes and responses -/

/-- The words for the status codes that are known. -/
def statusWords : List (Int × String) :=
  [(200, "OK"), (201, "Created"), (202, "Accepted"), (204, "No Content"), (400, "Bad Request"),
    (401, "Unauthorized"), (403, "Forbidden"), (404, "Not Found"), (409, "Conflict"),
    (422, "Unprocessable Entity"), (500, "Internal Server Error")]

/-- The words for a status code. -/
def statusDescription (code : Int) : String :=
  (statusWords.lookup code).getD "Unknown Status"

/-- A response of this code, described by its words. -/
def response (code : Int) (schema : Option Schema) : Response :=
  ⟨code, statusDescription code, schema⟩

/-- The items whose key did not occur before. -/
def firstByKey {α κ : Type} [BEq κ] (key : α → κ) (items : List α) : List α :=
  items.foldl (fun kept item =>
    if kept.any fun other => key other == key item then kept else kept ++ [item]) []

/-- The first response of each code, or plain success with the given schema if there is none. -/
def responsesOr (success : Option Schema) (found : List Response) : List Response :=
  match firstByKey Response.statusCode found with
  | [] => [⟨200, "Success", success⟩]
  | responses => responses

/-- The schema of a value of some simple type. -/
def typeSchema (type : String) : Schema := .obj [("type", .str type)]

end ServiceMap.Endpoint
