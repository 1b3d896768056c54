import ServiceMap.Facts.Instant
import ServiceMap.Json.Basic

/-!
# Facts about source files

What one source file declares: the routes it serves, its types and its functions.
-/

namespace ServiceMap

/-- The languages whose sources are read. -/
inductive Language where
  | go
  | java
  | csharp
deriving DecidableEq, Repr

namespace Language

/-- All languages, in the order in which their readers are tried. -/
def all : List Language := [go, java, csharp]

/-- The name a language goes by in settings and reports. -/
def label : Language → String
  | go => "go"
  | java => "java"
  | csharp => "csharp"

/-- The language of a name. -/
def ofLabel? (name : String) : Option Language :=
  all.find? fun l => l.label == name

/-- The ending of the names of a language's source files. -/
def extension : Language → String
  | go => ".go"
  | java => ".java"
  | csharp => ".cs"

end Language

/-- A parameter of a function or of an endpoint. -/
structure Parameter where
  name : String
  type : String
  /-- Where the value comes from: body, path, query or header. -/
  location : String
  required : Bool := true
  description : String := ""
deriving DecidableEq, Repr

/-- The shape of a body. -/
abbrev Schema := Json

/-- What an endpoint expects in the request's body. -/
structure RequestBody where
  contentType : String
  schema : Schema := .obj []
deriving DecidableEq, Repr

/-- One answer an endpoint may give. -/
structure Response where
  statusCode : Int
  description : String
  schema : Option Schema := none
deriving DecidableEq, Repr

/-- A route that a source file serves. -/
structure Endpoint where
  method : String
  path : String
  description : String
  fileName : String
  lineNumber : Int
  parameters : List Parameter := []
  requestBody : Option RequestBody := none
  responses : List Response := []
  tags : List String := []
deriving DecidableEq, Repr

/-- A field or property of a type. -/
structure Property where
  name : String
  type : String
  description : String := ""
  annotations : List String := []
deriving DecidableEq, Repr

/-- A function or method. -/
structure Function where
  name : String
  description : String
  lineNumber : Int
  parameters : List Parameter := []
  returnType : String := "unknown"
  annotations : List String := []
deriving DecidableEq, Repr

/-- A declared type: a class, an interface, a record or a struct. -/
structure TypeDecl where
  name : String
  description : String
  lineNumber : Int
  methods : List Function := []
  properties : List Property := []
  annotations : List String := []
deriving DecidableEq, Repr

/-- The facts of one source file. -/
structure SourceFile where
  path : String
  language : Language
  endpoints : List Endpoint := []
  types : List TypeDecl := []
  functions : List Function := []
  modified : Option Instant := none
deriving DecidableEq, Repr

/-- Whether the file declares a type of this name. -/
def SourceFile.declares (file : SourceFile) (name : String) : Bool :=
  file.types.any fun t => t.name == name

/-- Why one file depends on another. -/
inductive EdgeKind where
  | imports
  | inherits
  | implements
  | calls
  | references
  | configures
  /-- A kind that no analysis finds, by its word. -/
  | other (word : String)
deriving DecidableEq, Repr

namespace EdgeKind

/-- The kinds that have a meaning of their own. -/
def known : List EdgeKind := [imports, inherits, implements, calls, references, configures]

/-- The word for a kind in reports. -/
def label : EdgeKind → String
  | imports => "import"
  | inherits => "extends"
  | implements => "implements"
  | calls => "calls"
  | references => "references"
  | configures => "config"
  | other word => word

/-- The kind of a word. -/
def ofLabel (word : String) : EdgeKind :=
  (known.find? fun k => k.label == word).getD (other word)

end EdgeKind

/-- A dependency of one file on another. -/
structure Edge where
  source : String
  target : String
  kind : EdgeKind
  details : String
deriving DecidableEq, Repr

/-- A reference from a place in one file to a symbol of another. No analysis finds any yet; the
collection is part of a result so that readers can rely on it. -/
structure CrossReference where
  fromFile : String
  fromLine : Int
  fromColumn : Int
  toFile : String
  toSymbol : String
  referenceType : String
deriving DecidableEq, Repr

end ServiceMap
