import ServiceMap.Report.Diagram
import ServiceMap.Text.Case

/-!
# Markdown reports

A page for each service, and an overview of all services.
-/

namespace ServiceMap.Report

open Text

/-- A plural ending where one is due. -/
def plural (count : Nat) : String :=
  if count = 1 then "" else "s"

/-- A text in one line. -/
def inOneLine (s : String) : String :=
  String.ofList (replace ['\n'] [' '] s.toList)

/-- A text without blanks at its ends, and one newline after it. -/
def page (s : String) : String :=
  String.ofList (trim s.toList) ++ "\n"

/-- A heading with blank lines around it. -/
def heading (title : String) : String :=
  "\n## " ++ title ++ "\n\n"

/-- How many files of a category there are. -/
def bucketLine (bucket : String × List SourceFile) : String :=
  let count := bucket.2.length
  "- **" ++ String.ofList (title bucket.1.toList) ++ ":** " ++ toString count ++ " file"
    ++ plural count ++ "\n"

/-- An endpoint as a row of a table. -/
def endpointRow (e : Endpoint) : String :=
  "| " ++ e.method ++ " | \x60" ++ e.path ++ "\x60 | " ++ Path.baseName e.fileName ++ ":"
    ++ toString e.lineNumber ++ " | " ++ inOneLine e.description ++ " |\n"

/-- An edge as an item of a list. -/
def edgeItem (e : Edge) : String :=
  "- **" ++ String.ofList (upper e.kind.label.toList) ++ "**: " ++ Path.baseName e.source ++ " → "
    ++ Path.baseName e.target ++ " (" ++ e.details ++ ")\n"

/-- The first of several files that declares a type exactly as given. -/
def ownerOf? (files : List SourceFile) (type : TypeDecl) : Option SourceFile :=
  files.find? fun file => file.types.contains type

/-- A type with the base name of the file that declares it. -/
def typeItem (files : List SourceFile) (type : TypeDecl) : String :=
  let file := match ownerOf? files type with
    | some file => Path.baseName file.path
    | none => ""
  "- **" ++ type.name ++ "**" ++ (if file.isEmpty then "" else " (" ++ file ++ ")") ++ "\n"

/-- A type with its methods. -/
def logicItem (files : List SourceFile) (type : TypeDecl) : String :=
  let methods := ", ".intercalate (type.methods.map Function.name)
  typeItem files type ++ "  - Methods: " ++ (if methods.isEmpty then "none" else methods) ++ "\n"

/-- A type with its properties. -/
def modelItem (files : List SourceFile) (type : TypeDecl) : String :=
  let properties := type.properties.map fun p => p.name ++ ": " ++ p.type
  typeItem files type ++ "  - Properties: "
    ++ (if properties.isEmpty then "none" else ", ".intercalate properties) ++ "\n"

/-- A section, left out if it has no items. -/
def section? (title : String) (items : List String) : String :=
  if items.isEmpty then "" else heading title ++ String.join items

/-- The page of a service. -/
def servicePage (includeDiagram : Bool) (c : ServiceContext) : String :=
  page <| "# " ++ c.name ++ "\n\n- **Root path:** \x60" ++ c.root ++ "\x60\n"
    ++ String.join (c.buckets.map bucketLine)
    ++ heading "API Endpoints"
    ++ (if c.endpoints.isEmpty then "No endpoints detected.\n"
      else "| Method | Path | File | Description |\n| --- | --- | --- | --- |\n"
        ++ String.join (c.endpoints.map endpointRow))
    ++ heading "Relationships"
    ++ (if c.edges.isEmpty then "No cross-file relationships detected.\n"
      else String.join (c.edges.map edgeItem))
    ++ section? "Business Logic" (c.businessLogic.map (logicItem c.services))
    ++ section? "Data Models" (c.dataModels.map (modelItem c.models))
    ++ (if includeDiagram then heading "Dependency Diagram" ++ diagram c ++ "\n" else "")

/-- A service as a row of the overview. -/
def overviewRow (c : ServiceContext) : String :=
  "| " ++ c.name ++ " | " ++ toString c.endpoints.length ++ " | "
    ++ toString (c.controllers.length + c.services.length + c.models.length) ++ " | "
    ++ toString c.edges.length ++ " |\n"

/-- The first endpoints of a service; none if it has none. -/
def keyApis (c : ServiceContext) : String :=
  if c.endpoints.isEmpty then ""
  else heading c.name ++ "Key APIs: "
    ++ ", ".intercalate ((c.endpoints.take 3).map fun e => e.method ++ " " ++ e.path) ++ "\n"

/-- The overview of several services. -/
def overview (contexts : List ServiceContext) : String :=
  let count := contexts.length
  page <| "# Services Overview\n\n" ++ toString count ++ " service" ++ plural count
    ++ " analyzed.\n\n| Service | Endpoints | Components | Relationships |\n"
    ++ "| --- | --- | --- | --- |\n"
    ++ String.join (contexts.map overviewRow) ++ String.join (contexts.map keyApis)

/-- A page without blanks at its end, and one newline after it. -/
def closed (s : String) : String :=
  String.ofList (trimRight s.toList) ++ "\n"

/-- The overview and the pages of all services as one document. -/
def document (includeDiagram : Bool) (contexts : List ServiceContext) : String :=
  let pages := overview contexts :: contexts.map (servicePage includeDiagram)
  String.ofList (trimRight ("\n".intercalate (pages.map closed)).toList)

end ServiceMap.Report
