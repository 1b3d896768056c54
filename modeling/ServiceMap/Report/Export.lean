import ServiceMap.Analysis.Result
import ServiceMap.Json.Text

/-!
# Export

Facts, contexts, graphs and results as JSON.
-/

namespace ServiceMap

open Json

/-- A parameter as JSON. -/
def Parameter.toJson (p : Parameter) : Json :=
  .obj [("name", .str p.name), ("type", .str p.type), ("location", .str p.location),
    ("required", .bool p.required), ("description", .str p.description)]

/-- A request's body as JSON. -/
def RequestBody.toJson (b : RequestBody) : Json :=
  .obj [("content_type", .str b.contentType), ("schema", b.schema)]

/-- A response as JSON. -/
def Response.toJson (r : Response) : Json :=
  .obj [("status_code", .int r.statusCode), ("description", .str r.description),
    ("schema", r.schema.getD .null)]

/-- An endpoint as JSON. -/
def Endpoint.toJson (e : Endpoint) : Json :=
  .obj [("method", .str e.method), ("path", .str e.path), ("description", .str e.description),
    ("file_name", .str e.fileName), ("line_number", .int e.lineNumber),
    ("parameters", .arr (e.parameters.map Parameter.toJson)),
    ("request_body", ofOption RequestBody.toJson e.requestBody),
    ("responses", .arr (e.responses.map Response.toJson)), ("tags", strings e.tags)]

/-- A property as JSON. -/
def Property.toJson (p : Property) : Json :=
  .obj [("name", .str p.name), ("type", .str p.type), ("description", .str p.description),
    ("annotations", strings p.annotations)]

/-- A function as JSON. -/
def Function.toJson (f : Function) : Json :=
  .obj [("name", .str f.name), ("description", .str f.description),
    ("line_number", .int f.lineNumber), ("parameters", .arr (f.parameters.map Parameter.toJson)),
    ("return_type", .str f.returnType), ("annotations", strings f.annotations)]

/-- A type as JSON. -/
def TypeDecl.toJson (t : TypeDecl) : Json :=
  .obj [("name", .str t.name), ("description", .str t.description),
    ("line_number", .int t.lineNumber), ("methods", .arr (t.methods.map Function.toJson)),
    ("properties", .arr (t.properties.map Property.toJson)),
    ("annotations", strings t.annotations)]

/-- The facts of a file as JSON. -/
def SourceFile.toJson (f : SourceFile) : Json :=
  .obj [("file_path", .str f.path), ("language", .str f.language.label),
    ("endpoints", .arr (f.endpoints.map Endpoint.toJson)),
    ("classes", .arr (f.types.map TypeDecl.toJson)),
    ("functions", .arr (f.functions.map Function.toJson)),
    ("last_modified", ofOption (fun t => .str t.render) f.modified)]

/-- An edge as JSON. -/
def Edge.toJson (e : Edge) : Json :=
  .obj [("source_file", .str e.source), ("target_file", .str e.target),
    ("kind", .str e.kind.label), ("details", .str e.details)]

/-- A cross reference as JSON. -/
def CrossReference.toJson (c : CrossReference) : Json :=
  .obj [("from_file", .str c.fromFile), ("from_line", .int c.fromLine),
    ("from_column", .int c.fromColumn), ("to_file", .str c.toFile), ("to_symbol", .str c.toSymbol),
    ("reference_type", .str c.referenceType)]

/-- A context as JSON, with the paths of its files. -/
def ServiceContext.toJson (c : ServiceContext) : Json :=
  .obj ([("service_name", .str c.name), ("root_path", .str c.root)]
    ++ c.buckets.map (fun bucket => (bucket.1, .arr (bucket.2.map SourceFile.toJson)))
    ++ [("relationships", .arr (c.edges.map Edge.toJson)),
      ("api_endpoints", .arr (c.endpoints.map Endpoint.toJson)),
      ("business_logic", .arr (c.businessLogic.map TypeDecl.toJson)),
      ("data_models", .arr (c.dataModels.map TypeDecl.toJson)),
      ("member_files", strings c.memberFiles)])

/-- A graph's edge as JSON. -/
def GraphEdge.toJson (e : GraphEdge) : Json :=
  .obj [("from", .str e.source), ("to", .str e.target), ("type", .str e.kind.label)]

/-- The members of a graph as JSON. -/
def DependencyGraph.members (g : DependencyGraph) : List (String × Json) :=
  [("nodes", strings g.sortedNodes), ("edges", .arr (g.edges.map GraphEdge.toJson))]

/-- A graph as JSON. -/
def DependencyGraph.toJson (g : DependencyGraph) : Json :=
  .obj g.members

/-- Counts as JSON. -/
def Statistics.toJson (s : Statistics) : Json :=
  .obj [("files_analyzed", .int s.files), ("services_analyzed", .int s.services),
    ("relationships_found", .int s.edges), ("skipped_files", .int s.skipped)]

/-- A result as JSON. -/
def AnalysisResult.toJson (r : AnalysisResult) : Json :=
  .obj [("root", .str r.root), ("statistics", r.statistics.toJson),
    ("contexts", .arr (r.contexts.map ServiceContext.toJson)),
    ("relationships", .arr (r.edges.map Edge.toJson)),
    ("cross_references", .arr (r.crossReferences.map CrossReference.toJson)),
    ("skipped_files", strings r.skippedFiles)]

/-- The text of a result: JSON with sorted keys. -/
def AnalysisResult.dump (r : AnalysisResult) : String :=
  r.toJson.sortKeys.render

/-- The content of a file that holds a result. -/
def AnalysisResult.file (r : AnalysisResult) : String :=
  r.dump ++ "\n"

end ServiceMap
