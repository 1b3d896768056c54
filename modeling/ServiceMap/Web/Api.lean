import ServiceMap.Analysis.Run
import ServiceMap.Report.Export
import ServiceMap.Web.Target

/-!
# Answers to requests

The analysis as a web service: which requests there are and how they are answered.
-/

namespace ServiceMap.Web

open Text

/-- A request. -/
structure Request where
  method : String
  target : String
  body : Option Json := none

/-- An answer. -/
structure Response where
  status : Nat
  /-- The body, unless it is empty or a page; nothing is promised about the body of an answer to a
  malformed request. -/
  body : Option Json

/-- Why a request is not answered. -/
inductive Breakdown where
  /-- The target names no path. -/
  | target (fault : TargetFault)
  /-- The analysis fails for a cause that is not reported. -/
  | failure (failure : Failure)
deriving DecidableEq, Repr

/-- What may be asked for. -/
inductive Route where
  | health
  | analyze
  | graph
  /-- A page about the service. -/
  | page
deriving DecidableEq, Repr

namespace Route

/-- The path of each route. -/
def paths : List (String × Route) :=
  [("/health", health), ("/analyze", analyze), ("/graph", graph), ("/openapi.json", page),
    ("/docs", page), ("/docs/oauth2-redirect", page), ("/redoc", page)]

/-- The methods of a route. -/
def methods : Route → List String
  | health => ["GET"]
  | analyze => ["POST"]
  | graph => ["POST"]
  | page => ["GET", "HEAD"]

/-- The route of a path; slashes at its end do not count. -/
def ofPath? (path : List Char) : Option Route :=
  paths.lookup (String.ofList (dropRight (· == '/') path))

end Route

/-- An answer that says why there is no other. -/
def refusal (status : Nat) (detail : String) : Response :=
  ⟨status, some (.obj [("detail", .str detail)])⟩

/-- The answer to a request whose body is not as it should be. -/
def malformed : Response := ⟨422, none⟩

/-- A member of a body that is a text. -/
def textMember? (body : Option Json) (name : String) : Option String :=
  match body with
  | some (.obj members) =>
    match members.lookup name with
    | some (.str s) => some s
    | _ => none
  | _ => none

/-- The result of the analysis of the directory that a path denotes, by its own settings. -/
def analyzePath (tree : Tree) (workingDirectory : Path) (path : String) :
    Reported AnalysisResult := do
  let root ← Reported.ofExcept .root (Discovery.resolveRoot tree workingDirectory path)
  let settings ← Reported.ofExcept .settings (Settings.load tree workingDirectory root)
  (Analyzer.ofSettings settings none).analyzeDirectory tree workingDirectory root.toString

/-- A result as an answer. -/
def resultBody (r : AnalysisResult) : Json :=
  .obj [("root", .str r.root), ("statistics", r.statistics.toJson),
    ("contexts", .arr (r.contexts.map ServiceContext.toJson)),
    ("skipped_files", .arr (r.skippedFiles.map .str))]

/-- The answer for a failure that is reported; other failures have none. -/
def ofFailure (failure : Failure) : Except Breakdown Response :=
  match failure with
  | .root fault =>
    if fault.isReported then .ok (refusal 404 fault.message) else .error (.failure failure)
  | .settings (.invalid fault) => .ok (refusal 400 fault.message)
  | failure => .error (.failure failure)

/-- The answer made from the result of an analysis. -/
def answerWith (run : Reported AnalysisResult) (body : AnalysisResult → Json) :
    Except Breakdown Response :=
  match run.result with
  | .ok result => .ok ⟨200, some (body result)⟩
  | .error failure => ofFailure failure

/-- The answer to a request for a route. -/
def answerRoute (tree : Tree) (workingDirectory : Path) (body : Option Json) :
    Route → Except Breakdown Response
  | .health => .ok ⟨200, some (.obj [("status", .str "ok")])⟩
  | .analyze =>
    match textMember? body "path" with
    | some path => answerWith (analyzePath tree workingDirectory path) resultBody
    | none => .ok malformed
  | .graph =>
    match textMember? body "path", textMember? body "service" with
    | some path, some service =>
      answerWith (analyzePath tree workingDirectory path) fun result =>
        .obj (("service", .str service) :: (result.graph workingDirectory service).members)
    | _, _ => .ok malformed
  | .page => .ok ⟨200, none⟩

/-- The answer to a request with this method for a path. -/
def answerPath (tree : Tree) (workingDirectory : Path) (method : String) (path : List Char)
    (body : Option Json) : Except Breakdown Response :=
  match Route.ofPath? path with
  | none => .ok (refusal 404 "Not Found")
  | some route =>
    if route.methods.contains method then answerRoute tree workingDirectory body route
    else .ok (refusal 405 "Method Not Allowed")

/-- The answer to a request; one that asks for a head only is answered without a body. -/
def answer (tree : Tree) (workingDirectory : Path) (r : Request) : Except Breakdown Response := do
  let path ← (Target.path? r.target).mapError .target
  let method := String.ofList (upper r.method.toList)
  let response ← answerPath tree workingDirectory method path r.body
  return if method == "HEAD" then { response with body := none } else response

end ServiceMap.Web
