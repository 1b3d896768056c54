import ServiceMap.Proofs.Facts.Calendar
import ServiceMap.Proofs.Json.Members
import ServiceMap.Proofs.Json.Reading
import ServiceMap.Report.Export

/-!
# Reports read back

A reader for each record that a report holds. A record is read back from its JSON, whatever the
order of the members. The order of the members of a schema tells nothing, so a record is read back
with the members of its schemas in the order of their keys; `inKeyOrder` is the record in this form.

What a report cannot tell apart is kept out by `IsExportable`: a schema that is null from none, and
a kind of edges of one's own from the known kind of this word. An instant must lie in the years that
its text can write.

The text of a result tells the whole result. It is plain ASCII, and the counts and paths that it
holds beside the stored fields are those of the contexts that are read from it.
-/

namespace ServiceMap

open Json

/-! ## Parameters, properties, functions and types -/

/-- Reads a parameter. -/
def Parameter.ofJson? (j : Json) : Option Parameter := do
  return {
    name := ← j.member? "name" text?
    type := ← j.member? "type" text?
    location := ← j.member? "location" text?
    required := ← j.member? "required" truth?
    description := ← j.member? "description" text? }

@[simp] theorem Parameter.ofJson?_toJson (p : Parameter) :
    ofJson? p.toJson.sortKeys = some p := by
  simp (disch := simp) [ofJson?, toJson, member?_sortKeys, List.lookup_cons]

/-- Reads a property. -/
def Property.ofJson? (j : Json) : Option Property := do
  return {
    name := ← j.member? "name" text?
    type := ← j.member? "type" text?
    description := ← j.member? "description" text?
    annotations := ← j.member? "annotations" (list? text?) }

@[simp] theorem Property.ofJson?_toJson (p : Property) : ofJson? p.toJson.sortKeys = some p := by
  simp (disch := simp) [ofJson?, toJson, member?_sortKeys, List.lookup_cons]

/-- Reads a function. -/
def Function.ofJson? (j : Json) : Option Function := do
  return {
    name := ← j.member? "name" text?
    description := ← j.member? "description" text?
    lineNumber := ← j.member? "line_number" integer?
    parameters := ← j.member? "parameters" (list? Parameter.ofJson?)
    returnType := ← j.member? "return_type" text?
    annotations := ← j.member? "annotations" (list? text?) }

@[simp] theorem Function.ofJson?_toJson (f : Function) : ofJson? f.toJson.sortKeys = some f := by
  simp (disch := simp) [ofJson?, toJson, member?_sortKeys, List.lookup_cons,
    list?_sortKeys_map Parameter.ofJson?_toJson]

/-- Reads a type. -/
def TypeDecl.ofJson? (j : Json) : Option TypeDecl := do
  return {
    name := ← j.member? "name" text?
    description := ← j.member? "description" text?
    lineNumber := ← j.member? "line_number" integer?
    methods := ← j.member? "methods" (list? Function.ofJson?)
    properties := ← j.member? "properties" (list? Property.ofJson?)
    annotations := ← j.member? "annotations" (list? text?) }

@[simp] theorem TypeDecl.ofJson?_toJson (t : TypeDecl) : ofJson? t.toJson.sortKeys = some t := by
  simp (disch := simp) [ofJson?, toJson, member?_sortKeys, List.lookup_cons,
    list?_sortKeys_map Function.ofJson?_toJson, list?_sortKeys_map Property.ofJson?_toJson]

/-! ## Endpoints -/

/-- Reads what an endpoint expects in the request's body. -/
def RequestBody.ofJson? (j : Json) : Option RequestBody := do
  return {
    contentType := ← j.member? "content_type" text?
    schema := ← j.member? "schema" some }

/-- The body with its schema in the order of keys. -/
def RequestBody.inKeyOrder (b : RequestBody) : RequestBody :=
  { b with schema := b.schema.sortKeys }

theorem RequestBody.ofJson?_toJson (b : RequestBody) :
    ofJson? b.toJson.sortKeys = some b.inKeyOrder := by
  simp (disch := simp) [ofJson?, toJson, member?_sortKeys, List.lookup_cons, inKeyOrder]

/-- Reads a response. -/
def Response.ofJson? (j : Json) : Option Response := do
  return {
    statusCode := ← j.member? "status_code" integer?
    description := ← j.member? "description" text?
    schema := ← j.member? "schema" (orNull? some) }

/-- The response with its schema in the order of keys. -/
def Response.inKeyOrder (r : Response) : Response :=
  { r with schema := r.schema.map sortKeys }

/-- A response whose schema, if it has one, is not null. -/
def Response.IsExportable (r : Response) : Prop :=
  r.schema ≠ some .null

theorem Response.ofJson?_toJson {r : Response} (h : r.IsExportable) :
    ofJson? r.toJson.sortKeys = some r.inKeyOrder := by
  have hschema : (r.schema.getD .null).sortKeys.orNull? some = some (r.schema.map sortKeys) := by
    cases hr : r.schema with
    | none => rfl
    | some schema =>
      have hne : schema ≠ .null := by
        rintro rfl
        exact h hr
      exact orNull?_of_ne (sortKeys_ne_null hne) some
  simp (disch := simp) [ofJson?, toJson, member?_sortKeys, List.lookup_cons, inKeyOrder, hschema]

/-- Reads an endpoint. -/
def Endpoint.ofJson? (j : Json) : Option Endpoint := do
  return {
    method := ← j.member? "method" text?
    path := ← j.member? "path" text?
    description := ← j.member? "description" text?
    fileName := ← j.member? "file_name" text?
    lineNumber := ← j.member? "line_number" integer?
    parameters := ← j.member? "parameters" (list? Parameter.ofJson?)
    requestBody := ← j.member? "request_body" (orNull? RequestBody.ofJson?)
    responses := ← j.member? "responses" (list? Response.ofJson?)
    tags := ← j.member? "tags" (list? text?) }

/-- The endpoint with its schemas in the order of keys. -/
def Endpoint.inKeyOrder (e : Endpoint) : Endpoint :=
  { e with
    requestBody := e.requestBody.map RequestBody.inKeyOrder
    responses := e.responses.map Response.inKeyOrder }

/-- An endpoint whose responses have schemas other than null. -/
def Endpoint.IsExportable (e : Endpoint) : Prop :=
  ∀ r ∈ e.responses, r.IsExportable

theorem Endpoint.ofJson?_toJson {e : Endpoint} (h : e.IsExportable) :
    ofJson? e.toJson.sortKeys = some e.inKeyOrder := by
  have hbody := orNull?_sortKeys_ofOption e.requestBody (f := RequestBody.toJson)
    (fun b => by simp [RequestBody.toJson]) fun b _ => b.ofJson?_toJson
  have hresponses := list?_sortKeys_arr e.responses (f := Response.toJson)
    fun r hr => Response.ofJson?_toJson (h r hr)
  simp (disch := simp) [ofJson?, toJson, member?_sortKeys, List.lookup_cons, inKeyOrder, hbody,
    hresponses, list?_sortKeys_map Parameter.ofJson?_toJson]

/-! ## Files and edges -/

/-- Reads a language. -/
def Language.ofJson? (j : Json) : Option Language :=
  j.text?.bind ofLabel?

@[simp] theorem Language.ofJson?_label (l : Language) :
    ofJson? (Json.str l.label).sortKeys = some l := by
  cases l <;> rfl

/-- Reads an instant. -/
def Instant.ofJson? (j : Json) : Option Instant :=
  j.text?.bind read?

theorem Instant.ofJson?_render {t : Instant} (h : t.InCalendar) :
    ofJson? (Json.str t.render).sortKeys = some t := by
  rw [ofJson?, text?_sortKeys_str, Option.bind_some, read?_render h]

/-- Reads the facts of a file. -/
def SourceFile.ofJson? (j : Json) : Option SourceFile := do
  return {
    path := ← j.member? "file_path" text?
    language := ← j.member? "language" Language.ofJson?
    endpoints := ← j.member? "endpoints" (list? Endpoint.ofJson?)
    types := ← j.member? "classes" (list? TypeDecl.ofJson?)
    functions := ← j.member? "functions" (list? Function.ofJson?)
    modified := ← j.member? "last_modified" (orNull? Instant.ofJson?) }

/-- The facts of a file with the schemas in the order of keys. -/
def SourceFile.inKeyOrder (f : SourceFile) : SourceFile :=
  { f with endpoints := f.endpoints.map Endpoint.inKeyOrder }

/-- A file whose facts a report can hold. -/
structure SourceFile.IsExportable (f : SourceFile) : Prop where
  endpoints : ∀ e ∈ f.endpoints, e.IsExportable
  modified : ∀ t ∈ f.modified, t.InCalendar

theorem SourceFile.ofJson?_toJson {f : SourceFile} (h : f.IsExportable) :
    ofJson? f.toJson.sortKeys = some f.inKeyOrder := by
  have hendpoints := list?_sortKeys_arr f.endpoints (f := Endpoint.toJson)
    fun e he => Endpoint.ofJson?_toJson (h.endpoints e he)
  have hmodified := orNull?_sortKeys_ofOption f.modified (f := fun t => .str t.render)
    (g := id) (fun t => by simp) fun t ht => Instant.ofJson?_render (h.modified t ht)
  simp (disch := simp) [ofJson?, toJson, member?_sortKeys, List.lookup_cons, inKeyOrder, hendpoints,
    hmodified, list?_sortKeys_map TypeDecl.ofJson?_toJson,
    list?_sortKeys_map Function.ofJson?_toJson]

/-- Reads an edge. -/
def Edge.ofJson? (j : Json) : Option Edge := do
  return {
    source := ← j.member? "source_file" text?
    target := ← j.member? "target_file" text?
    kind := ← j.member? "kind" fun k => k.text?.map EdgeKind.ofLabel
    details := ← j.member? "details" text? }

/-- An edge whose kind is the one that its word means. -/
def Edge.IsExportable (e : Edge) : Prop :=
  EdgeKind.ofLabel e.kind.label = e.kind

theorem Edge.ofJson?_toJson {e : Edge} (h : e.IsExportable) :
    ofJson? e.toJson.sortKeys = some e := by
  have hkind : EdgeKind.ofLabel e.kind.label = e.kind := h
  simp (disch := simp) [ofJson?, toJson, member?_sortKeys, List.lookup_cons, hkind]

/-- Reads a cross reference. -/
def CrossReference.ofJson? (j : Json) : Option CrossReference := do
  return {
    fromFile := ← j.member? "from_file" text?
    fromLine := ← j.member? "from_line" integer?
    fromColumn := ← j.member? "from_column" integer?
    toFile := ← j.member? "to_file" text?
    toSymbol := ← j.member? "to_symbol" text?
    referenceType := ← j.member? "reference_type" text? }

theorem CrossReference.ofJson?_toJson (c : CrossReference) :
    ofJson? c.toJson.sortKeys = some c := by
  simp (disch := simp) [ofJson?, toJson, member?_sortKeys, List.lookup_cons]

/-! ## Contexts and results -/

/-- Reads a context. The paths of its files are not read: the context has them with the files. -/
def ServiceContext.ofJson? (j : Json) : Option ServiceContext := do
  return {
    name := ← j.member? "service_name" text?
    root := ← j.member? "root_path" text?
    controllers := ← j.member? "controllers" (list? SourceFile.ofJson?)
    services := ← j.member? "services" (list? SourceFile.ofJson?)
    models := ← j.member? "models" (list? SourceFile.ofJson?)
    repositories := ← j.member? "repositories" (list? SourceFile.ofJson?)
    configurations := ← j.member? "configurations" (list? SourceFile.ofJson?)
    utilities := ← j.member? "utilities" (list? SourceFile.ofJson?)
    tests := ← j.member? "tests" (list? SourceFile.ofJson?)
    edges := ← j.member? "relationships" (list? Edge.ofJson?)
    endpoints := ← j.member? "api_endpoints" (list? Endpoint.ofJson?)
    businessLogic := ← j.member? "business_logic" (list? TypeDecl.ofJson?)
    dataModels := ← j.member? "data_models" (list? TypeDecl.ofJson?) }

/-- The context with the schemas of its files in the order of keys. -/
def ServiceContext.inKeyOrder (c : ServiceContext) : ServiceContext :=
  { c with
    controllers := c.controllers.map SourceFile.inKeyOrder
    services := c.services.map SourceFile.inKeyOrder
    models := c.models.map SourceFile.inKeyOrder
    repositories := c.repositories.map SourceFile.inKeyOrder
    configurations := c.configurations.map SourceFile.inKeyOrder
    utilities := c.utilities.map SourceFile.inKeyOrder
    tests := c.tests.map SourceFile.inKeyOrder
    endpoints := c.endpoints.map Endpoint.inKeyOrder }

/-- A context that a report can hold. -/
structure ServiceContext.IsExportable (c : ServiceContext) : Prop where
  files : ∀ bucket ∈ c.buckets, ∀ f ∈ bucket.2, f.IsExportable
  edges : ∀ e ∈ c.edges, e.IsExportable
  endpoints : ∀ e ∈ c.endpoints, e.IsExportable

@[simp] theorem ServiceContext.memberFiles_inKeyOrder (c : ServiceContext) :
    c.inKeyOrder.memberFiles = c.memberFiles := by
  have hpaths : ∀ files : List SourceFile,
      (files.map SourceFile.inKeyOrder).map SourceFile.path = files.map SourceFile.path := by
    simp [SourceFile.inKeyOrder]
  simp [memberFiles, buckets, inKeyOrder, hpaths]

/-- The members of a context whose values are not lists of files. -/
theorem ServiceContext.toJson_eq (c : ServiceContext) : c.toJson = .obj [
    ("service_name", .str c.name), ("root_path", .str c.root),
    ("controllers", .arr (c.controllers.map SourceFile.toJson)),
    ("services", .arr (c.services.map SourceFile.toJson)),
    ("models", .arr (c.models.map SourceFile.toJson)),
    ("repositories", .arr (c.repositories.map SourceFile.toJson)),
    ("configurations", .arr (c.configurations.map SourceFile.toJson)),
    ("utilities", .arr (c.utilities.map SourceFile.toJson)),
    ("tests", .arr (c.tests.map SourceFile.toJson)),
    ("relationships", .arr (c.edges.map Edge.toJson)),
    ("api_endpoints", .arr (c.endpoints.map Endpoint.toJson)),
    ("business_logic", .arr (c.businessLogic.map TypeDecl.toJson)),
    ("data_models", .arr (c.dataModels.map TypeDecl.toJson)),
    ("member_files", strings c.memberFiles)] :=
  rfl

theorem ServiceContext.ofJson?_toJson {c : ServiceContext} (h : c.IsExportable) :
    ofJson? c.toJson.sortKeys = some c.inKeyOrder := by
  have hfiles : ∀ bucket ∈ c.buckets,
      (arr (bucket.2.map SourceFile.toJson)).sortKeys.list? SourceFile.ofJson?
        = some (bucket.2.map SourceFile.inKeyOrder) :=
    fun bucket hbucket => list?_sortKeys_arr _
      fun f hf => SourceFile.ofJson?_toJson (h.files bucket hbucket f hf)
  simp only [buckets, List.forall_mem_cons] at hfiles
  obtain ⟨hcontrollers, hservices, hmodels, hrepositories, hconfigurations, hutilities, htests, -⟩ :=
    hfiles
  have hedges := list?_sortKeys_arr c.edges (f := Edge.toJson) (g := id)
    fun e he => Edge.ofJson?_toJson (h.edges e he)
  have hendpoints := list?_sortKeys_arr c.endpoints (f := Endpoint.toJson)
    fun e he => Endpoint.ofJson?_toJson (h.endpoints e he)
  rw [toJson_eq]
  simp (disch := simp) [ofJson?, member?_sortKeys, List.lookup_cons, inKeyOrder, hcontrollers, hservices,
    hmodels, hrepositories, hconfigurations, hutilities, htests, hedges, hendpoints,
    list?_sortKeys_map TypeDecl.ofJson?_toJson]

/-- Reads counts. -/
def Statistics.ofJson? (j : Json) : Option Statistics := do
  return {
    files := ← j.member? "files_analyzed" natural?
    services := ← j.member? "services_analyzed" natural?
    edges := ← j.member? "relationships_found" natural?
    skipped := ← j.member? "skipped_files" natural? }

theorem Statistics.ofJson?_toJson (s : Statistics) : ofJson? s.toJson.sortKeys = some s := by
  simp (disch := simp) [ofJson?, toJson, member?_sortKeys, List.lookup_cons]

namespace AnalysisResult

/-- Reads a result. The counts are not read: they are counts of what is read. -/
def ofJson? (j : Json) : Option AnalysisResult := do
  return {
    root := ← j.member? "root" text?
    contexts := ← j.member? "contexts" (list? ServiceContext.ofJson?)
    edges := ← j.member? "relationships" (list? Edge.ofJson?)
    crossReferences := ← j.member? "cross_references" (list? CrossReference.ofJson?)
    skippedFiles := ← j.member? "skipped_files" (list? text?) }

/-- The result with all schemas in the order of keys. -/
def inKeyOrder (r : AnalysisResult) : AnalysisResult :=
  { r with contexts := r.contexts.map ServiceContext.inKeyOrder }

/-- A result that a report can hold. -/
structure IsExportable (r : AnalysisResult) : Prop where
  contexts : ∀ c ∈ r.contexts, c.IsExportable
  edges : ∀ e ∈ r.edges, e.IsExportable

theorem ofJson?_toJson {r : AnalysisResult} (h : r.IsExportable) :
    ofJson? r.toJson.sortKeys = some r.inKeyOrder := by
  have hcontexts := list?_sortKeys_arr r.contexts (f := ServiceContext.toJson)
    fun c hc => ServiceContext.ofJson?_toJson (h.contexts c hc)
  have hedges := list?_sortKeys_arr r.edges (f := Edge.toJson) (g := id)
    fun e he => Edge.ofJson?_toJson (h.edges e he)
  simp (disch := simp) [ofJson?, toJson, member?_sortKeys, List.lookup_cons, inKeyOrder, hcontexts,
    hedges, list?_sortKeys_map CrossReference.ofJson?_toJson]

/-! ## Texts of results -/

/-- Reads a result from its text. -/
def read? (text : String) : Option AnalysisResult :=
  (Json.read? text).bind ofJson?

variable {r : AnalysisResult}

theorem read?_dump (h : r.IsExportable) : read? r.dump = some r.inKeyOrder := by
  rw [read?, dump, Json.read?_render, Option.bind_some, ofJson?_toJson h]

@[simp] theorem statistics_inKeyOrder (r : AnalysisResult) :
    r.inKeyOrder.statistics = r.statistics := by
  simp [statistics, inKeyOrder, List.foldr_map]

theorem member?_statistics (r : AnalysisResult) :
    r.toJson.sortKeys.member? "statistics" Statistics.ofJson? = some r.statistics := by
  simp (disch := simp) [toJson, member?_sortKeys, List.lookup_cons, Statistics.ofJson?_toJson]

theorem member?_memberFiles (c : ServiceContext) :
    c.toJson.sortKeys.member? "member_files" (list? text?) = some c.memberFiles := by
  rw [ServiceContext.toJson_eq]
  simp (disch := simp) [member?_sortKeys, List.lookup_cons]

theorem member?_contexts (r : AnalysisResult) :
    r.toJson.sortKeys.member? "contexts" (list? (member? "member_files" (list? text?)))
      = some (r.contexts.map ServiceContext.memberFiles) := by
  have hfiles := list?_sortKeys_arr r.contexts fun c _ => member?_memberFiles c
  simp (disch := simp) [toJson, member?_sortKeys, List.lookup_cons, hfiles]

/-- **A report loses nothing.** From the text of a result the result is read back, but for the order
of the members of schemas, so that results that differ otherwise never have the same text. The text
is ASCII, and its counts and the paths of the files of its contexts are those of the result that is
read from it. -/
theorem dump_faithful (h : r.IsExportable) :
    (∃ document decoded, Json.read? r.dump = some document ∧ ofJson? document = some decoded ∧
      read? r.dump = some decoded ∧ decoded = r.inKeyOrder ∧
      document.member? "statistics" Statistics.ofJson? = some decoded.statistics ∧
      document.member? "contexts" (list? (member? "member_files" (list? text?)))
        = some (decoded.contexts.map ServiceContext.memberFiles)) ∧
    (∀ s : AnalysisResult, s.IsExportable → s.dump = r.dump → s.inKeyOrder = r.inKeyOrder) ∧
    ∀ c ∈ r.dump.toList, c.toNat < 128 := by
  refine ⟨⟨r.toJson.sortKeys, r.inKeyOrder, Json.read?_render _, ofJson?_toJson h, read?_dump h,
    rfl, ?_, ?_⟩, ?_, ?_⟩
  · rw [member?_statistics, statistics_inKeyOrder]
  · rw [member?_contexts]
    simp [inKeyOrder]
  · intro s hs hdump
    have hread := read?_dump hs
    rw [hdump, read?_dump h] at hread
    exact (Option.some.inj hread).symm
  · intro c hc
    refine isAscii_renderAt 0 r.toJson.sortKeys c ?_
    rwa [dump, render, String.toList_ofList] at hc

/-- A result with texts beyond ASCII, a schema whose members are not in order, and an instant before
1970 that has microseconds. -/
def unusual : AnalysisResult :=
  let endpoint : Endpoint :=
    { method := "GET", path := "/é/𝄞", description := "\x00\"\\\n", fileName := "a.go", lineNumber := 3
      requestBody := some ⟨"application/json", .obj [("type", .str "object"), ("a", .str "ß")]⟩
      responses := [⟨200, "OK", some (.obj [("b", .str ""), ("a", .str "x")])⟩, ⟨404, "", none⟩] }
  let file : SourceFile :=
    { path := "/w/a.go", language := .go, endpoints := [endpoint], modified := some ⟨-1⟩ }
  { root := "/w", edges := [⟨"/w/a.go", "/w/b.go", .other "uses", "\u007f"⟩]
    contexts := [{ name := "General", root := "/w", controllers := [file], endpoints := [endpoint] }] }

theorem unusual_isExportable : unusual.IsExportable := by
  have hresponses : ∀ e : Endpoint, e ∈ unusual.contexts.flatMap ServiceContext.endpoints →
      e.IsExportable := by
    simp [unusual, Endpoint.IsExportable, Response.IsExportable]
  have htime : (⟨-1⟩ : Instant).InCalendar := by decide +kernel
  refine ⟨List.forall_mem_singleton.mpr ⟨?_, by simp, ?_⟩, List.forall_mem_singleton.mpr rfl⟩
  · simp only [ServiceContext.buckets, List.forall_mem_cons, List.not_mem_nil, IsEmpty.forall_iff,
      implies_true, and_true]
    exact ⟨by simpa [unusual] using hresponses, by simpa using htime⟩
  · simpa [unusual] using hresponses

theorem dump_faithful_unusual :
    unusual.IsExportable ∧ read? unusual.dump = some unusual.inKeyOrder := by
  obtain ⟨⟨_, _, _, _, hread, rfl, _⟩, _⟩ := dump_faithful unusual_isExportable
  exact ⟨unusual_isExportable, hread⟩

end AnalysisResult

end ServiceMap
