import Mathlib.Data.List.Induction
import Mathlib.Data.List.Nodup
import ServiceMap.Proofs.Endpoint.Origins
import ServiceMap.Proofs.Facts.SameCode
import ServiceMap.Proofs.Text.Lookup

/-!
# Places and responses of endpoints

An endpoint stands on a line of its source and has at least one response. The responses are collected
in several sweeps, but each status code is kept only where it is found first, and plain success stands in
for responses only where none was found.
-/

namespace ServiceMap

open Text Source Declaration Endpoint Pattern

namespace Endpoint

/-! ## The first of each key -/

section Keys

variable {α κ : Type} [BEq κ] {key : α → κ} {items : List α} {item : α}

theorem firstByKey_snoc (key : α → κ) (items : List α) (last : α) :
    firstByKey key (items ++ [last])
      = if (firstByKey key items).any (fun other => key other == key last) then firstByKey key items
        else firstByKey key items ++ [last] :=
  List.foldl_append

theorem mem_of_mem_firstByKey (h : item ∈ firstByKey key items) : item ∈ items := by
  induction items using List.reverseRecOn with
  | nil => exact h
  | append_singleton items last ih =>
      rw [firstByKey_snoc] at h
      split at h
      · exact List.mem_append_left _ (ih h)
      · rcases List.mem_append.mp h with h | h
        · exact List.mem_append_left _ (ih h)
        · exact List.mem_append_right _ h

variable [LawfulBEq κ]

/-- No key is kept twice. -/
theorem nodup_firstByKey (key : α → κ) (items : List α) :
    ((firstByKey key items).map key).Nodup := by
  induction items using List.reverseRecOn with
  | nil => exact List.nodup_nil
  | append_singleton items last ih =>
      rw [firstByKey_snoc]
      split
      · exact ih
      · rename_i hnew
        rw [List.map_append]
        refine ih.append (List.nodup_singleton _) fun k hk hlast => hnew ?_
        obtain rfl := List.mem_singleton.mp hlast
        obtain ⟨other, hother, hkey⟩ := List.mem_map.mp hk
        exact List.any_eq_true.mpr ⟨other, hother, beq_iff_eq.mpr hkey⟩

/-- An item with each key is kept. -/
theorem exists_firstByKey (key : α → κ) (h : item ∈ items) :
    ∃ other ∈ firstByKey key items, key other = key item := by
  induction items using List.reverseRecOn with
  | nil => exact absurd h List.not_mem_nil
  | append_singleton items last ih =>
      rw [firstByKey_snoc]
      split
      · rename_i htaken
        rcases List.mem_append.mp h with h | h
        · exact ih h
        · obtain rfl := List.mem_singleton.mp h
          obtain ⟨other, hother, hkey⟩ := List.any_eq_true.mp htaken
          exact ⟨other, hother, beq_iff_eq.mp hkey⟩
      · rcases List.mem_append.mp h with h | h
        · obtain ⟨other, hother, hkey⟩ := ih h
          exact ⟨other, List.mem_append_left _ hother, hkey⟩
        · exact ⟨item, List.mem_append_right _ h, rfl⟩

end Keys

/-! ## Responses -/

/-- Responses that tell how a route answers: there are some, each status code occurs once, and plain
success has no others beside it. -/
structure AreAnswers (responses : List Response) : Prop where
  nonempty : responses ≠ []
  distinct : (responses.map Response.statusCode).Nodup
  alone : ∀ r ∈ responses, r.description = "Success" → responses = [r]

/-- Only the codes below 300 may come with a schema. -/
def SchemaOnSuccess (responses : List Response) : Prop :=
  ∀ r ∈ responses, 300 ≤ r.statusCode → r.schema = none

/-- Plain success is the description of no status code. -/
theorem statusDescription_ne_success (code : Int) : statusDescription code ≠ "Success" := by
  have hwords : ∀ entry ∈ statusWords, entry.2 ≠ "Success" := by decide
  rw [statusDescription]
  cases hlookup : statusWords.lookup code with
  | none => decide
  | some word => exact hwords _ (mem_of_lookup hlookup)

section Collected

variable {success : Option Schema} {found : List Response}

/-- Plain success is the one response where none was found; otherwise all of them were found. -/
theorem responsesOr_cases (success : Option Schema) (found : List Response) :
    responsesOr success found = [⟨200, "Success", success⟩]
      ∨ responsesOr success found = firstByKey Response.statusCode found
        ∧ responsesOr success found ≠ [] := by
  rw [responsesOr]
  split
  · exact Or.inl rfl
  · rename_i hsome
    exact Or.inr ⟨rfl, hsome⟩

theorem exists_responsesOr (success : Option Schema) {r : Response} (h : r ∈ found) :
    ∃ other ∈ responsesOr success found, other.statusCode = r.statusCode := by
  obtain ⟨other, hother, hcode⟩ := exists_firstByKey Response.statusCode h
  rw [responsesOr]
  split
  · rename_i hnone
    rw [hnone] at hother
    exact absurd hother List.not_mem_nil
  · exact ⟨other, hother, hcode⟩

theorem areAnswers_responsesOr (h : ∀ r ∈ found, r.description ≠ "Success") :
    AreAnswers (responsesOr success found) := by
  rcases responsesOr_cases success found with heq | ⟨heq, hne⟩
  · rw [heq]
    exact ⟨List.cons_ne_nil _ _, List.nodup_singleton _,
      fun r hr _ => congrArg ([·]) (List.mem_singleton.mp hr).symm⟩
  · refine ⟨hne, heq ▸ nodup_firstByKey _ found, fun r hr hsuccess => absurd hsuccess ?_⟩
    exact h r (mem_of_mem_firstByKey (heq ▸ hr))

theorem schemaOnSuccess_responsesOr (h : SchemaOnSuccess found) :
    SchemaOnSuccess (responsesOr success found) := by
  intro r hr hcode
  rcases responsesOr_cases success found with heq | ⟨heq, -⟩
  · rw [heq] at hr
    obtain rfl := List.mem_singleton.mp hr
    exact absurd hcode (show ¬ (300 : Int) ≤ 200 by decide)
  · exact h r (mem_of_mem_firstByKey (heq ▸ hr)) hcode

/-- Responses that are made from their codes are answers. -/
theorem areAnswers_of_codes {codes : List Int} {schema : Int → Option Schema} :
    AreAnswers (responsesOr success (codes.map fun code => response code (schema code))) := by
  refine areAnswers_responsesOr fun r hr => ?_
  obtain ⟨code, -, rfl⟩ := List.mem_map.mp hr
  exact statusDescription_ne_success code

theorem schemaOnSuccess_of_codes {codes : List Int} {schema : Int → Option Schema}
    (h : ∀ code, 300 ≤ code → schema code = none) :
    SchemaOnSuccess (responsesOr success (codes.map fun code => response code (schema code))) := by
  refine schemaOnSuccess_responsesOr fun r hr hcode => ?_
  obtain ⟨code, -, rfl⟩ := List.mem_map.mp hr
  exact h code hcode

end Collected

theorem areAnswers_goResponses {masked handler : List Char} {responses : List Response}
    (h : goResponses masked handler = .ok responses) : AreAnswers responses := by
  rw [goResponses] at h
  split at h
  · obtain rfl := Except.ok.inj h
    exact areAnswers_responsesOr fun r hr => absurd hr List.not_mem_nil
  · obtain ⟨body, -, h⟩ := except_bind_eq_ok h
    obtain ⟨found, hfound, h⟩ := except_bind_eq_ok h
    obtain rfl := Except.ok.inj h
    refine areAnswers_responsesOr fun r hr => ?_
    obtain ⟨m, -, hresponse⟩ := mem_of_mapM_eq_ok hfound hr
    obtain ⟨code, -, hresponse⟩ := except_bind_eq_ok hresponse
    rw [← Except.ok.inj hresponse]
    exact statusDescription_ne_success code

theorem areAnswers_javaResponses (m : DeclaredMethod) : AreAnswers (javaResponses m) :=
  areAnswers_of_codes

theorem schemaOnSuccess_javaResponses (m : DeclaredMethod) : SchemaOnSuccess (javaResponses m) :=
  schemaOnSuccess_of_codes fun _ hcode => if_neg (Int.not_lt.mpr hcode)

section CSharp

variable {marks : List (List Char)} {body : List Char} {result : String} {responses : List Response}
  (h : csharpResponses marks body result = .ok responses)
include h

theorem areAnswers_csharpResponses : AreAnswers responses := by
  obtain ⟨declared, -, h⟩ := except_bind_eq_ok h
  exact Except.ok.inj h ▸ areAnswers_of_codes

theorem schemaOnSuccess_csharpResponses : SchemaOnSuccess responses := by
  obtain ⟨declared, -, h⟩ := except_bind_eq_ok h
  refine Except.ok.inj h ▸ schemaOnSuccess_of_codes fun code hcode => ?_
  simp [Int.not_lt.mpr hcode]

end CSharp

/-! ## Endpoints -/

/-- An endpoint as it is reported of a file: it stands on a line of the text, and its responses are
answers. -/
structure IsReportedOf (file : String) (masked : List Char) (e : ServiceMap.Endpoint) : Prop where
  file : e.fileName = file
  line : ∃ index, e.lineNumber = Text.lineNumber masked index
  answers : AreAnswers e.responses

section Reported

variable {source : SourceText} {file : String} {e : ServiceMap.Endpoint}

theorem isReportedOf_goEndpoint {index : Nat} {verb router : String} {path handler : List Char}
    (h : goEndpoint source file index verb path handler router = .ok e) :
    IsReportedOf file source.masked e := by
  have hgo := isGoEndpoint_of_goEndpoint h
  exact ⟨hgo.fileName, ⟨index, hgo.line⟩, areAnswers_goResponses hgo.responses⟩

theorem isReportedOf_javaEndpoint {owner : TypeDecl} {head : Match} {m : DeclaredMethod}
    (hhead : IsAtHead source head m) (h : javaEndpoint? file owner m = .ok (some e)) :
    IsReportedOf file source.masked e ∧ SchemaOnSuccess e.responses := by
  have hjava := isJavaEndpoint_of_javaEndpoint? h
  rw [hjava.responses]
  refine ⟨⟨hjava.fileName, ⟨_, hjava.line.trans hhead.line⟩, ?_⟩, schemaOnSuccess_javaResponses m⟩
  rw [hjava.responses]
  exact areAnswers_javaResponses m

theorem isReportedOf_actionEndpoint {owner : TypeDecl} {base? : Option (List Char)} {head : Match}
    {m : DeclaredMethod} (hhead : IsAtHead source head m)
    (h : actionEndpoint? file owner base? m = .ok (some e)) :
    IsReportedOf file source.masked e ∧ SchemaOnSuccess e.responses := by
  have haction := isActionEndpoint_of_actionEndpoint? h
  exact ⟨⟨haction.fileName, ⟨_, haction.line.trans hhead.line⟩,
    areAnswers_csharpResponses haction.responses⟩, schemaOnSuccess_csharpResponses haction.responses⟩

theorem isReportedOf_mappedEndpoint {groups : Groups} {m : Match}
    (h : mappedEndpoint source file groups m = .ok e) :
    IsReportedOf file source.masked e ∧ SchemaOnSuccess e.responses := by
  obtain ⟨arguments, parameters, hmapped⟩ := isMappedEndpoint_of_mappedEndpoint h
  exact ⟨⟨hmapped.fileName, ⟨_, hmapped.line⟩, areAnswers_csharpResponses hmapped.responses⟩,
    schemaOnSuccess_csharpResponses hmapped.responses⟩

end Reported

end Endpoint

namespace SourceFile

variable {path : String} {source : SourceText} {facts : SourceFile} {e : ServiceMap.Endpoint}

theorem isReportedOf_of_readGo (h : readGo path source = .ok facts) (he : e ∈ facts.endpoints) :
    IsReportedOf path source.masked e := by
  obtain ⟨functions, hfacts⟩ := isReadGo_of_readGo h
  rcases (mem_goEndpoints_iff hfacts.endpoints).mp he with ⟨m, -, -, hread⟩ | ⟨m, -, hread⟩
  · exact isReportedOf_goEndpoint hread
  · exact isReportedOf_goEndpoint hread

theorem isReportedOf_of_readJava (h : readJava path source = .ok facts) (he : e ∈ facts.endpoints) :
    IsReportedOf path source.masked e ∧ SchemaOnSuccess e.responses := by
  obtain ⟨types, methods, hfacts⟩ := isReadJava_of_readJava h
  obtain ⟨number, m, type, hm, -, hread⟩ := (mem_javaEndpoints_iff hfacts.endpoints).mp he
  obtain ⟨-, head, hhead⟩ := owner_of_mem_javaMethods hfacts.methodsRead hm
  exact isReportedOf_javaEndpoint (isAtHead_javaMethod hhead) hread

theorem isReportedOf_of_readCSharp (h : readCSharp path source = .ok facts)
    (he : e ∈ facts.endpoints) : IsReportedOf path source.masked e ∧ SchemaOnSuccess e.responses := by
  obtain ⟨types, methods, actions, mapped, hfacts⟩ := isReadCSharp_of_readCSharp h
  rw [hfacts.endpoints] at he
  rcases List.mem_append.mp he with he | he
  · obtain ⟨type, -, base?, -, m, hm, -, hread⟩ :=
      (mem_actionEndpoints_iff hfacts.actionsRead).mp he
    obtain ⟨head, -, hhead⟩ := mem_of_mapM_eq_ok hfacts.methodsRead hm
    exact isReportedOf_actionEndpoint (isAtHead_csharpMethod hhead) hread
  · obtain ⟨m, -, hread⟩ := (mem_mappedEndpoints_iff hfacts.mappedRead).mp he
    exact isReportedOf_mappedEndpoint hread

end SourceFile

/-- **Endpoints are located and answered.** Whatever the text, every endpoint that is read of it names
the file and a line of the text. It has responses, of which no two have one status code; plain success
is the only response where it occurs. In Java and in C# no response of 300 or above has a schema. -/
theorem endpoints_are_located_and_answered {language : Language} {path : String} {text : List Char}
    {facts : SourceFile} (h : SourceFile.read language path text = .ok facts) :
    ∀ e ∈ facts.endpoints, e.fileName = path
      ∧ 1 ≤ e.lineNumber ∧ e.lineNumber ≤ newlines text + 1
      ∧ e.responses ≠ [] ∧ (e.responses.map Response.statusCode).Nodup
      ∧ (∀ r ∈ e.responses, r.description = "Success" → e.responses = [r])
      ∧ (language ≠ .go → ∀ r ∈ e.responses, 300 ≤ r.statusCode → r.schema = none) := by
  intro e he
  have hreported : IsReportedOf path (maskComments language.rawQuote text) e
      ∧ (language ≠ .go → SchemaOnSuccess e.responses) := by
    cases language with
    | go => exact ⟨SourceFile.isReportedOf_of_readGo h he, fun hgo => absurd rfl hgo⟩
    | java =>
        obtain ⟨hreported, hschema⟩ := SourceFile.isReportedOf_of_readJava h he
        exact ⟨hreported, fun _ => hschema⟩
    | csharp =>
        obtain ⟨hreported, hschema⟩ := SourceFile.isReportedOf_of_readCSharp h he
        exact ⟨hreported, fun _ => hschema⟩
  obtain ⟨⟨hfile, ⟨index, hline⟩, hanswers⟩, hschema⟩ := hreported
  have hupper := lineNumber_le (maskComments language.rawQuote text) index
  have hlower : 1 ≤ lineNumber (maskComments language.rawQuote text) index := Nat.succ_pos _
  rw [newlines_maskComments] at hupper
  refine ⟨hfile, ?_, ?_, hanswers.nonempty, hanswers.distinct, hanswers.alone, hschema⟩
  · rw [hline]
    exact_mod_cast hlower
  · rw [hline]
    exact_mod_cast hupper

/-- A method whose status is set by an annotation and once more in its body, beside a success. -/
def controllerWithStatus : List Char :=
  ("class Items \x7b\n    @GetMapping(\"/items\")\n    @ResponseStatus(HttpStatus.NOT_FOUND)\n"
    ++ "    public Item get() \x7b\n        if (gone) throw of(HttpStatus.NOT_FOUND);\n"
    ++ "        return ResponseEntity.ok(item);\n    \x7d\n\x7d\n").toList

/-- The status is reported once and without a schema, the success after it with one. -/
theorem responses_of_controllerWithStatus :
    ∃ facts, SourceFile.read .java "Items.java" controllerWithStatus = .ok facts
      ∧ ∃ e ∈ facts.endpoints, e.fileName = "Items.java"
        ∧ 1 ≤ e.lineNumber ∧ e.lineNumber ≤ newlines controllerWithStatus + 1
        ∧ e.responses = [⟨404, "Not Found", none⟩, ⟨200, "OK", some (typeSchema "object")⟩]
        ∧ (e.responses.map Response.statusCode).Nodup := by
  have hread : (match SourceFile.read .java "Items.java" controllerWithStatus with
      | .ok facts => facts.endpoints.any fun e => decide
          (e.responses = [⟨404, "Not Found", none⟩, ⟨200, "OK", some (typeSchema "object")⟩])
      | .error _ => false) = true := by decide +kernel
  split at hread
  · rename_i facts hfacts
    obtain ⟨e, he, hresponses⟩ := List.any_eq_true.mp hread
    obtain ⟨hfile, hfirst, hlast, -, hdistinct, -⟩ := endpoints_are_located_and_answered hfacts e he
    exact ⟨facts, hfacts, e, he, hfile, hfirst, hlast, of_decide_eq_true hresponses, hdistinct⟩
  · exact nomatch hread

end ServiceMap
