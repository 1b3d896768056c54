import ServiceMap.Proofs.Endpoint.Readers
import ServiceMap.Proofs.Source.Fallible

/-!
# Where endpoints come from

An endpoint of a source is read at a call that registers or maps a route, or at a method that is mapped
to one. Each such place that stands for a route gives an endpoint, and there are no others. What an
endpoint holds of its place is said once for each kind of place, and what the facts of a source hold
of what its readers find once for each language.
-/

namespace ServiceMap

open Text Source Declaration Endpoint Pattern

namespace Declaration

variable {source : SourceText} {head : Match} {m : DeclaredMethod}

/-- A method is where its head starts, and on the line on which its result stands. -/
structure IsAtHead (source : SourceText) (head : Match) (m : DeclaredMethod) : Prop where
  index : m.index = head.start
  line : m.info.lineNumber = source.lineNumber (head.groupStart 2)

theorem isAtHead_javaMethod (h : javaMethod source head = .ok m) : IsAtHead source head m := by
  obtain ⟨parameters, -, h⟩ := except_bind_eq_ok h
  obtain ⟨body, -, h⟩ := except_bind_eq_ok h
  obtain ⟨preamble, -, h⟩ := except_bind_eq_ok h
  obtain ⟨declared, -, h⟩ := except_bind_eq_ok h
  exact Except.ok.inj h ▸ ⟨rfl, rfl⟩

theorem isAtHead_csharpMethod (h : csharpMethod source head = .ok m) : IsAtHead source head m := by
  obtain ⟨parameters, -, h⟩ := except_bind_eq_ok h
  obtain ⟨preamble, -, h⟩ := except_bind_eq_ok h
  obtain ⟨body, -, h⟩ := except_bind_eq_ok h
  exact Except.ok.inj h ▸ ⟨rfl, rfl⟩

end Declaration

namespace Endpoint

variable {source : SourceText} {file : String} {endpoints : List ServiceMap.Endpoint}
  {e : ServiceMap.Endpoint}

/-! ## What an endpoint holds of its place -/

/-- An endpoint of a call at a position of a Go source. -/
structure IsGoEndpoint (source : SourceText) (file : String) (index : Nat) (verb : String)
    (route handler : List Char) (router : String) (e : ServiceMap.Endpoint) : Prop where
  method : e.method = verb
  path : e.path = String.ofList route
  description : ∃ doc, commentAbove wholeComment? source.lines (source.lineNumber index) = .ok doc
    ∧ e.description = describe doc (e.method ++ " " ++ e.path)
  fileName : e.fileName = file
  line : e.lineNumber = source.lineNumber index
  parameters : e.parameters = pathParameters untyped route
  requestBody : e.requestBody = none
  responses : goResponses source.masked handler = .ok e.responses
  tags : e.tags = [router]

theorem isGoEndpoint_of_goEndpoint {index : Nat} {verb router : String} {path handler : List Char}
    (h : goEndpoint source file index verb path handler router = .ok e) :
    IsGoEndpoint source file index verb path handler router e := by
  obtain ⟨doc, hdoc, h⟩ := except_bind_eq_ok h
  obtain ⟨responses, hresponses, h⟩ := except_bind_eq_ok h
  obtain rfl := Except.ok.inj h
  exact ⟨rfl, rfl, ⟨doc, hdoc, rfl⟩, rfl, rfl, rfl, rfl, hresponses, rfl⟩

/-- An endpoint of a method of a Java type. -/
structure IsJavaEndpoint (file : String) (owner : TypeDecl) (m : DeclaredMethod)
    (e : ServiceMap.Endpoint) : Prop where
  route : ∃ vocabulary base path, javaRoute? owner m = .ok (some (vocabulary, e.method, base, path))
    ∧ e.path = String.ofList (joinPaths base path) ∧ e.tags = [vocabulary, owner.name]
  description : e.description = describe m.doc (e.method ++ " " ++ e.path)
  fileName : e.fileName = file
  line : e.lineNumber = m.info.lineNumber
  parameters : ∃ bound, (m.parameters.filter fun p => !isRequestBody p).mapM boundParameter?
    = .ok bound ∧ e.parameters = bound.filterMap id
  requestBody : e.requestBody = (m.parameters.filter isRequestBody).getLast?.map fun p =>
    ⟨"application/json", typeSchema (String.ofList p.type)⟩
  responses : e.responses = javaResponses m

theorem isJavaEndpoint_of_javaEndpoint? {owner : TypeDecl} {m : DeclaredMethod}
    (h : javaEndpoint? file owner m = .ok (some e)) : IsJavaEndpoint file owner m e := by
  obtain ⟨route?, hroute, h⟩ := except_bind_eq_ok h
  cases route? with
  | none => exact nomatch h
  | some route =>
      obtain ⟨bound, hbound, h⟩ := except_bind_eq_ok h
      obtain rfl := Option.some.inj (Except.ok.inj h)
      exact ⟨⟨_, _, _, hroute, rfl, rfl⟩, rfl, rfl, rfl, ⟨bound, hbound, rfl⟩, rfl, rfl⟩

/-- An endpoint of a method of a C# type. -/
structure IsActionEndpoint (file : String) (owner : TypeDecl) (base? : Option (List Char))
    (m : DeclaredMethod) (e : ServiceMap.Endpoint) : Prop where
  route : actionRoute? owner base? m = .ok (some (e.method, e.path.toList))
  description : e.description = describe m.doc (e.method ++ " " ++ e.path)
  fileName : e.fileName = file
  line : e.lineNumber = m.info.lineNumber
  parameters : e.parameters = endpointParameters e.path.toList m.parameters
  requestBody : e.requestBody = endpointBody m.parameters
  responses : csharpResponses (m.info.annotations.map String.toList) m.body m.info.returnType
    = .ok e.responses
  tags : e.tags = ["aspnet", owner.name]

theorem isActionEndpoint_of_actionEndpoint? {owner : TypeDecl} {base? : Option (List Char)}
    {m : DeclaredMethod} (h : actionEndpoint? file owner base? m = .ok (some e)) :
    IsActionEndpoint file owner base? m e := by
  obtain ⟨route?, hroute, h⟩ := except_bind_eq_ok h
  cases route? with
  | none => exact nomatch h
  | some route =>
      obtain ⟨verb, path⟩ := route
      obtain ⟨responses, hresponses, h⟩ := except_bind_eq_ok h
      obtain rfl := Option.some.inj (Except.ok.inj h)
      have hpath : (String.ofList path).toList = path := String.toList_ofList
      exact ⟨hpath.symm ▸ hroute, rfl, rfl, rfl, hpath.symm ▸ rfl, rfl, hresponses, rfl⟩

/-- The arguments of the call that maps a route. -/
def mappedArguments (source : SourceText) (m : Match) : Except Fault (List Char) :=
  (group source.masked ((findFrom? ['('] source.masked m.start).getD source.masked.length)).map
    Prod.fst

/-- An endpoint of a call that maps a route to a function in its arguments. -/
structure IsMappedEndpoint (source : SourceText) (file : String) (groups : Groups) (m : Match)
    (arguments : List Char) (parameters : List DeclaredParameter) (e : ServiceMap.Endpoint) :
    Prop where
  call : mappedArguments source m = .ok arguments
  handler : handlerParameters arguments = .ok parameters
  method : e.method = String.ofList (upper (m.group 2))
  path : e.path = String.ofList (joinPaths (groupPath groups (m.group 1)) (m.group 3))
  description : ∃ doc, commentAbove lineComment? source.lines (source.lineNumber m.start) = .ok doc
    ∧ e.description = describe doc (e.method ++ " " ++ e.path)
  fileName : e.fileName = file
  line : e.lineNumber = source.lineNumber m.start
  listed : e.parameters = endpointParameters e.path.toList parameters
  requestBody : e.requestBody = endpointBody parameters
  responses : csharpResponses [] arguments "" = .ok e.responses
  tags : e.tags = ["minimal-api"]

theorem isMappedEndpoint_of_mappedEndpoint {groups : Groups} {m : Match}
    (h : mappedEndpoint source file groups m = .ok e) :
    ∃ arguments parameters, IsMappedEndpoint source file groups m arguments parameters e := by
  obtain ⟨⟨arguments, stop⟩, harguments, h⟩ := except_bind_eq_ok h
  obtain ⟨parameters, hparameters, h⟩ := except_bind_eq_ok h
  obtain ⟨doc, hdoc, h⟩ := except_bind_eq_ok h
  obtain ⟨responses, hresponses, h⟩ := except_bind_eq_ok h
  obtain rfl := Except.ok.inj h
  have hcall : mappedArguments source m = .ok arguments := by
    rw [mappedArguments, harguments]
    rfl
  exact ⟨arguments, parameters, hcall, hparameters, rfl, rfl, ⟨doc, hdoc, rfl⟩, rfl, rfl, by simp,
    rfl, hresponses, rfl⟩

/-! ## The places of endpoints -/

/-- The endpoint of a call on a router. -/
def goRouteEndpoint (source : SourceText) (file : String) (m : Match) :
    Except Fault ServiceMap.Endpoint :=
  goEndpoint source file m.start (String.ofList (upper (m.group 2)))
    (joinPaths (groupPath (collectGroups (goGroup.findAll source.masked)) (m.group 1)) (m.group 3))
    (m.group 4) (goRouter source.masked)

/-- The endpoint of a route of the standard library. -/
def goHandledEndpoint (source : SourceText) (file : String) (m : Match) :
    Except Fault ServiceMap.Endpoint :=
  goEndpoint source file m.start "GET" (m.group 1) (m.group 2) "net/http"

theorem mem_goEndpoints_iff (h : goEndpoints source file = .ok endpoints) :
    e ∈ endpoints ↔
      (∃ m ∈ goRoute.findAll source.masked, String.ofList (upper (m.group 2)) ∈ verbs
          ∧ goRouteEndpoint source file m = .ok e)
        ∨ ∃ m ∈ goHandleFunc.findAll source.masked, goHandledEndpoint source file m = .ok e := by
  obtain ⟨routes, hroutes, h⟩ := except_bind_eq_ok h
  obtain ⟨plain, hplain, h⟩ := except_bind_eq_ok h
  obtain rfl := Except.ok.inj h
  rw [List.mem_append, mem_of_mapM_iff hroutes, mem_of_mapM_iff hplain]
  refine or_congr (exists_congr fun m => ?_) Iff.rfl
  rw [List.mem_filter, List.contains_iff_mem, and_assoc]
  rfl

/-- A method of a Java source is read at a head, and belongs to the owner of its place. -/
theorem owner_of_mem_javaMethods {types : List OpenType} {methods : List (Nat × DeclaredMethod)}
    {number : Nat} {m : DeclaredMethod} (h : javaMethods source types = .ok methods)
    (hm : (number, m) ∈ methods) :
    owner? (types.map OpenType.body) source.masked m.index = some number
      ∧ ∃ head, javaMethod source head = .ok m := by
  obtain ⟨declared, hdeclared, h⟩ := except_bind_eq_ok h
  obtain rfl := Except.ok.inj h
  obtain ⟨method, hmethod, hnumbered⟩ := List.mem_filterMap.mp hm
  obtain ⟨owner, howner, hpair⟩ := Option.map_eq_some_iff.mp hnumbered
  obtain ⟨rfl, rfl⟩ := Prod.mk.inj hpair
  obtain ⟨head, -, hhead⟩ := mem_of_mapM_eq_ok hdeclared hmethod
  exact ⟨howner, head, hhead⟩

theorem mem_javaEndpoints_iff {types : List OpenType} {methods : List (Nat × DeclaredMethod)}
    (h : javaEndpoints file types methods = .ok endpoints) :
    e ∈ endpoints ↔ ∃ number m type, (number, m) ∈ methods ∧ types[number]? = some type
      ∧ javaEndpoint? file type.info m = .ok (some e) := by
  obtain ⟨found, hfound, h⟩ := except_bind_eq_ok h
  obtain rfl := Except.ok.inj h
  rw [mem_of_mapM_option_iff hfound]
  constructor
  · rintro ⟨⟨number, m⟩, hm, hread⟩
    dsimp only at hread
    split at hread
    · rename_i type htype
      exact ⟨number, m, type, hm, htype, hread⟩
    · exact nomatch hread
  · rintro ⟨number, m, type, hm, htype, hread⟩
    refine ⟨(number, m), hm, ?_⟩
    dsimp only
    rw [htype]
    exact hread

theorem mem_actionEndpoints_iff {types : List OpenType} {methods : List DeclaredMethod}
    (h : actionEndpoints source file types methods = .ok endpoints) :
    e ∈ endpoints ↔ ∃ type ∈ types, ∃ base?, controllerPrefix? type.info = .ok base?
      ∧ ∃ m ∈ methods, type.body.encloses source.masked m.index = true
        ∧ actionEndpoint? file type.info base? m = .ok (some e) := by
  have htype : ∀ {type : OpenType} {ofType : List ServiceMap.Endpoint},
      typeEndpoints source file methods type = .ok ofType →
        (e ∈ ofType ↔ ∃ base?, controllerPrefix? type.info = .ok base?
          ∧ ∃ m ∈ methods, type.body.encloses source.masked m.index = true
            ∧ actionEndpoint? file type.info base? m = .ok (some e)) := by
    intro type ofType h
    obtain ⟨base?, hbase, h⟩ := except_bind_eq_ok h
    obtain ⟨found, hfound, h⟩ := except_bind_eq_ok h
    obtain rfl := Except.ok.inj h
    rw [mem_of_mapM_option_iff hfound]
    simp only [List.mem_filter, and_assoc]
    constructor
    · exact fun hread => ⟨base?, hbase, hread⟩
    · rintro ⟨other?, hother, hread⟩
      obtain rfl := Except.ok.inj (hbase.symm.trans hother)
      exact hread
  obtain ⟨found, hfound, h⟩ := except_bind_eq_ok h
  obtain rfl := Except.ok.inj h
  rw [List.mem_flatten]
  constructor
  · rintro ⟨ofType, hofType, he⟩
    obtain ⟨type, hmem, hread⟩ := (mem_of_mapM_iff hfound).mp hofType
    exact ⟨type, hmem, (htype hread).mp he⟩
  · rintro ⟨type, hmem, he⟩
    obtain ⟨ofType, hofType, hread⟩ := exists_mem_of_mapM_eq_ok hfound hmem
    exact ⟨ofType, hofType, (htype hread).mpr he⟩

theorem mem_mappedEndpoints_iff (h : mappedEndpoints source file = .ok endpoints) :
    e ∈ endpoints ↔ ∃ m ∈ mappedRoute.findAll source.masked,
      mappedEndpoint source file (collectGroups (mappedGroup.findAll source.masked)) m = .ok e :=
  mem_of_mapM_iff h

end Endpoint

/-! ## The facts of a source -/

namespace SourceFile

variable {path : String} {source : SourceText} {facts : SourceFile}

/-- Facts of a Go source with the functions that are declared in it. -/
structure IsReadGo (file : String) (source : SourceText) (functions : List GoFunction)
    (facts : SourceFile) : Prop where
  path : facts.path = file
  language : facts.language = .go
  endpoints : goEndpoints source file = .ok facts.endpoints
  types : goTypes source = .ok facts.types
  functionsRead : goFunctions source = .ok functions
  functions : facts.functions = functions.map GoFunction.info

theorem isReadGo_of_readGo (h : readGo path source = .ok facts) :
    ∃ functions, IsReadGo path source functions facts := by
  obtain ⟨endpoints, hendpoints, h⟩ := except_bind_eq_ok h
  obtain ⟨types, htypes, h⟩ := except_bind_eq_ok h
  obtain ⟨functions, hfunctions, h⟩ := except_bind_eq_ok h
  obtain rfl := Except.ok.inj h
  exact ⟨functions, rfl, rfl, hendpoints, htypes, hfunctions, rfl⟩

/-- Facts of a Java source with its types and their methods. -/
structure IsReadJava (file : String) (source : SourceText) (types : List OpenType)
    (methods : List (Nat × DeclaredMethod)) (facts : SourceFile) : Prop where
  path : facts.path = file
  language : facts.language = .java
  typesRead : javaTypes source = .ok types
  methodsRead : javaMethods source types = .ok methods
  endpoints : javaEndpoints file types methods = .ok facts.endpoints
  functions : facts.functions = methods.map fun entry => entry.2.info
  types : facts.types = withMethods types methods

theorem isReadJava_of_readJava (h : readJava path source = .ok facts) :
    ∃ types methods, IsReadJava path source types methods facts := by
  obtain ⟨types, htypes, h⟩ := except_bind_eq_ok h
  obtain ⟨methods, hmethods, h⟩ := except_bind_eq_ok h
  obtain ⟨endpoints, hendpoints, h⟩ := except_bind_eq_ok h
  obtain rfl := Except.ok.inj h
  exact ⟨types, methods, rfl, rfl, htypes, hmethods, hendpoints, rfl, rfl⟩

/-- Facts of a C# source with its types, all methods, and the endpoints of both kinds. -/
structure IsReadCSharp (file : String) (source : SourceText) (types : List OpenType)
    (methods : List DeclaredMethod) (actions mapped : List ServiceMap.Endpoint)
    (facts : SourceFile) : Prop where
  path : facts.path = file
  language : facts.language = .csharp
  typesRead : csharpTypes source = .ok types
  methodsRead : csharpMethods source types = .ok methods
  actionsRead : actionEndpoints source file types methods = .ok actions
  mappedRead : mappedEndpoints source file = .ok mapped
  endpoints : facts.endpoints = actions ++ mapped
  functions : facts.functions
    = (ownedMethods types source.masked methods).map fun entry => entry.2.info
  types : facts.types = withMethods types (ownedMethods types source.masked methods)

theorem isReadCSharp_of_readCSharp (h : readCSharp path source = .ok facts) :
    ∃ types methods actions mapped,
      IsReadCSharp path source types methods actions mapped facts := by
  obtain ⟨types, htypes, h⟩ := except_bind_eq_ok h
  obtain ⟨methods, hmethods, h⟩ := except_bind_eq_ok h
  obtain ⟨actions, hactions, h⟩ := except_bind_eq_ok h
  obtain ⟨mapped, hmapped, h⟩ := except_bind_eq_ok h
  obtain rfl := Except.ok.inj h
  exact ⟨types, methods, actions, mapped, rfl, rfl, htypes, hmethods, hactions, hmapped, rfl, rfl,
    rfl⟩

variable {language : Language} {text : List Char}

theorem path_read (h : read language path text = .ok facts) : facts.path = path := by
  cases language with
  | go => exact (isReadGo_of_readGo h).elim fun _ hgo => hgo.path
  | java =>
      obtain ⟨types, methods, hjava⟩ := isReadJava_of_readJava h
      exact hjava.path
  | csharp =>
      obtain ⟨types, methods, actions, mapped, hcsharp⟩ := isReadCSharp_of_readCSharp h
      exact hcsharp.path

theorem language_read (h : read language path text = .ok facts) : facts.language = language := by
  cases language with
  | go => exact (isReadGo_of_readGo h).elim fun _ hgo => hgo.language
  | java =>
      obtain ⟨types, methods, hjava⟩ := isReadJava_of_readJava h
      exact hjava.language
  | csharp =>
      obtain ⟨types, methods, actions, mapped, hcsharp⟩ := isReadCSharp_of_readCSharp h
      exact hcsharp.language

end SourceFile

end ServiceMap
