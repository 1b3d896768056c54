import Mathlib.Data.List.Nodup
import Mathlib.Data.List.Pairwise
import ServiceMap.Proofs.Endpoint.Origins

/-!
# Bound parameters

The parameters of a C# endpoint are the placeholders of its path and the parameters of its handler that
an attribute binds. A bound parameter is left out if its own name is taken, but it is listed under the
name that its attribute gives it: a placeholder is listed again, or a name at one place twice, exactly
where such a given name is taken already.
-/

namespace ServiceMap

open Text Source Declaration Endpoint Pattern

/-- What is read of the things in a list is without repetition if no two of them give the same. -/
theorem nodup_filterMap_iff {α β : Type} {f : α → Option β} {xs : List α} (h : xs.Nodup) :
    (xs.filterMap f).Nodup
      ↔ ∀ a ∈ xs, ∀ b ∈ xs, ∀ c, f a = some c → f b = some c → a = b := by
  rw [List.Nodup, List.pairwise_filterMap]
  constructor
  · intro hpairs a ha b hb c hac hbc
    by_contra hne
    have hsymm : Std.Symm fun a b => ∀ c, f a = some c → ∀ d, f b = some d → c ≠ d :=
      ⟨fun _ _ hab c hc d hd => (hab d hd c hc).symm⟩
    exact hpairs.forall ha hb hne c hac c hbc rfl
  · intro hall
    refine h.pairwise_of_forall_ne fun a ha b hb hne c hac d hbd hcd => hne ?_
    exact hall a ha b hb c hac (hcd ▸ hbd)

namespace Endpoint

/-! ## Bindings -/

/-- The attribute that binds a parameter, with the location that it tells. -/
def binding? (p : DeclaredParameter) : Option (List Char × String) :=
  p.annotations.findSome? fun mark => (bindingLocations.lookup (attributeName mark)).map (mark, ·)

/-- The name that the attribute that binds a parameter gives it. -/
def givenName? (p : DeclaredParameter) : Option (List Char) :=
  (binding? p).bind fun b => (bindingName.find? b.1).map (·.group 1)

/-- The names of the placeholders of a path. -/
def placeholderNames (path : List Char) : List String :=
  (pathParameters untyped path).map Parameter.name

/-- What tells parameters of an endpoint apart. -/
def parameterKey (p : Parameter) : String × String :=
  (p.name, p.location)

/-- The name and the location that a bound parameter is listed under. -/
def boundKey? (p : DeclaredParameter) : Option (String × String) :=
  (binding? p).map fun b => (String.ofList ((givenName? p).getD p.name), b.2)

/-- Whether a parameter is not the request's body and its own name is not among those taken. -/
def isFree (known : List String) (p : DeclaredParameter) : Bool :=
  !isFromBody p && !known.contains (String.ofList p.name)

/-- A parameter of a handler that is listed at a location. -/
structure IsListed (path : List Char) (handler : List DeclaredParameter) (p : DeclaredParameter)
    (location : String) : Prop where
  mem : p ∈ handler
  free : isFree (placeholderNames path) p = true
  bound : ∃ mark, binding? p = some (mark, location)

theorem map_parameterKey_bindParameter? (p : DeclaredParameter) :
    (bindParameter? p).map parameterKey = boundKey? p := by
  have hbind : bindParameter? p = (binding? p).map _ := rfl
  rw [hbind, boundKey?, givenName?]
  cases binding? p with
  | none => rfl
  | some b => cases hname : bindingName.find? b.1 <;> simp [parameterKey, hname]

/-- One parameter is added if it is bound and free. -/
theorem addBound_cons (known : List String) (p : DeclaredParameter) (rest : List DeclaredParameter) :
    addBound known (p :: rest)
      = match bindParameter? p with
        | some parameter =>
          if isFree known p then parameter :: addBound (String.ofList p.name :: known) rest
          else addBound known rest
        | none => addBound known rest := by
  rw [addBound]
  cases bindParameter? p with
  | none => rfl
  | some parameter => cases hbody : isFromBody p <;> simp [isFree, hbody]

/-- With distinct names, the parameters that are added are those that are free at first. -/
theorem addBound_eq {known : List String} {handler : List DeclaredParameter}
    (h : (handler.map DeclaredParameter.name).Nodup) :
    addBound known handler = (handler.filter (isFree known)).filterMap bindParameter? := by
  induction handler generalizing known with
  | nil => rfl
  | cons p rest ih =>
      obtain ⟨hnew, hrest⟩ := List.nodup_cons.mp h
      -- the name of `p` is not that of a later one, so it does not matter that it is taken now
      have hfree : rest.filter (isFree (String.ofList p.name :: known))
          = rest.filter (isFree known) := by
        refine List.filter_congr fun q hq => ?_
        have hne : String.ofList q.name ≠ String.ofList p.name :=
          fun heq => hnew (String.ofList_injective heq ▸ List.mem_map_of_mem hq)
        simp [isFree, hne]
      rw [addBound_cons, List.filter_cons]
      cases hbind : bindParameter? p with
      | none => cases isFree known p <;> simp [hbind, ih hrest]
      | some parameter => cases isFree known p <;> simp [hbind, ih hrest, hfree]

/-! ## Names and locations -/

section Keys

variable {path : List Char} {handler : List DeclaredParameter} {p : DeclaredParameter}
  {location : String}

theorem isListed_iff : IsListed path handler p location
    ↔ p ∈ handler.filter (isFree (placeholderNames path))
      ∧ ∃ mark, binding? p = some (mark, location) := by
  rw [List.mem_filter]
  exact ⟨fun h => ⟨⟨h.mem, h.free⟩, h.bound⟩, fun h => ⟨h.1.1, h.1.2, h.2⟩⟩

theorem boundKey?_eq_some {name : String} : boundKey? p = some (name, location)
    ↔ (∃ mark, binding? p = some (mark, location))
      ∧ String.ofList ((givenName? p).getD p.name) = name := by
  rw [boundKey?, Option.map_eq_some_iff]
  constructor
  · rintro ⟨⟨mark, _⟩, hbinding, hkey⟩
    obtain ⟨hname, rfl⟩ := Prod.mk.inj hkey
    exact ⟨⟨mark, hbinding⟩, hname⟩
  · rintro ⟨⟨mark, hbinding⟩, hname⟩
    exact ⟨_, hbinding, by rw [hname]⟩

theorem names_pathParameters (typeOf : Option (List Char) → String) (path : List Char) :
    (pathParameters typeOf path).map Parameter.name = placeholderNames path := by
  simp [placeholderNames, pathParameters, pathParameter, Function.comp_def]

theorem keys_pathParameters (typeOf : Option (List Char) → String) (path : List Char) :
    (pathParameters typeOf path).map parameterKey = (placeholderNames path).map (·, "path") := by
  simp [placeholderNames, pathParameters, pathParameter, parameterKey, Function.comp_def]

/-- The placeholders come first, then the bound parameters that are free. -/
theorem keys_endpointParameters (h : (handler.map DeclaredParameter.name).Nodup) :
    (endpointParameters path handler).map parameterKey
      = (placeholderNames path).map (·, "path")
        ++ (handler.filter (isFree (placeholderNames path))).filterMap boundKey? := by
  rw [endpointParameters, List.map_append, keys_pathParameters, names_pathParameters, addBound_eq h,
    List.map_filterMap]
  exact congrArg (_ ++ List.filterMap · _) (funext map_parameterKey_bindParameter?)

/-- No given name is taken: neither by a placeholder, where the parameter is listed in the path, nor
by the own name of another parameter that is listed under it at the same location. -/
structure GivenNamesFree (path : List Char) (handler : List DeclaredParameter) : Prop where
  ofPath : ∀ p, IsListed path handler p "path" → ∀ name, givenName? p = some name →
    String.ofList name ∉ placeholderNames path
  ofOthers : ∀ p q location, IsListed path handler p location → IsListed path handler q location →
    givenName? q = none → givenName? p ≠ some q.name

/-- Bound parameters are told apart by name and location as long as no given name is the own name of
another one there. -/
theorem nodup_boundKeys_iff (hnames : (handler.map DeclaredParameter.name).Nodup)
    (hgiven : (handler.filterMap givenName?).Nodup) :
    ((handler.filter (isFree (placeholderNames path))).filterMap boundKey?).Nodup
      ↔ ∀ p q location, IsListed path handler p location → IsListed path handler q location →
        givenName? q = none → givenName? p ≠ some q.name := by
  have hhandler : handler.Nodup := hnames.of_map
  rw [nodup_filterMap_iff (hhandler.filter _)]
  constructor
  · intro hinjective p q location hp hq hnone hsome
    obtain ⟨hpmem, hpbound⟩ := isListed_iff.mp hp
    obtain ⟨hqmem, hqbound⟩ := isListed_iff.mp hq
    have heq : p = q := hinjective p hpmem q hqmem (String.ofList q.name, location)
      (boundKey?_eq_some.mpr ⟨hpbound, by rw [hsome]; rfl⟩)
      (boundKey?_eq_some.mpr ⟨hqbound, by rw [hnone]; rfl⟩)
    rw [heq, hnone] at hsome
    exact nomatch hsome
  · rintro hfree p hp q hq ⟨name, location⟩ hpkey hqkey
    obtain ⟨hpbound, hpname⟩ := boundKey?_eq_some.mp hpkey
    obtain ⟨hqbound, hqname⟩ := boundKey?_eq_some.mp hqkey
    have hplisted := isListed_iff.mpr ⟨hp, hpbound⟩
    have hqlisted := isListed_iff.mpr ⟨hq, hqbound⟩
    have hsame := String.ofList_injective (hpname.trans hqname.symm)
    cases hpgiven : givenName? p with
    | none =>
        cases hqgiven : givenName? q with
        | none =>
            rw [hpgiven, hqgiven] at hsame
            exact List.inj_on_of_nodup_map hnames hplisted.mem hqlisted.mem hsame
        | some b =>
            rw [hpgiven, hqgiven] at hsame
            exact absurd (hqgiven.trans (congrArg some hsame.symm))
              (hfree q p location hqlisted hplisted hpgiven)
    | some a =>
        cases hqgiven : givenName? q with
        | none =>
            rw [hpgiven, hqgiven] at hsame
            exact absurd (hpgiven.trans (congrArg some hsame))
              (hfree p q location hplisted hqlisted hqgiven)
        | some b =>
            rw [hpgiven, hqgiven] at hsame
            exact (nodup_filterMap_iff hhandler).mp hgiven p hplisted.mem q hqlisted.mem a hpgiven
              (hqgiven.trans (congrArg some hsame.symm))

/-- A bound parameter is listed as a placeholder once more exactly if its given name is one. -/
theorem disjoint_keys_iff :
    (∀ a ∈ (placeholderNames path).map (·, "path"),
        ∀ b ∈ (handler.filter (isFree (placeholderNames path))).filterMap boundKey?, a ≠ b)
      ↔ ∀ p, IsListed path handler p "path" → ∀ name, givenName? p = some name →
        String.ofList name ∉ placeholderNames path := by
  constructor
  · intro hdisjoint p hp name hname htaken
    obtain ⟨hmem, hbound⟩ := isListed_iff.mp hp
    exact hdisjoint _ (List.mem_map_of_mem htaken) _ (List.mem_filterMap.mpr ⟨p, hmem,
      boundKey?_eq_some.mpr ⟨hbound, by rw [hname]; rfl⟩⟩) rfl
  · rintro hfree a ha b hb rfl
    obtain ⟨name, htaken, rfl⟩ := List.mem_map.mp ha
    obtain ⟨p, hmem, hkey⟩ := List.mem_filterMap.mp hb
    obtain ⟨hbound, hname⟩ := boundKey?_eq_some.mp hkey
    have hlisted := isListed_iff.mpr ⟨hmem, hbound⟩
    cases hgiven : givenName? p with
    | some given =>
        rw [hgiven] at hname
        exact hfree p hlisted given hgiven (hname.symm ▸ htaken)
    | none =>
        -- its own name would be that of a placeholder, and it would not be free
        rw [hgiven] at hname
        have hown := hlisted.free
        rw [isFree, Bool.and_eq_true_iff, Bool.not_eq_true', Bool.not_eq_true'] at hown
        exact absurd (List.contains_iff_mem.mpr (hname.symm ▸ htaken))
          (Bool.eq_false_iff.mp hown.2)

/-- With distinct placeholders, own names and given names, the parameters of an endpoint are told
apart by name and location exactly if no given name is taken. -/
theorem nodup_keys_iff (hpath : (placeholderNames path).Nodup)
    (hnames : (handler.map DeclaredParameter.name).Nodup)
    (hgiven : (handler.filterMap givenName?).Nodup) :
    ((endpointParameters path handler).map parameterKey).Nodup ↔ GivenNamesFree path handler := by
  have hplaceholders : ((placeholderNames path).map (·, "path")).Nodup :=
    hpath.map fun _ _ heq => (Prod.mk.inj heq).1
  rw [keys_endpointParameters hnames, List.nodup_append, nodup_boundKeys_iff hnames hgiven,
    disjoint_keys_iff]
  exact ⟨fun h => ⟨h.2.2, h.2.1⟩, fun h => ⟨hplaceholders, h.ofOthers, h.ofPath⟩⟩

end Keys

/-! ## Handlers -/

/-- The parameters that the handler of an endpoint declares: those of the method that is mapped to the
route, or those of the function in the call that maps it. -/
inductive IsHandledBy (source : SourceText) (file : String) (e : ServiceMap.Endpoint) :
    List DeclaredParameter → Prop where
  | action {types : List OpenType} {methods : List DeclaredMethod} {type : OpenType}
      {base? : Option (List Char)} {m : DeclaredMethod} (htypes : csharpTypes source = .ok types)
      (hmethods : csharpMethods source types = .ok methods) (htype : type ∈ types)
      (hm : m ∈ methods) (h : actionEndpoint? file type.info base? m = .ok (some e)) :
      IsHandledBy source file e m.parameters
  | mapped {m : Match} {arguments : List Char} {parameters : List DeclaredParameter}
      (hm : m ∈ mappedRoute.findAll source.masked)
      (h : mappedEndpoint source file (collectGroups (mappedGroup.findAll source.masked)) m = .ok e)
      (harguments : mappedArguments source m = .ok arguments)
      (hparameters : handlerParameters arguments = .ok parameters) :
      IsHandledBy source file e parameters

section Handlers

variable {source : SourceText} {file : String} {e : ServiceMap.Endpoint}

theorem parameters_of_handler {handler : List DeclaredParameter}
    (h : IsHandledBy source file e handler) :
    e.parameters = endpointParameters e.path.toList handler := by
  cases h with
  | action _ _ _ _ h => exact (isActionEndpoint_of_actionEndpoint? h).parameters
  | mapped _ h hcall hhandler =>
      obtain ⟨arguments, parameters, hmapped⟩ := isMappedEndpoint_of_mappedEndpoint h
      obtain rfl := Except.ok.inj (hcall.symm.trans hmapped.call)
      obtain rfl := Except.ok.inj (hhandler.symm.trans hmapped.handler)
      exact hmapped.listed

theorem exists_handler {facts : SourceFile} (h : SourceFile.readCSharp file source = .ok facts)
    (he : e ∈ facts.endpoints) : ∃ handler, IsHandledBy source file e handler := by
  obtain ⟨types, methods, actions, mapped, hfacts⟩ := SourceFile.isReadCSharp_of_readCSharp h
  rw [hfacts.endpoints] at he
  rcases List.mem_append.mp he with he | he
  · obtain ⟨type, htype, base?, -, m, hm, -, hread⟩ :=
      (mem_actionEndpoints_iff hfacts.actionsRead).mp he
    exact ⟨_, .action hfacts.typesRead hfacts.methodsRead htype hm hread⟩
  · obtain ⟨m, hm, hread⟩ := (mem_mappedEndpoints_iff hfacts.mappedRead).mp he
    obtain ⟨arguments, parameters, hcall⟩ := isMappedEndpoint_of_mappedEndpoint hread
    exact ⟨_, .mapped hm hread hcall.call hcall.handler⟩

end Handlers

end Endpoint

/-- **Parameters are listed once.** Whatever the C# text, an endpoint that is read of it has a handler.
Where the placeholders of its path have distinct names, and the parameters of the handler distinct own
and distinct given names, each placeholder is listed exactly once and no name is listed twice at one
location, exactly if no given name is that of a placeholder or of another parameter there. -/
theorem parameters_are_listed_once_unless_given_taken_names {file : String} {text : List Char}
    {facts : SourceFile} (h : SourceFile.read .csharp file text = .ok facts) :
    ∀ e ∈ facts.endpoints,
      (∃ handler, IsHandledBy (SourceText.ofText none text) file e handler)
      ∧ ∀ handler, IsHandledBy (SourceText.ofText none text) file e handler →
        (placeholderNames e.path.toList).Nodup →
        (handler.map DeclaredParameter.name).Nodup →
        (handler.filterMap givenName?).Nodup →
        (((∀ name ∈ placeholderNames e.path.toList,
              (e.parameters.map parameterKey).count (name, "path") = 1)
            ∧ (e.parameters.map parameterKey).Nodup)
          ↔ GivenNamesFree e.path.toList handler) := by
  intro e he
  refine ⟨exists_handler h he, fun handler hhandler hpath hnames hgiven => ?_⟩
  rw [parameters_of_handler hhandler, ← nodup_keys_iff hpath hnames hgiven]
  refine ⟨And.right, fun hnodup => ⟨fun name hname => ?_, hnodup⟩⟩
  refine List.count_eq_one_of_mem hnodup ?_
  rw [keys_endpointParameters hnames]
  exact List.mem_append_left _ (List.mem_map_of_mem hname)

/-! ## Actions with given names -/

/-- Whether a text has an action at this path that is listed with these names and locations, whose
placeholders, own names and given names are distinct. -/
def listsAction (file : String) (text : List Char) (path : String)
    (keys : List (String × String)) : Bool :=
  let source := SourceText.ofText none text
  match SourceFile.read .csharp file text, csharpTypes source with
  | .ok facts, .ok types =>
    match csharpMethods source types with
    | .ok methods => types.any fun type => methods.any fun m =>
      match controllerPrefix? type.info with
      | .ok base? =>
        match actionEndpoint? file type.info base? m with
        | .ok (some e) => decide (e ∈ facts.endpoints ∧ e.path = path
            ∧ e.parameters.map parameterKey = keys
            ∧ (placeholderNames e.path.toList).Nodup
            ∧ (m.parameters.map DeclaredParameter.name).Nodup
            ∧ (m.parameters.filterMap givenName?).Nodup)
        | _ => false
      | .error _ => false
    | .error _ => false
  | _, _ => false

theorem exists_of_listsAction {file : String} {text : List Char} {path : String}
    {keys : List (String × String)} (h : listsAction file text path keys = true) :
    ∃ facts e handler, SourceFile.read .csharp file text = .ok facts ∧ e ∈ facts.endpoints
      ∧ IsHandledBy (SourceText.ofText none text) file e handler
      ∧ e.path = path ∧ e.parameters.map parameterKey = keys
      ∧ (placeholderNames e.path.toList).Nodup ∧ (handler.map DeclaredParameter.name).Nodup
      ∧ (handler.filterMap givenName?).Nodup := by
  rw [listsAction] at h
  split at h
  · rename_i facts types hread htypes
    split at h
    · rename_i methods hmethods
      obtain ⟨type, htype, h⟩ := List.any_eq_true.mp h
      obtain ⟨m, hm, h⟩ := List.any_eq_true.mp h
      split at h
      · split at h
        · rename_i e hendpoint
          obtain ⟨he, hlisted⟩ := of_decide_eq_true h
          exact ⟨facts, e, _, hread, he, .action htypes hmethods htype hm hendpoint, hlisted⟩
        · exact nomatch h
      · exact nomatch h
    · exact nomatch h
  · exact nomatch h

/-- An action with a name given to the parameter of a query, which is the own name of a header's. -/
def controllerWithGivenName : List Char :=
  ("class ItemsController\n\x7b\n    [HttpGet(\"\x7bid\x7d\")]\n    public Item Get([FromRoute] int id, "
    ++ "[FromQuery(Name = \"q\")] string query, [FromHeader] string q) \x7b \x7d\n\x7d\n").toList

theorem parameters_of_controllerWithGivenName :
    ∃ facts e handler, SourceFile.read .csharp "Items.cs" controllerWithGivenName = .ok facts
      ∧ e ∈ facts.endpoints
      ∧ IsHandledBy (SourceText.ofText none controllerWithGivenName) "Items.cs" e handler
      ∧ (placeholderNames e.path.toList).Nodup ∧ (handler.map DeclaredParameter.name).Nodup
      ∧ (handler.filterMap givenName?).Nodup
      ∧ e.parameters.map parameterKey = [("id", "path"), ("q", "query"), ("q", "header")]
      ∧ GivenNamesFree e.path.toList handler := by
  have hlists : listsAction "Items.cs" controllerWithGivenName "/items/\x7bid\x7d"
      [("id", "path"), ("q", "query"), ("q", "header")] = true := by decide +kernel
  obtain ⟨facts, e, handler, hread, he, hhandler, hpath, hkeys, hplaceholders, hnames, hgiven⟩ :=
    exists_of_listsAction hlists
  have honce := (parameters_are_listed_once_unless_given_taken_names hread e he).2 handler hhandler
    hplaceholders hnames hgiven
  refine ⟨facts, e, handler, hread, he, hhandler, hplaceholders, hnames, hgiven, hkeys, ?_⟩
  refine honce.mp ⟨?_, ?_⟩
  · rw [hpath, hkeys]
    decide +kernel
  · rw [hkeys]
    decide

/-- An action that takes the placeholder under another name. -/
def controllerWithRenamedPlaceholder : List Char :=
  ("class ItemsController\n\x7b\n    [HttpGet(\"\x7bid\x7d\")]\n"
    ++ "    public Item Get([FromRoute(Name = \"id\")] int key) \x7b \x7d\n\x7d\n").toList

/-- The placeholder is listed twice. -/
theorem renamed_placeholder_is_listed_twice :
    ∃ facts e handler, SourceFile.read .csharp "Items.cs" controllerWithRenamedPlaceholder = .ok facts
      ∧ e ∈ facts.endpoints
      ∧ IsHandledBy (SourceText.ofText none controllerWithRenamedPlaceholder) "Items.cs" e handler
      ∧ (placeholderNames e.path.toList).Nodup ∧ (handler.map DeclaredParameter.name).Nodup
      ∧ (handler.filterMap givenName?).Nodup
      ∧ "id" ∈ placeholderNames e.path.toList
      ∧ (e.parameters.map parameterKey).count ("id", "path") = 2
      ∧ ¬ (e.parameters.map parameterKey).Nodup := by
  have hlists : listsAction "Items.cs" controllerWithRenamedPlaceholder "/items/\x7bid\x7d"
      [("id", "path"), ("id", "path")] = true := by decide +kernel
  obtain ⟨facts, e, handler, hread, he, hhandler, hpath, hkeys, hplaceholders, hnames, hgiven⟩ :=
    exists_of_listsAction hlists
  refine ⟨facts, e, handler, hread, he, hhandler, hplaceholders, hnames, hgiven, ?_, ?_, ?_⟩
  · rw [hpath]
    decide +kernel
  · rw [hkeys]
    decide
  · rw [hkeys]
    decide

end ServiceMap
