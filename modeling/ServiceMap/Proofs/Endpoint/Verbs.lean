import ServiceMap.Proofs.Endpoint.JoinedPaths
import ServiceMap.Proofs.Endpoint.Origins
import ServiceMap.Proofs.Endpoint.Owner
import ServiceMap.Proofs.Text.Lookup

/-!
# Verbs and paths of endpoints

An endpoint has one of five verbs and a path that starts with a slash, but for two ways to form one: a
route of the standard library keeps the path as it is written, and a mapping annotation without a verb
of its own takes any word that follows in its arguments.
-/

namespace ServiceMap

open Text Source Declaration Endpoint Pattern

namespace Endpoint

/-- A path that starts with a slash. -/
def IsRooted (path : String) : Prop :=
  path.toList.head? = some '/'

instance (path : String) : Decidable (IsRooted path) :=
  inferInstanceAs (Decidable (path.toList.head? = some '/'))

theorem isRooted_joinPaths (base path : List Char) :
    IsRooted (String.ofList (joinPaths base path)) := by
  rw [IsRooted, String.toList_ofList]
  exact head_joinPaths base path

/-! ## Verbs by annotation -/

/-- Whether an annotation maps a method to a route. -/
def isMapping (mark : String) : Bool :=
  (springMappings.lookup (markName mark)).isSome

/-- The first mapping annotation is one without a verb of its own, and its arguments ask for a verb
that is none of the five. -/
def AsksForOtherVerb (marks : List String) : Prop :=
  ∃ mark arguments m, marks.find? isMapping = some mark ∧ markName mark = "RequestMapping"
    ∧ markArguments mark = .ok arguments ∧ requestMethod.find? arguments = some m
    ∧ String.ofList (upper (m.group 1)) ∉ verbs

/-- The first thing with a value comes with the value. -/
theorem findSome?_pair {α β : Type} (f : α → Option β) (xs : List α) :
    xs.findSome? (fun x => (f x).map (x, ·))
      = (xs.find? fun x => (f x).isSome).bind fun x => (f x).map (x, ·) := by
  induction xs with
  | nil => rfl
  | cons x xs ih =>
      rw [List.findSome?_cons, List.find?_cons]
      cases hx : f x with
      | none => exact ih
      | some y => simp [hx]

/-- The verb of a mapping annotation: its own, or else the word that its arguments ask for. -/
def mappingVerb (own? : Option String) (arguments : List Char) : String :=
  match own? with
  | some verb => verb
  | none => match requestMethod.find? arguments with
    | some m => String.ofList (upper (m.group 1))
    | none => "GET"

/-- The first mapping annotation decides. -/
theorem springRoute?_cases {marks : List String} {route? : Option (String × List Char)}
    (h : springRoute? marks = .ok route?) :
    (marks.find? isMapping = none ∧ route? = none)
      ∨ ∃ mark own? arguments, marks.find? isMapping = some mark
        ∧ springMappings.lookup (markName mark) = some own? ∧ markArguments mark = .ok arguments
        ∧ route? = some (mappingVerb own? arguments, mappingPath arguments) := by
  have hmapping : isMapping = fun mark => (springMappings.lookup (markName mark)).isSome := rfl
  rw [springRoute?, findSome?_pair, ← hmapping] at h
  cases hfind : marks.find? isMapping with
  | none =>
      rw [hfind] at h
      exact Or.inl ⟨rfl, (Except.ok.inj h).symm⟩
  | some mark =>
      obtain ⟨own?, hown⟩ := Option.isSome_iff_exists.mp (List.find?_some (p := isMapping) hfind)
      rw [hfind, Option.bind_some, hown] at h
      obtain ⟨arguments, harguments, h⟩ := except_bind_eq_ok h
      exact Or.inr ⟨mark, own?, arguments, rfl, hown, harguments, (Except.ok.inj h).symm⟩

variable {marks : List String} {verb : String} {path : List Char}

/-- The mapping annotation that has no verb of its own. -/
theorem lookup_springMappings {name : String} {verb? : Option String}
    (h : springMappings.lookup name = some verb?) :
    (verb? = none ∧ name = "RequestMapping") ∨ ∃ verb ∈ verbs, verb? = some verb := by
  have hall : ∀ entry ∈ springMappings,
      (entry.2 = none ∧ entry.1 = "RequestMapping") ∨ ∃ verb ∈ verbs, entry.2 = some verb := by
    decide
  exact hall _ (mem_of_lookup h)

/-- The verb that a mapping annotation gives is one of the five unless it asks for another. -/
theorem verb_of_springRoute?
    (h : springRoute? marks = .ok (some (verb, path))) :
    verb ∈ verbs ↔ ¬AsksForOtherVerb marks := by
  rcases springRoute?_cases h with ⟨-, hnone⟩ | ⟨mark, own?, arguments, hmark, hown, harguments, h⟩
  · exact nomatch hnone
  · obtain ⟨rfl, -⟩ := Prod.mk.inj (Option.some.inj h)
    rcases lookup_springMappings hown with ⟨rfl, hname⟩ | ⟨verb, hverb, rfl⟩
    · cases hasked : requestMethod.find? arguments with
      | none =>
          have hget : mappingVerb none arguments = "GET" := by rw [mappingVerb, hasked]
          rw [hget]
          refine ⟨fun _ => ?_, fun _ => by decide⟩
          rintro ⟨mark', arguments', m, hmark', -, harguments', hfound, -⟩
          obtain rfl := Option.some.inj (hmark.symm.trans hmark')
          obtain rfl := Except.ok.inj (harguments.symm.trans harguments')
          exact nomatch hasked.symm.trans hfound
      | some m =>
          have hword : mappingVerb none arguments = String.ofList (upper (m.group 1)) := by
            rw [mappingVerb, hasked]
          rw [hword]
          constructor
          · rintro hverb ⟨mark', arguments', m', hmark', -, harguments', hfound, hother⟩
            obtain rfl := Option.some.inj (hmark.symm.trans hmark')
            obtain rfl := Except.ok.inj (harguments.symm.trans harguments')
            obtain rfl := Option.some.inj (hasked.symm.trans hfound)
            exact hother hverb
          · exact fun hasks => by_contra fun hother =>
              hasks ⟨mark, arguments, m, hmark, hname, harguments, hasked, hother⟩
    · refine ⟨fun _ => ?_, fun _ => hverb⟩
      rintro ⟨mark', arguments', m, hmark', hname, -⟩
      obtain rfl := Option.some.inj (hmark.symm.trans hmark')
      rw [hname] at hown
      exact nomatch hown

/-- A method without a route in this vocabulary asks for no verb. -/
theorem not_asksForOtherVerb (h : springRoute? marks = .ok none) : ¬AsksForOtherVerb marks := by
  rcases springRoute?_cases h with ⟨hnone, -⟩ | ⟨mark, own?, arguments, -, -, -, hsome⟩
  · rintro ⟨mark, arguments, m, hmark, -⟩
    exact nomatch hnone.symm.trans hmark
  · exact nomatch hsome

theorem verb_of_jaxrsRoute?
    (h : jaxrsRoute? marks = .ok (some (verb, path))) : verb ∈ verbs := by
  rw [jaxrsRoute?] at h
  split at h
  · exact nomatch h
  · rename_i found hfound
    obtain ⟨text, -, h⟩ := except_bind_eq_ok h
    obtain ⟨rfl, -⟩ := Prod.mk.inj (Option.some.inj (Except.ok.inj h))
    exact List.contains_iff_mem.mp (List.find?_some (p := verbs.contains) hfound)

section Java

variable {file : String} {owner : TypeDecl} {m : DeclaredMethod} {e : ServiceMap.Endpoint}

theorem verb_of_javaRoute? {vocabulary : String} {base : List Char}
    (h : javaRoute? owner m = .ok (some (vocabulary, verb, base, path))) :
    verb ∈ verbs ↔ ¬AsksForOtherVerb m.info.annotations := by
  obtain ⟨spring?, hspring, h⟩ := except_bind_eq_ok h
  cases spring? with
  | some route =>
      obtain ⟨text, -, h⟩ := except_bind_eq_ok h
      obtain ⟨-, hroute⟩ := Prod.mk.inj (Option.some.inj (Except.ok.inj h))
      obtain ⟨rfl, -⟩ := Prod.mk.inj hroute
      exact verb_of_springRoute? hspring
  | none =>
      obtain ⟨jaxrs?, hjaxrs, h⟩ := except_bind_eq_ok h
      cases jaxrs? with
      | none => exact nomatch h
      | some route =>
          obtain ⟨text, -, h⟩ := except_bind_eq_ok h
          obtain ⟨-, hroute⟩ := Prod.mk.inj (Option.some.inj (Except.ok.inj h))
          obtain ⟨rfl, -⟩ := Prod.mk.inj hroute
          exact ⟨fun _ => not_asksForOtherVerb hspring, fun _ => verb_of_jaxrsRoute? hjaxrs⟩

/-- A method that asks for another verb is mapped to a route all the same. -/
theorem javaRoute?_ne_none (h : AsksForOtherVerb m.info.annotations) :
    javaRoute? owner m ≠ .ok none := by
  intro hroute
  obtain ⟨spring?, hspring, hroute⟩ := except_bind_eq_ok hroute
  cases spring? with
  | some route =>
      obtain ⟨base, -, hroute⟩ := except_bind_eq_ok hroute
      exact nomatch hroute
  | none => exact not_asksForOtherVerb hspring h

theorem method_of_javaEndpoint? (h : javaEndpoint? file owner m = .ok (some e)) :
    (e.method ∈ verbs ↔ ¬AsksForOtherVerb m.info.annotations) ∧ IsRooted e.path := by
  obtain ⟨vocabulary, base, path, hroute, hpath, -⟩ := (isJavaEndpoint_of_javaEndpoint? h).route
  rw [hpath]
  exact ⟨verb_of_javaRoute? hroute, isRooted_joinPaths base path⟩

theorem javaEndpoint?_ne_none (h : AsksForOtherVerb m.info.annotations) :
    javaEndpoint? file owner m ≠ .ok none := by
  intro hnone
  obtain ⟨route?, hroute, hnone⟩ := except_bind_eq_ok hnone
  cases route? with
  | none => exact javaRoute?_ne_none h hroute
  | some route =>
      obtain ⟨parameters, -, hnone⟩ := except_bind_eq_ok hnone
      exact nomatch hnone

end Java

/-! ## Verbs of actions -/

/-- The verb that attributes give, if they give one, is one of the five. -/
theorem verb_of_add {r given : RouteAttributes} {mark : List Char}
    (hr : ∀ verb ∈ r.verb, verb ∈ verbs) (h : r.add mark = .ok given) :
    ∀ verb ∈ given.verb, verb ∈ verbs := by
  have hattributes : ∀ entry ∈ verbAttributes, entry.2 ∈ verbs := by decide
  rw [RouteAttributes.add] at h
  split at h
  · rename_i verb hverb _
    obtain ⟨text?, -, h⟩ := except_bind_eq_ok h
    obtain rfl := Except.ok.inj h
    intro found hfound
    obtain rfl := Option.some.inj hfound
    exact hattributes _ (mem_of_lookup hverb)
  · split at h
    · obtain ⟨text?, -, h⟩ := except_bind_eq_ok h
      obtain rfl := Except.ok.inj h
      exact hr
    · obtain rfl := Except.ok.inj h
      exact hr

theorem verb_of_routeAttributes {marks : List (List Char)} {given : RouteAttributes}
    (h : routeAttributes marks = .ok given) : ∀ verb ∈ given.verb, verb ∈ verbs :=
  foldlM_invariant (P := fun r => ∀ verb ∈ r.verb, verb ∈ verbs) verb_of_add
    (fun _ h => absurd h (Option.not_mem_none _)) h

theorem conventionalVerb_mem (name : List Char) : conventionalVerb name ∈ verbs := by
  have hnames : ∀ entry ∈ verbNames, entry.2 ∈ verbs := by decide
  rw [conventionalVerb]
  split
  · rename_i entry hentry
    exact hnames entry (List.mem_of_find?_eq_some hentry)
  · decide

section CSharp

variable {file : String} {source : SourceText} {e : ServiceMap.Endpoint}

theorem route_of_actionRoute? {owner : TypeDecl} {base? : Option (List Char)} {m : DeclaredMethod}
    (h : actionRoute? owner base? m = .ok (some (verb, path))) :
    verb ∈ verbs ∧ ∃ base rest, path = joinPaths base rest := by
  -- whatever the rest of the path is, it is joined to some base
  have hjoined : ∀ rest : List Char, ∃ base last,
      (if ['/'].isPrefixOf rest || ['~', '/'].isPrefixOf rest then
        joinPaths [] (dropLeft (· == '~') rest)
      else joinPaths (base?.getD ('/' :: controllerName owner.name)) rest) = joinPaths base last := by
    intro rest
    split
    · exact ⟨_, _, rfl⟩
    · exact ⟨_, _, rfl⟩
  obtain ⟨given, hgiven, h⟩ := except_bind_eq_ok h
  dsimp only at h
  split at h
  · rename_i own hown
    split at h
    · exact nomatch h
    · obtain ⟨rfl, rfl⟩ := Prod.mk.inj (Option.some.inj (Except.ok.inj h))
      exact ⟨verb_of_routeAttributes hgiven _ hown, hjoined _⟩
  · split at h
    · exact nomatch h
    · obtain ⟨rfl, rfl⟩ := Prod.mk.inj (Option.some.inj (Except.ok.inj h))
      exact ⟨conventionalVerb_mem _, hjoined _⟩

theorem method_of_actionEndpoint? {owner : TypeDecl} {base? : Option (List Char)}
    {m : DeclaredMethod} (h : actionEndpoint? file owner base? m = .ok (some e)) :
    e.method ∈ verbs ∧ IsRooted e.path := by
  obtain ⟨hverb, base, rest, hpath⟩ :=
    route_of_actionRoute? (isActionEndpoint_of_actionEndpoint? h).route
  have hwhole : e.path = String.ofList (joinPaths base rest) := by
    rw [← hpath, String.ofList_toList]
  exact ⟨hverb, hwhole ▸ isRooted_joinPaths base rest⟩

/-- The name of a call that maps a route is that of a verb. -/
theorem verb_of_mappedRoute {masked : List Char} {m : Match} (hm : m ∈ mappedRoute.findAll masked) :
    String.ofList (upper (m.group 2)) ∈ verbs := by
  have hnames : ∀ name ∈ ["Get", "Post", "Put", "Delete", "Patch"],
      String.ofList (upper name.toList) ∈ verbs := by decide
  obtain ⟨done, more, rfl, hmatch⟩ := split_of_mem_allFrom masked hm
  obtain ⟨s, t, u, rest, -, -, hname, -, hgroup, -⟩ :=
    captured_of_matchHere? (blanks ++ (lit "(" ++ (blanks ++ quoted 3))) (by decide) hmatch
  obtain ⟨name, hmem, rfl⟩ := takes_oneOf.mp hname
  rw [hgroup]
  exact hnames name hmem

theorem method_of_mappedEndpoint {groups : Groups} {m : Match}
    (hm : m ∈ mappedRoute.findAll source.masked)
    (h : mappedEndpoint source file groups m = .ok e) : e.method ∈ verbs ∧ IsRooted e.path := by
  obtain ⟨arguments, parameters, hmapped⟩ := isMappedEndpoint_of_mappedEndpoint h
  rw [hmapped.method, hmapped.path]
  exact ⟨verb_of_mappedRoute hm, isRooted_joinPaths _ _⟩

end CSharp

end Endpoint

/-! ## Endpoints of a source -/

namespace SourceFile

variable {path : String} {source : SourceText} {facts : SourceFile} {e : ServiceMap.Endpoint}

/-- Whether an endpoint has one of the five verbs and a path that starts with a slash. -/
def IsRegular (e : ServiceMap.Endpoint) : Prop :=
  e.method ∈ verbs ∧ IsRooted e.path

theorem verb_of_readGo (h : readGo path source = .ok facts) (he : e ∈ facts.endpoints) :
    e.method ∈ verbs := by
  obtain ⟨functions, hfacts⟩ := isReadGo_of_readGo h
  rcases (mem_goEndpoints_iff hfacts.endpoints).mp he with ⟨m, -, hverb, hread⟩ | ⟨m, -, hread⟩
  · exact (isGoEndpoint_of_goEndpoint hread).method ▸ hverb
  · rw [(isGoEndpoint_of_goEndpoint hread).method]
    decide

/-- Only a route of the standard library keeps a path without a slash. -/
theorem regular_readGo_iff (h : readGo path source = .ok facts) :
    (∀ e ∈ facts.endpoints, IsRegular e)
      ↔ ∀ m ∈ goHandleFunc.findAll source.masked, (m.group 1).head? = some '/' := by
  obtain ⟨functions, hfacts⟩ := isReadGo_of_readGo h
  have hendpoints := hfacts.endpoints
  constructor
  · intro hall m hm
    obtain ⟨routes, -, hrest⟩ := except_bind_eq_ok hendpoints
    obtain ⟨plain, hplain, -⟩ := except_bind_eq_ok hrest
    obtain ⟨e, -, hread⟩ := exists_mem_of_mapM_eq_ok hplain hm
    have he := hall e ((mem_goEndpoints_iff hendpoints).mpr (Or.inr ⟨m, hm, hread⟩))
    have hrooted := he.2
    rwa [(isGoEndpoint_of_goEndpoint hread).path, IsRooted, String.toList_ofList] at hrooted
  · intro hpaths e he
    refine ⟨verb_of_readGo h he, ?_⟩
    rcases (mem_goEndpoints_iff hendpoints).mp he with ⟨m, -, -, hread⟩ | ⟨m, hm, hread⟩
    · rw [(isGoEndpoint_of_goEndpoint hread).path]
      exact isRooted_joinPaths _ _
    · rw [(isGoEndpoint_of_goEndpoint hread).path, IsRooted, String.toList_ofList]
      exact hpaths m hm

theorem regular_readCSharp (h : readCSharp path source = .ok facts) (he : e ∈ facts.endpoints) :
    IsRegular e := by
  obtain ⟨types, methods, actions, mapped, hfacts⟩ := isReadCSharp_of_readCSharp h
  rw [hfacts.endpoints] at he
  rcases List.mem_append.mp he with he | he
  · obtain ⟨type, -, base?, -, m, -, -, hread⟩ :=
      (mem_actionEndpoints_iff hfacts.actionsRead).mp he
    exact method_of_actionEndpoint? hread
  · obtain ⟨m, hm, hread⟩ := (mem_mappedEndpoints_iff hfacts.mappedRead).mp he
    exact method_of_mappedEndpoint hm hread

theorem rooted_of_readJava (h : readJava path source = .ok facts) (he : e ∈ facts.endpoints) :
    IsRooted e.path := by
  obtain ⟨types, methods, hfacts⟩ := isReadJava_of_readJava h
  obtain ⟨number, m, type, -, -, hread⟩ := (mem_javaEndpoints_iff hfacts.endpoints).mp he
  exact (method_of_javaEndpoint? hread).2

/-- Only a method that asks for another verb has one. -/
theorem regular_readJava_iff (h : readJava path source = .ok facts) :
    (∀ e ∈ facts.endpoints, IsRegular e)
      ↔ ∀ f ∈ facts.functions, ¬AsksForOtherVerb f.annotations := by
  obtain ⟨types, methods, hfacts⟩ := isReadJava_of_readJava h
  have hendpoints := hfacts.endpoints
  rw [hfacts.functions]
  constructor
  · intro hall f hf hasks
    obtain ⟨⟨number, m⟩, hm, rfl⟩ := List.mem_map.mp hf
    -- the method belongs to a type, so it is asked for its endpoint
    obtain ⟨howner, -⟩ := owner_of_mem_javaMethods hfacts.methodsRead hm
    obtain ⟨type, htype, -⟩ := exists_type_of_owner? howner
    obtain ⟨endpoints, hread, -⟩ := except_bind_eq_ok hendpoints
    obtain ⟨e?, -, he⟩ := exists_mem_of_mapM_eq_ok hread hm
    dsimp only at he
    rw [htype] at he
    cases e? with
    | none => exact javaEndpoint?_ne_none hasks he
    | some e =>
        have hregular := hall e ((mem_javaEndpoints_iff hendpoints).mpr
          ⟨number, m, type, hm, htype, he⟩)
        exact (method_of_javaEndpoint? he).1.mp hregular.1 hasks
  · intro hnone e he
    refine ⟨?_, rooted_of_readJava h he⟩
    obtain ⟨number, m, type, hm, -, hread⟩ := (mem_javaEndpoints_iff hendpoints).mp he
    exact (method_of_javaEndpoint? hread).1.mpr (hnone _ (List.mem_map_of_mem hm))

/-- What a source does without if its endpoints are regular: in Go, routes of the standard library
whose path starts with no slash; in Java, methods that ask for another verb. -/
def HasRegularRoutes (language : Language) (text : List Char) (facts : SourceFile) : Prop :=
  match language with
  | .go => ∀ m ∈ goHandleFunc.findAll (maskComments language.rawQuote text),
      (m.group 1).head? = some '/'
  | .java => ∀ f ∈ facts.functions, ¬AsksForOtherVerb f.annotations
  | .csharp => True

end SourceFile

/-- **Verbs and paths.** Whatever the text, only in Java can an endpoint have another verb than the
five, and only in Go a path that starts with no slash. All endpoints have one of the five verbs and a
path that starts with a slash exactly if no method asks for another verb and no route of the standard
library has a path without a slash. -/
theorem endpoints_have_verbs_and_rooted_paths {language : Language} {path : String}
    {text : List Char} {facts : SourceFile} (h : SourceFile.read language path text = .ok facts) :
    (language ≠ .java → ∀ e ∈ facts.endpoints, e.method ∈ verbs)
      ∧ (language ≠ .go → ∀ e ∈ facts.endpoints, e.path.toList.head? = some '/')
      ∧ ((∀ e ∈ facts.endpoints, e.method ∈ verbs ∧ e.path.toList.head? = some '/')
        ↔ SourceFile.HasRegularRoutes language text facts) := by
  cases language with
  | go =>
      exact ⟨fun _ e he => SourceFile.verb_of_readGo h he, fun hgo => absurd rfl hgo,
        SourceFile.regular_readGo_iff h⟩
  | java =>
      exact ⟨fun hjava => absurd rfl hjava, fun _ e he => SourceFile.rooted_of_readJava h he,
        SourceFile.regular_readJava_iff h⟩
  | csharp =>
      have hall : ∀ e ∈ facts.endpoints, e.method ∈ verbs ∧ e.path.toList.head? = some '/' :=
        fun e he => SourceFile.regular_readCSharp h he
      exact ⟨fun _ e he => (hall e he).1, fun _ e he => (hall e he).2,
        fun _ => trivial, fun _ => hall⟩

/-- A method whose mapping annotation asks for one of the five verbs. -/
def patchingMethod : List Char :=
  ("class Items \x7b\n    @RequestMapping(value = \"items\", method = RequestMethod.patch)\n"
    ++ "    public Item get() \x7b \x7d\n\x7d\n").toList

theorem patchingMethod_is_regular :
    ∃ facts, SourceFile.read .java "Items.java" patchingMethod = .ok facts
      ∧ facts.endpoints.map (fun e => (e.method, e.path)) = [("PATCH", "/items")]
      ∧ SourceFile.HasRegularRoutes .java patchingMethod facts := by
  have hread : (match SourceFile.read .java "Items.java" patchingMethod with
      | .ok facts => decide (facts.endpoints.map (fun e => (e.method, e.path)) = [("PATCH", "/items")])
      | .error _ => false) = true := by decide +kernel
  split at hread
  · rename_i facts hfacts
    have hroutes := of_decide_eq_true hread
    refine ⟨facts, hfacts, hroutes, (endpoints_have_verbs_and_rooted_paths hfacts).2.2.mp ?_⟩
    intro e he
    have hroute : (e.method, e.path) ∈ [("PATCH", "/items")] :=
      hroutes ▸ List.mem_map_of_mem (f := fun e : ServiceMap.Endpoint => (e.method, e.path)) he
    obtain ⟨hmethod, hpath⟩ := Prod.mk.inj (List.mem_singleton.mp hroute)
    rw [hmethod, hpath]
    decide
  · exact nomatch hread

/-- A method whose mapping annotation asks for a verb that is none of the five. -/
def optionsMethod : List Char :=
  ("class Items \x7b\n    @RequestMapping(value = \"/a\", method = RequestMethod.OPTIONS)\n"
    ++ "    public Item get() \x7b \x7d\n\x7d\n").toList

/-- A route of the standard library whose path starts with no slash. -/
def unrootedRoute : List Char :=
  "package p\n\nfunc main() \x7b\n\thttp.HandleFunc(\"users\", list)\n\x7d\n".toList

/-- Both are reported as they are written. -/
theorem other_verbs_and_unrooted_paths_are_reported :
    (∃ facts, SourceFile.read .java "Items.java" optionsMethod = .ok facts
        ∧ ∃ e ∈ facts.endpoints, e.method = "OPTIONS" ∧ e.method ∉ verbs)
      ∧ ∃ facts, SourceFile.read .go "a.go" unrootedRoute = .ok facts
        ∧ ∃ e ∈ facts.endpoints, e.path = "users" ∧ e.path.toList.head? ≠ some '/' := by
  have hjava : (match SourceFile.read .java "Items.java" optionsMethod with
      | .ok facts => facts.endpoints.any fun e => decide (e.method = "OPTIONS")
      | .error _ => false) = true := by decide +kernel
  have hgo : (match SourceFile.read .go "a.go" unrootedRoute with
      | .ok facts => facts.endpoints.any fun e => decide (e.path = "users")
      | .error _ => false) = true := by decide +kernel
  constructor
  · split at hjava
    · rename_i facts hfacts
      obtain ⟨e, he, hmethod⟩ := List.any_eq_true.mp hjava
      refine ⟨facts, hfacts, e, he, of_decide_eq_true hmethod, ?_⟩
      rw [of_decide_eq_true hmethod]
      decide
    · exact nomatch hjava
  · split at hgo
    · rename_i facts hfacts
      obtain ⟨e, he, hpath⟩ := List.any_eq_true.mp hgo
      refine ⟨facts, hfacts, e, he, of_decide_eq_true hpath, ?_⟩
      rw [of_decide_eq_true hpath]
      decide
    · exact nomatch hgo

end ServiceMap
