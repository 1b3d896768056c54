import ServiceMap.Facts.Reading
import ServiceMap.Proofs.Declaration.Readers
import ServiceMap.Proofs.Text.Numeral

/-!
# Readers of endpoints

Endpoints are read off every source, with one exception: a Go handler may answer with a status that
is written in more digits than a numeral may have.
-/

namespace ServiceMap.Endpoint

open Text Source Declaration Pattern

/-- In a masked source, digits that are the status of a response written as JSON. -/
def IsStatusNumeral (masked digits : List Char) : Prop :=
  (∀ c ∈ digits, isDecimal c = true)
    ∧ ∃ blanks, (∀ c ∈ blanks, isBlank c = true)
      ∧ ".JSON(".toList ++ (blanks ++ digits) <:+: masked

/-- A fault that comes of a status numeral of too many digits. -/
def IsLongStatus (masked : List Char) (fault : Fault) : Prop :=
  ∃ digits, IsStatusNumeral masked digits ∧ longestNumeral < digits.length
    ∧ fault = .numeral (.tooLong digits.length)

/-! ## Go -/

theorem goStatus_failsOnly {token : List Char} (hne : token ≠ []) :
    FailsOnly (fun fault => (∀ c ∈ token, isDecimal c = true) ∧ longestNumeral < token.length
      ∧ fault = .numeral (.tooLong token.length)) (goStatus token) := by
  rw [goStatus]
  split
  · rename_i hdigits
    have hall := List.all_eq_true.mp hdigits
    intro fault hfault
    split at hfault
    · exact nomatch hfault
    · rename_i cause hcause
      obtain ⟨hlong, rfl⟩ := readNatural_failsOnly hne hall cause hcause
      exact ⟨hall, hlong, (Except.error.inj hfault).symm⟩
  · exact FailsOnly.ok _

/-- The status of a response written as JSON stands right after the parenthesis of its call. -/
theorem status_of_goJsonResponse {body : List Char} {m : Match}
    (hm : m ∈ goJsonResponse.findAll body) :
    m.group 1 ≠ [] ∧ ∃ blanks, (∀ c ∈ blanks, isBlank c = true)
      ∧ ".JSON(".toList ++ (blanks ++ m.group 1) <:+: body := by
  obtain ⟨done, more, rfl, hmatch⟩ := split_of_mem_allFrom body hm
  obtain ⟨s, t, u, rest, hmore, hfront, hstatus, -, hgroup, -⟩ :=
    captured_of_matchHere? (blanks ++ (lit "," ++ (blanks ++ capture 2 (many (· != ')')))))
      (by decide) hmatch
  obtain ⟨_, gap, rfl, ⟨call, _, rfl, -, hcall⟩, hgap⟩ := hfront
  obtain rfl := takes_lit.mp hcall
  rw [hgroup]
  refine ⟨?_, gap, hgap, ?_⟩
  · rcases hstatus with ⟨_, name, rfl, hname, -⟩ | hdigits
    · rw [takes_lit.mp hname]
      exact List.cons_ne_nil _ _
    · exact (takes_many1.mp hdigits).1
  · dsimp only at hmore
    refine ⟨done ++ call, u ++ rest, ?_⟩
    rw [hmore]
    simp only [List.append_assoc]

theorem goResponse_failsOnly {body : List Char} {m : Match}
    (hm : m ∈ goJsonResponse.findAll body) :
    FailsOnly (IsLongStatus body) (goResponse m) := by
  obtain ⟨hne, blanks, hblanks, hwithin⟩ := status_of_goJsonResponse hm
  refine FailsOnly.bind (fun fault hfault => ?_) fun status _ => FailsOnly.pure _
  obtain ⟨hdigits, hlong, rfl⟩ := goStatus_failsOnly hne fault hfault
  exact ⟨m.group 1, ⟨hdigits, blanks, hblanks, hwithin⟩, hlong, rfl⟩

/-- The body of a handler is a stretch of its source. -/
theorem goBody_within {masked name body : List Char} (h : goBody masked name = .ok body) :
    body <:+: masked := by
  unfold goBody at h
  split at h
  · obtain rfl := Except.ok.inj h
    exact (List.nil_prefix).isInfix
  · obtain ⟨⟨parameters, stop⟩, -, h⟩ := except_bind_eq_ok h
    dsimp only at h
    split at h
    · obtain rfl := Except.ok.inj h
      exact (List.nil_prefix).isInfix
    · obtain ⟨⟨inside, stop⟩, hgroup, h⟩ := except_bind_eq_ok h
      obtain rfl := Except.ok.inj h
      exact group_within hgroup

theorem goBody_neverFails (masked name : List Char) : NeverFails (goBody masked name) := by
  unfold goBody
  split
  · exact FailsOnly.ok _
  · rename_i m hm
    obtain ⟨c, rest, hrest, hc⟩ := last_of_find? hm
    obtain rfl := beq_iff_eq.mp hc
    refine FailsOnly.bind (group_neverFails hrest (by decide)) fun parameters _ => ?_
    dsimp only
    split
    · exact FailsOnly.pure _
    · rename_i brace hbrace
      exact FailsOnly.bind (group_of_findFrom? (by decide) hbrace) fun body _ => FailsOnly.pure _

theorem goResponses_failsOnly (masked handler : List Char) :
    FailsOnly (IsLongStatus masked) (goResponses masked handler) := by
  unfold goResponses
  dsimp only
  split
  · exact FailsOnly.pure _
  · refine FailsOnly.bind (.of_neverFails (goBody_neverFails _ _)) fun body hbody => ?_
    refine FailsOnly.bind (FailsOnly.mapM fun m hm => ?_) fun found _ => FailsOnly.pure _
    intro fault hfault
    obtain ⟨digits, ⟨hdigits, blanks, hblanks, hwithin⟩, hfault⟩ :=
      goResponse_failsOnly hm fault hfault
    exact ⟨digits, ⟨hdigits, blanks, hblanks, hwithin.trans (goBody_within hbody)⟩, hfault⟩

theorem goEndpoints_failsOnly {s : SourceText} (hs : s.HasLines) (file : String) :
    FailsOnly (IsLongStatus s.masked) (goEndpoints s file) := by
  have endpoint : ∀ index verb path handler router,
      FailsOnly (IsLongStatus s.masked)
        (goEndpoint s file index verb path handler router) := by
    intro index verb path handler router
    refine FailsOnly.bind (.of_neverFails (hs _ _)) fun doc _ => ?_
    exact FailsOnly.bind (goResponses_failsOnly _ _) fun responses _ => FailsOnly.pure _
  refine FailsOnly.bind (FailsOnly.mapM fun m _ => endpoint _ _ _ _ _) fun routes _ => ?_
  exact FailsOnly.bind (FailsOnly.mapM fun m _ => endpoint _ _ _ _ _) fun plain _ =>
    FailsOnly.pure _

/-! ## Java -/

theorem springRoute?_neverFails (marks : List String) : NeverFails (springRoute? marks) := by
  unfold springRoute?
  split
  · exact FailsOnly.pure _
  · exact FailsOnly.bind (annotationArguments_neverFails _) fun arguments _ => FailsOnly.pure _

theorem springPrefix_neverFails (marks : List String) : NeverFails (springPrefix marks) := by
  unfold springPrefix
  split
  · exact FailsOnly.pure _
  · exact FailsOnly.bind (annotationArguments_neverFails _) fun arguments _ => FailsOnly.pure _

theorem jaxrsPath_neverFails (marks : List String) : NeverFails (jaxrsPath marks) := by
  unfold jaxrsPath
  split
  · exact FailsOnly.pure _
  · exact FailsOnly.bind (annotationArguments_neverFails _) fun arguments _ => FailsOnly.pure _

theorem jaxrsRoute?_neverFails (marks : List String) : NeverFails (jaxrsRoute? marks) := by
  unfold jaxrsRoute?
  split
  · exact FailsOnly.pure _
  · exact FailsOnly.bind (jaxrsPath_neverFails _) fun path _ => FailsOnly.pure _

theorem boundParameter?_neverFails (p : DeclaredParameter) : NeverFails (boundParameter? p) := by
  unfold boundParameter?
  dsimp only
  split
  · exact FailsOnly.pure _
  · exact FailsOnly.bind (annotationArguments_neverFails _) fun arguments _ => FailsOnly.pure _

theorem javaRoute?_neverFails (owner : TypeDecl) (m : DeclaredMethod) :
    NeverFails (javaRoute? owner m) := by
  refine FailsOnly.bind (springRoute?_neverFails _) fun route _ => ?_
  split
  · exact FailsOnly.bind (springPrefix_neverFails _) fun base _ => FailsOnly.pure _
  · refine FailsOnly.bind (jaxrsRoute?_neverFails _) fun route _ => ?_
    split
    · exact FailsOnly.bind (jaxrsPath_neverFails _) fun base _ => FailsOnly.pure _
    · exact FailsOnly.pure _

theorem javaEndpoint?_neverFails (file : String) (owner : TypeDecl) (m : DeclaredMethod) :
    NeverFails (javaEndpoint? file owner m) := by
  refine FailsOnly.bind (javaRoute?_neverFails owner m) fun route _ => ?_
  split
  · exact FailsOnly.pure _
  · exact FailsOnly.bind (FailsOnly.mapM fun p _ => boundParameter?_neverFails p)
      fun parameters _ => FailsOnly.pure _

theorem javaEndpoints_neverFails (file : String) (types : List OpenType)
    (methods : List (Nat × DeclaredMethod)) : NeverFails (javaEndpoints file types methods) := by
  refine FailsOnly.bind (FailsOnly.mapM fun entry _ => ?_) fun endpoints _ => FailsOnly.pure _
  dsimp only
  split
  · exact javaEndpoint?_neverFails _ _ _
  · exact FailsOnly.ok _

/-! ## C# -/

theorem attributeText?_neverFails (mark : List Char) : NeverFails (attributeText? mark) :=
  FailsOnly.bind (annotationArguments_neverFails mark) fun _ _ => FailsOnly.pure _

theorem controllerPrefix?_neverFails (type : TypeDecl) :
    NeverFails (controllerPrefix? type) := by
  unfold controllerPrefix?
  split
  · exact FailsOnly.pure _
  · exact FailsOnly.bind (attributeText?_neverFails _) fun text _ => FailsOnly.pure _

theorem routeAttributes_neverFails (marks : List (List Char)) :
    NeverFails (routeAttributes marks) := by
  refine FailsOnly.foldlM (fun r mark _ => ?_) _
  unfold RouteAttributes.add
  dsimp only
  split
  · exact FailsOnly.bind (attributeText?_neverFails _) fun text _ => FailsOnly.pure _
  · split
    · exact FailsOnly.bind (attributeText?_neverFails _) fun text _ => FailsOnly.pure _
    · exact FailsOnly.pure _

theorem actionRoute?_neverFails (owner : TypeDecl) (base? : Option (List Char))
    (m : DeclaredMethod) : NeverFails (actionRoute? owner base? m) := by
  refine FailsOnly.bind (routeAttributes_neverFails _) fun given _ => ?_
  dsimp only
  split
  · split
    · exact FailsOnly.pure _
    · exact FailsOnly.pure _
  · split
    · exact FailsOnly.pure _
    · exact FailsOnly.pure _

theorem csharpResponses_neverFails (marks : List (List Char)) (body : List Char)
    (result : String) : NeverFails (csharpResponses marks body result) := by
  refine FailsOnly.bind (FailsOnly.mapM fun mark _ => ?_) fun declared _ => FailsOnly.pure _
  unfold attributeStatus?
  split
  · exact FailsOnly.pure _
  · exact FailsOnly.bind (annotationArguments_neverFails _) fun arguments _ => FailsOnly.pure _

theorem actionEndpoints_neverFails (s : SourceText) (file : String) (types : List OpenType)
    (methods : List DeclaredMethod) : NeverFails (actionEndpoints s file types methods) := by
  refine FailsOnly.bind (FailsOnly.mapM fun type _ => ?_) fun endpoints _ => FailsOnly.pure _
  refine FailsOnly.bind (controllerPrefix?_neverFails _) fun base _ => ?_
  refine FailsOnly.bind (FailsOnly.mapM fun m _ => ?_) fun endpoints _ => FailsOnly.pure _
  refine FailsOnly.bind (actionRoute?_neverFails _ _ _) fun route _ => ?_
  split
  · exact FailsOnly.pure _
  · exact FailsOnly.bind (csharpResponses_neverFails _ _ _) fun responses _ => FailsOnly.pure _

theorem handlerParameters_neverFails (arguments : List Char) :
    NeverFails (handlerParameters arguments) := by
  have called : ∀ handler : List Char, NeverFails (if handler.head? != some '(' then
      (pure [] : Except Fault _) else do return csharpParameters (← group handler 0).1) := by
    intro handler
    split
    · exact FailsOnly.pure _
    · rename_i hopen
      obtain ⟨rest, hrest⟩ := List.head?_eq_some_iff.mp (by simpa using hopen)
      exact FailsOnly.bind (group_neverFails hrest (by decide)) fun inside _ => FailsOnly.pure _
  unfold handlerParameters
  split
  · exact called _
  · exact FailsOnly.pure _

/-- The parenthesis of a call that maps a route is the first from its start on. -/
theorem opening_of_mappedRoute {masked : List Char} {m : Match}
    (hm : m ∈ mappedRoute.findAll masked) :
    ∃ index, findFrom? ['('] masked m.start = some index := by
  obtain ⟨done, more, rfl, hmatch⟩ := split_of_mem_allFrom masked hm
  obtain ⟨taken, rest, hmore, ⟨call, path, rfl, ⟨front, _, rfl, hfront, -⟩, -⟩, hstart, -⟩ :=
    takes_of_matchHere? hmatch
  obtain ⟨_, opening, rfl, -, hopening⟩ := hfront
  obtain rfl := takes_lit.mp hopening
  dsimp only at hmore hstart
  obtain ⟨index, hindex⟩ := find?_isSome_of_mem (c := '(') (s := more) (by simp [hmore])
  refine ⟨index + m.start, ?_⟩
  rw [findFrom?, hstart, Nat.zero_add, List.drop_left, hindex]
  rfl

theorem mappedEndpoints_neverFails {s : SourceText} (hs : s.HasLines) (file : String) :
    NeverFails (mappedEndpoints s file) := by
  refine FailsOnly.mapM fun m hm => ?_
  obtain ⟨index, hindex⟩ := opening_of_mappedRoute hm
  unfold mappedEndpoint
  rw [hindex]
  refine FailsOnly.bind (group_of_findFrom? (by decide) hindex) fun arguments _ => ?_
  refine FailsOnly.bind (handlerParameters_neverFails _) fun parameters _ => ?_
  refine FailsOnly.bind (hs _ _) fun doc _ => ?_
  exact FailsOnly.bind (csharpResponses_neverFails _ _ _) fun responses _ => FailsOnly.pure _

end ServiceMap.Endpoint
