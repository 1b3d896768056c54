import ServiceMap.Proofs.Declaration.GoFunctionHeads
import ServiceMap.Proofs.Endpoint.JsonCalls
import ServiceMap.Proofs.Endpoint.RouteGroups
import ServiceMap.Proofs.Facts.Readable
import ServiceMap.Proofs.Source.Enclosed

/-!
# Results and bodies of Go functions

Behind the parameters of a function stand its result and its body. Both are told apart by the first
brace: the result is what stands before it, and the body is the group that it opens. A result that
holds no brace is reported as it is written, and the body is the text between the function's braces, so
that the status of each response that a handler writes is among those of its routes. A result with a
brace is cut off there, and the inside of its own braces is taken for the body.
-/

namespace ServiceMap

open Text Source Declaration Pattern Link Endpoint

namespace Declaration

/-! ## Functions in print -/

/-- A function from its head to the brace that ends its body. -/
structure GoFunctionText where
  head : GoFunctionHead
  parameters : List Char
  wholeParameters : Bracket.round.IsWhole parameters
  result : List Char
  oneLine : '\n' ∉ result
  body : List Char
  wholeBody : Bracket.curly.IsWhole body

/-- A function up to the parenthesis that ends its parameters. -/
def GoFunctionText.front (f : GoFunctionText) : List Char :=
  f.head.print ++ (f.parameters ++ [')'])

def GoFunctionText.print (f : GoFunctionText) : List Char :=
  f.front ++ (f.result ++ '\x7b' :: (f.body ++ ['\x7d']))

/-- The type that a result is, if it is read as a whole. -/
def resultType (result : List Char) : List Char :=
  if (trim result).isEmpty then "void".toList else trim result

variable {f : GoFunctionText}

theorem GoFunctionText.print_append (f : GoFunctionText) (back : List Char) :
    f.print ++ back = f.front ++ (f.result ++ '\x7b' :: (f.body ++ '\x7d' :: back)) := by
  simp [print]

/-- The parameters are the group that the head opens. -/
theorem group_front (f : GoFunctionText) (front rest : List Char) :
    group (front ++ (f.front ++ rest)) (front.length + f.head.print.length - 1)
      = .ok (f.parameters, (front ++ f.front).length) := by
  obtain ⟨init, hinit⟩ : ∃ init, f.head.print = init ++ ['('] :=
    ⟨"func".toList ++ (f.head.start.print ++ (f.head.name.text ++ f.head.gap.text)),
      by simp [GoFunctionHead.print]⟩
  have hgroup := group_of_passesOver f.wholeParameters.passesOver (front ++ init) rest
  have htext : front ++ (f.front ++ rest)
      = front ++ init ++ Bracket.round.opener :: (f.parameters ++ Bracket.round.closer :: rest) := by
    rw [GoFunctionText.front, hinit]
    simp [Bracket.opener, Bracket.closer]
  have hstart : front.length + f.head.print.length - 1 = (front ++ init).length := by
    rw [hinit, List.length_append, List.length_append, List.length_singleton]
    omega
  have hstop : (front ++ f.front).length = (front ++ init).length + (f.parameters.length + 2) := by
    rw [GoFunctionText.front, hinit]
    simp
    omega
  rw [htext, hstart, hgroup, hstop]

/-- The result is what stands before the first brace. -/
theorem goResult_eq {result : List Char} (hline : '\n' ∉ result) (front rest : List Char) :
    goResult (front ++ (result ++ '\x7b' :: rest)) front.length
      = resultType (before '\x7b' result) := by
  have hsame : ((result ++ '\x7b' :: rest).takeWhile (· != '\n'))
      = result ++ '\x7b' :: rest.takeWhile (· != '\n') := by
    rw [List.takeWhile_append_of_pos fun c hc => bne_iff_ne.mpr fun heq : c = '\n' => hline (heq ▸ hc),
      List.takeWhile_cons_of_pos (by decide)]
  rw [goResult, List.drop_left, hsame, before_append_cons]
  rfl

/-- A result is reported as it is written if and only if there is no brace in it. -/
theorem resultType_before_iff (result : List Char) :
    String.ofList (resultType (before '\x7b' result)) = String.ofList (resultType result)
      ↔ '\x7b' ∉ result := by
  constructor
  · intro h hmem
    have hcut : '\x7b' ∉ resultType (before '\x7b' result) := by
      rw [resultType]
      split
      · decide
      · exact fun hmem => not_mem_before _ _ (mem_of_mem_trim hmem)
    have htrim := mem_trim hmem (by decide)
    have hwhole : resultType result = trim result :=
      if_neg fun hempty => List.ne_nil_of_mem htrim (List.isEmpty_iff.mp hempty)
    rw [String.ofList_inj.mp h, hwhole] at hcut
    exact hcut htrim
  · exact fun h => by rw [before_of_not_mem h]

/-! ## The function of a declaration -/

theorem goFunction_of_group {source : SourceText} {m : Match} {function : GoFunction}
    {parameters : List Char} {stop : Nat}
    (hgroup : group source.masked (m.stop - 1) = .ok (parameters, stop))
    (h : goFunction source m = .ok function) :
    function.receiver = m.group? 1 ∧ function.info.name = String.ofList (m.group 2)
      ∧ function.info.lineNumber = source.lineNumber m.start
      ∧ function.info.returnType = String.ofList (goResult source.masked stop) := by
  obtain ⟨⟨parameters', stop'⟩, hgroup', h⟩ := except_bind_eq_ok h
  obtain ⟨doc, -, h⟩ := except_bind_eq_ok h
  obtain ⟨-, rfl⟩ := Prod.mk.inj (Except.ok.inj (hgroup.symm.trans hgroup'))
  obtain rfl := Except.ok.inj h
  exact ⟨rfl, rfl, rfl, rfl⟩

/-- A function that stands in a text is one of the functions of the text, if no head that is found
before it goes beyond its start. -/
theorem exists_function_of_head {text front back : List Char}
    (hfront : ∀ c ∈ front.getLast?, isWord c = false)
    (hmasked : maskComments Language.go.rawQuote text = front ++ (f.print ++ back))
    (hclear : goFunctionHead.IsClearAt (front ++ (f.print ++ back)) front.length) :
    ∃ functions, goFunctions (.ofText Language.go.rawQuote text) = .ok functions
      ∧ ∃ function ∈ functions, function.receiver = f.head.start.receiver?
        ∧ function.info.name = f.head.name.toString
        ∧ function.info.lineNumber
          = (SourceText.ofText Language.go.rawQuote text).lineNumber front.length
        ∧ function.info.returnType = String.ofList (resultType (before '\x7b' f.result)) := by
  obtain ⟨functions, hfunctions⟩ := neverFails_iff.mp
    (goFunctions_neverFails (hasLines_ofText Language.go.rawQuote text))
  have htext : f.print ++ back = f.head.print ++ (f.parameters ++ ')' :: (f.result
      ++ '\x7b' :: (f.body ++ '\x7d' :: back))) := by
    simp [GoFunctionText.print, GoFunctionText.front]
  obtain ⟨m, hm, hstart, hstop, hreceiver, hname⟩ := matchHere?_goFunctionHead
    (front ++ (f.print ++ back)).length
    (p := ⟨lastOr none front, f.print ++ back, front.length, []⟩)
    (by rwa [lastOr_none]) rfl htext
  have hmem := mem_findAll_of_matchHere? hclear hm
  rw [← hmasked] at hmem
  obtain ⟨function, hfunction, hread⟩ := exists_mem_of_mapM_eq_ok hfunctions hmem
  have hgroup := group_front f front (f.result ++ '\x7b' :: (f.body ++ '\x7d' :: back))
  rw [← f.print_append, ← hmasked] at hgroup
  obtain ⟨hreceiver', hname', hline, hresult⟩ := goFunction_of_group (by rw [hstop]; exact hgroup) hread
  refine ⟨functions, hfunctions, function, hfunction, hreceiver'.trans hreceiver, ?_, ?_, ?_⟩
  · rw [hname', hname]
    rfl
  · rw [hline, hstart]
  · have hgo := goResult_eq f.oneLine (front ++ f.front) (f.body ++ '\x7d' :: back)
    rw [List.append_assoc, ← f.print_append, ← hmasked] at hgo
    rw [hresult]
    exact congrArg String.ofList hgo

end Declaration

namespace Endpoint

/-! ## Bodies -/

/-- No function of this name stands before a position. -/
def IsFirstNamed (name masked : List Char) (index : Nat) : Prop :=
  ∀ m, (goFunctionNamed name).find? masked = some m → index ≤ m.start

instance (name masked : List Char) (index : Nat) : Decidable (IsFirstNamed name masked index) :=
  match h : (goFunctionNamed name).find? masked with
  | none => isTrue fun _ hm => nomatch h.symm.trans hm
  | some m => decidable_of_iff (index ≤ m.start)
      ⟨fun hle _ hm => Option.some.inj (h.symm.trans hm) ▸ hle, fun hall => hall m h⟩

section Bodies

variable {f : GoFunctionText} {front back : List Char}

/-- The first brace behind the parameters of a function opens what is taken for its body. -/
theorem goBody_of_brace (hfront : ∀ c ∈ front.getLast?, isWord c = false)
    (hfirst : IsFirstNamed f.head.name.text (front ++ (f.print ++ back)) front.length)
    {before inside after : List Char} (hbefore : '\x7b' ∉ before)
    (hinside : Bracket.curly.PassesOver inside)
    (hsplit : f.result ++ '\x7b' :: (f.body ++ '\x7d' :: back)
      = before ++ '\x7b' :: (inside ++ '\x7d' :: after)) :
    goBody (front ++ (f.print ++ back)) f.head.name.text = .ok inside := by
  have htext : f.print ++ back = f.head.print ++ (f.parameters ++ ')' :: (f.result
      ++ '\x7b' :: (f.body ++ '\x7d' :: back))) := by
    simp [GoFunctionText.print, GoFunctionText.front]
  obtain ⟨m, hm, -, hstop⟩ := matchHere?_goFunctionNamed
    (front ++ (f.print ++ back)).length
    (p := ⟨lastOr none front, f.print ++ back, front.length, []⟩)
    (by rwa [lastOr_none]) htext
  have hfound := find?_of_matchHere? hfirst hm
  have hparameters := group_front f front (f.result ++ '\x7b' :: (f.body ++ '\x7d' :: back))
  have hbrace := findFrom?_append_cons hbefore (front ++ f.front) (inside ++ '\x7d' :: after)
  have hgroup := group_of_passesOver hinside (front ++ f.front ++ before) after
  have hrest : front ++ (f.print ++ back)
      = front ++ f.front ++ before
        ++ Bracket.curly.opener :: (inside ++ Bracket.curly.closer :: after) := by
    rw [f.print_append, hsplit, List.append_assoc, List.append_assoc]
    rfl
  rw [← hsplit, List.append_assoc, ← f.print_append] at hbrace
  rw [← f.print_append] at hparameters
  rw [← hrest] at hgroup
  rw [goBody, hfound]
  dsimp only
  rw [hstop, hparameters, except_ok_bind]
  dsimp only
  rw [hbrace]
  dsimp only
  rw [hgroup]
  rfl

/-- A result without braces is told from the body. -/
theorem goBody_of_plain_result (hfront : ∀ c ∈ front.getLast?, isWord c = false)
    (hfirst : IsFirstNamed f.head.name.text (front ++ (f.print ++ back)) front.length)
    (hresult : '\x7b' ∉ f.result) :
    goBody (front ++ (f.print ++ back)) f.head.name.text = .ok f.body :=
  goBody_of_brace hfront hfirst hresult f.wholeBody.passesOver rfl

/-- The braces of a result are taken for those of the body. -/
theorem goBody_of_braced_result (hfront : ∀ c ∈ front.getLast?, isWord c = false)
    (hfirst : IsFirstNamed f.head.name.text (front ++ (f.print ++ back)) front.length)
    {before inside after : List Char} (hbefore : '\x7b' ∉ before)
    (hinside : Bracket.curly.IsWhole inside)
    (hresult : f.result = before ++ '\x7b' :: (inside ++ '\x7d' :: after)) :
    goBody (front ++ (f.print ++ back)) f.head.name.text = .ok inside := by
  have hsplit : f.result ++ '\x7b' :: (f.body ++ '\x7d' :: back)
      = before ++ '\x7b' :: (inside ++ '\x7d' :: (after ++ '\x7b' :: (f.body ++ '\x7d' :: back))) := by
    rw [hresult]
    simp
  exact goBody_of_brace hfront hfirst hbefore hinside.passesOver hsplit

end Bodies

/-! ## Responses of routes -/

/-- A handler that names a function, possibly qualified. -/
def NamesFunction (handler name : List Char) : Prop :=
  ¬"func".toList <+: trim handler ∧ ∃ qualifier, trim handler = qualifier ++ name
    ∧ ∀ c ∈ qualifier.getLast?, isWord c = false

/-- The name that is looked for is the last word of the handler. -/
theorem lastWord_of_namesFunction {handler : List Char} {name : TypeName}
    (h : NamesFunction handler name.text) :
    ((trim handler).reverse.takeWhile isWord).reverse = name.text := by
  obtain ⟨-, qualifier, hsplit, hlast⟩ := h
  have hwords : ∀ c ∈ name.text.reverse, isWord c = true :=
    fun c hc => name.ofWords c (List.mem_reverse.mp hc)
  have hhead : ∀ c ∈ qualifier.reverse.head?, isWord c = false := by
    rw [List.head?_reverse]
    exact hlast
  rw [hsplit, List.reverse_append, (span_append hwords hhead).1, List.reverse_reverse]

/-- The responses to a handler that names a function hold each status that its body writes. -/
theorem status_mem_goResponses {masked handler body : List Char} {name : TypeName}
    {responses : List Response} {code : Int} (hnames : NamesFunction handler name.text)
    (hbody : goBody masked name.text = .ok body)
    (hresponses : goResponses masked handler = .ok responses) (hcode : WritesStatus body code) : code ∈ responses.map Response.statusCode := by
  have hfunc : ("func".toList.isPrefixOf (trim handler)) = false :=
    Bool.eq_false_iff.mpr fun h => hnames.1 (List.isPrefixOf_iff_prefix.mp h)
  have hempty : name.text.isEmpty = false :=
    Bool.eq_false_iff.mpr fun h => name.nonempty (List.isEmpty_iff.mp h)
  rw [goResponses, lastWord_of_namesFunction hnames, hempty, hfunc, if_neg (by decide), hbody,
    except_ok_bind] at hresponses
  obtain ⟨found, hfound, hresponses⟩ := except_bind_eq_ok hresponses
  obtain rfl := Except.ok.inj hresponses
  obtain ⟨r, hr, rfl⟩ := exists_response_of_writesStatus hcode hfound
  obtain ⟨other, hother, hsame⟩ := exists_responsesOr none hr
  exact List.mem_map.mpr ⟨other, hother, hsame⟩

/-- The handlers of a source with the positions of their routes: those of routers first, then those of
the standard library. -/
def goHandlers (masked : List Char) : List (Nat × List Char) :=
  ((goRoutes masked).map fun m => (m.start, m.group 4))
    ++ (goHandleFunc.findAll masked).map fun m => (m.start, m.group 2)

/-- An endpoint is on the line of its route, and has the responses to its handler. -/
def IsAnsweredBy (source : SourceText) (route : Nat × List Char) (e : ServiceMap.Endpoint) : Prop :=
  e.lineNumber = source.lineNumber route.1 ∧ goResponses source.masked route.2 = .ok e.responses

theorem isAnsweredBy_goEndpoint {source : SourceText} {file verb router : String} {index : Nat}
    {path handler : List Char} {e : ServiceMap.Endpoint}
    (h : goEndpoint source file index verb path handler router = .ok e) :
    IsAnsweredBy source (index, handler) e := by
  have hgo := isGoEndpoint_of_goEndpoint h
  exact ⟨hgo.line, hgo.responses⟩

theorem forall₂_goEndpoints {source : SourceText} {file : String} {endpoints : List ServiceMap.Endpoint}
    (h : goEndpoints source file = .ok endpoints) :
    List.Forall₂ (IsAnsweredBy source) (goHandlers source.masked) endpoints := by
  obtain ⟨routes, hroutes, h⟩ := except_bind_eq_ok h
  obtain ⟨plain, hplain, h⟩ := except_bind_eq_ok h
  obtain rfl := Except.ok.inj h
  refine List.rel_append (List.forall₂_map_left_iff.mpr ?_) (List.forall₂_map_left_iff.mpr ?_)
  · exact forall₂_of_mapM_eq_ok hroutes fun _ _ _ he => isAnsweredBy_goEndpoint he
  · exact forall₂_of_mapM_eq_ok hplain fun _ _ _ he => isAnsweredBy_goEndpoint he

theorem exists_endpoint_of_handler {source : SourceText} (hlines : source.HasLines)
    (hfit : StatusNumeralsFit source.masked) {name : TypeName} {body : List Char}
    (hbody : goBody source.masked name.text = .ok body) (file : String) :
    ∃ endpoints, goEndpoints source file = .ok endpoints
      ∧ ∀ route ∈ goHandlers source.masked, NamesFunction route.2 name.text →
        ∃ e ∈ endpoints, e.lineNumber = source.lineNumber route.1
          ∧ ∀ code, WritesStatus body code → code ∈ e.responses.map Response.statusCode := by
  obtain ⟨endpoints, hendpoints⟩ := neverFails_iff.mp fun fault hfault => by
    obtain ⟨digits, hdigits, hlong, -⟩ := goEndpoints_failsOnly hlines file fault hfault
    exact absurd (hfit digits hdigits) (Nat.not_le_of_lt hlong)
  refine ⟨endpoints, hendpoints, fun route hroute hnames => ?_⟩
  obtain ⟨e, he, hline, hresponses⟩ := exists_of_forall₂ (forall₂_goEndpoints hendpoints) hroute
  exact ⟨e, he, hline, fun code hcode => status_mem_goResponses hnames hbody hresponses hcode⟩

/-- **Results and bodies end at the first brace.** A function that is written down in a file, and that no
head before it swallows, is reported with its receiver, its name and its line; its result is what stands
before the first brace behind its parameters, which is the whole result if and only if there is no brace
in it. For the first function of a name the body is then the text between the function's braces, and each
route whose handler names it has the statuses that this body writes; of a result with braces, the
inside of the first ones is taken for the body. -/
theorem function_is_read_up_to_its_first_brace {f : GoFunctionText} {text front back : List Char}
    (hfront : ∀ c ∈ front.getLast?, isWord c = false)
    (hmasked : maskComments Language.go.rawQuote text = front ++ (f.print ++ back)) :
    let source := SourceText.ofText Language.go.rawQuote text
    (goFunctionHead.IsClearAt source.masked front.length →
        ∃ functions, goFunctions source = .ok functions
          ∧ ∃ function ∈ functions, function.receiver = f.head.start.receiver?
            ∧ function.info.name = f.head.name.toString
            ∧ function.info.lineNumber = source.lineNumber front.length
            ∧ function.info.returnType = String.ofList (resultType (before '\x7b' f.result))
            ∧ (function.info.returnType = String.ofList (resultType f.result) ↔ '\x7b' ∉ f.result))
      ∧ (IsFirstNamed f.head.name.text source.masked front.length →
        (∀ left inside right, '\x7b' ∉ left → Bracket.curly.IsWhole inside →
            f.result = left ++ '\x7b' :: (inside ++ '\x7d' :: right) →
            goBody source.masked f.head.name.text = .ok inside)
          ∧ ('\x7b' ∉ f.result → goBody source.masked f.head.name.text = .ok f.body
            ∧ (StatusNumeralsFit source.masked → ∀ file, ∃ endpoints,
              goEndpoints source file = .ok endpoints
                ∧ ∀ route ∈ goHandlers source.masked, NamesFunction route.2 f.head.name.text →
                  ∃ e ∈ endpoints, e.lineNumber = source.lineNumber route.1
                    ∧ ∀ code, WritesStatus f.body code →
                      code ∈ e.responses.map Response.statusCode))) := by
  intro source
  have hsource : source.masked = front ++ (f.print ++ back) := hmasked
  refine ⟨fun hclear => ?_, fun hfirst => ⟨fun left inside right hleft hinside hresult => ?_,
    fun hplain => ?_⟩⟩
  · rw [hsource] at hclear
    obtain ⟨functions, hfunctions, function, hfunction, hreceiver, hname, hline, hresult⟩ :=
      exists_function_of_head hfront hmasked hclear
    refine ⟨functions, hfunctions, function, hfunction, hreceiver, hname, hline, hresult, ?_⟩
    rw [hresult]
    exact resultType_before_iff f.result
  · rw [hsource] at hfirst ⊢
    exact goBody_of_braced_result hfront hfirst hleft hinside hresult
  · have hbody : goBody source.masked f.head.name.text = .ok f.body := by
      rw [hsource] at hfirst ⊢
      exact goBody_of_plain_result hfront hfirst hplain
    exact ⟨hbody, fun hfit file =>
      exists_endpoint_of_handler (hasLines_ofText Language.go.rawQuote text) hfit hbody file⟩

/-! ## Handlers of a shop -/

/-- A function that registers a route. -/
def shopRoute : List Char :=
  "func routes(r *gin.Engine) \x7b\n\tr.GET(\"/a\", shop.Show)\n\x7d\n\n".toList

/-- A method that answers with one of two statuses. -/
def showMethod : GoFunctionText where
  head := {
    start := .method oneSpace.toGap
      ⟨noGap, some (.ofString "s" (by decide) (by decide), oneSpace), true,
        .ofString "Shop" (by decide) (by decide), none, noGap⟩ oneSpace.toGap
    name := .ofString "Show" (by decide) (by decide)
    gap := noGap }
  parameters := "c *gin.Context".toList
  wholeParameters := by decide
  result := " error ".toList
  oneLine := by decide
  body := "\n\tc.JSON(404, nil)\n\tc.JSON(http.StatusOK, s)\n".toList
  wholeBody := by decide

theorem shop_answers_with_two_statuses :
    let source := SourceText.ofText Language.go.rawQuote (shopRoute ++ showMethod.print)
    (∀ c ∈ shopRoute.getLast?, isWord c = false)
      ∧ maskComments Language.go.rawQuote (shopRoute ++ showMethod.print)
        = shopRoute ++ (showMethod.print ++ [])
      ∧ (∃ functions, goFunctions source = .ok functions ∧ ∃ function ∈ functions,
        function.info.name = "Show" ∧ function.info.returnType = "error")
      ∧ ∃ endpoints, goEndpoints source "a.go" = .ok endpoints
        ∧ ∃ e ∈ endpoints, e.lineNumber = 2 ∧ (404 : Int) ∈ e.responses.map Response.statusCode
          ∧ (200 : Int) ∈ e.responses.map Response.statusCode := by
  intro source
  have hfront : ∀ c ∈ shopRoute.getLast?, isWord c = false :=
    forall_getLast?_of_eq '\n' ⟨by decide, by decide⟩
  have hmasked : maskComments Language.go.rawQuote (shopRoute ++ showMethod.print)
      = shopRoute ++ (showMethod.print ++ []) := by decide +kernel
  obtain ⟨hfunction, hresponses⟩ := function_is_read_up_to_its_first_brace (f := showMethod) hfront hmasked
  obtain ⟨functions, hfunctions, function, hfunction, -, hname, -, hresult, -⟩ :=
    hfunction (by decide +kernel)
  obtain ⟨-, hplain⟩ := hresponses (by decide +kernel)
  have hfit : StatusNumeralsFit source.masked := by
    rintro digits ⟨-, blanks, -, hinfix⟩
    have hlength := hinfix.length_le
    have htext : source.masked.length ≤ longestNumeral := by decide +kernel
    rw [List.length_append, List.length_append] at hlength
    omega
  obtain ⟨endpoints, hendpoints, hroutes⟩ := (hplain (by decide)).2 hfit "a.go"
  have hhandler : ∃ route ∈ goHandlers source.masked, source.lineNumber route.1 = 2
      ∧ trim route.2 = "shop.Show".toList := by decide +kernel
  obtain ⟨route, hroute, hline, hhandler⟩ := hhandler
  have hnames : NamesFunction route.2 showMethod.head.name.text := by
    rw [NamesFunction, hhandler]
    exact ⟨by decide, "shop.".toList, rfl, forall_getLast?_of_eq '.' ⟨by decide, by decide⟩⟩
  obtain ⟨e, he, heLine, hstatus⟩ := hroutes route hroute hnames
  refine ⟨hfront, hmasked, ⟨functions, hfunctions, function, hfunction, hname, hresult⟩, endpoints,
    hendpoints, e, he, by rw [heLine, hline]; rfl, ?_, ?_⟩
  · refine hstatus 404 ⟨"\n\t".toList, ⟨.ofString "c" (by decide) (by decide), noGap, "404".toList,
      Or.inr ⟨by decide, forall_mem_of_all (by decide)⟩, noGap⟩,
      " nil)\n\tc.JSON(http.StatusOK, s)\n".toList, rfl,
      forall_getLast?_of_eq '\t' ⟨by decide, by decide⟩, by decide, by decide +kernel⟩
  · refine hstatus 200 ⟨"\n\tc.JSON(404, nil)\n\t".toList, ⟨.ofString "c" (by decide) (by decide), noGap,
      "http.StatusOK".toList, Or.inl ⟨.ofString "OK" (by decide) (by decide), rfl⟩, noGap⟩,
      " s)\n".toList, rfl, forall_getLast?_of_eq '\t' ⟨by decide, by decide⟩, by decide,
      by decide +kernel⟩

/-- A handler whose result has braces, and its route. -/
def bracedResult : List Char :=
  ("func routes(r *gin.Engine) \x7b\n\tr.GET(\"/a\", load)\n\x7d\n\n"
    ++ "func load(c *gin.Context) interface\x7b\x7d \x7b\n\tc.JSON(404, nil)\n\x7d\n").toList

/-- The result is cut off at its brace, and the status of the body is lost. -/
theorem braces_of_a_result_are_taken_for_the_body :
    let source := SourceText.ofText Language.go.rawQuote bracedResult
    (goFunctions source).toOption.map (List.map fun function =>
        (function.info.name, function.info.returnType))
        = some [("routes", "void"), ("load", "interface")]
      ∧ goBody source.masked "load".toList = .ok []
      ∧ (goEndpoints source "a.go").toOption.map (List.map fun e =>
          e.responses.map Response.statusCode) = some [[200]] := by
  refine ⟨?_, ?_, ?_⟩ <;> decide +kernel

end Endpoint

end ServiceMap
