import Mathlib.Data.List.Infix
import ServiceMap.Proofs.Endpoint.Responses
import ServiceMap.Proofs.Link.Headers
import ServiceMap.Proofs.Pattern.FirstWay
import ServiceMap.Proofs.Pattern.Found

/-!
# Responses written as JSON

A handler writes a response by a call that names the status before the value. Such a call is found
wherever it is written, unless it stands within the arguments of another one; and each status that is
found is among the responses that are collected.
-/

namespace ServiceMap

open Text Source Declaration Pattern Link Endpoint

namespace Text

/-- A blank is no digit. -/
theorem isDecimal_of_isBlank {c : Char} (h : isBlank c = true) : isDecimal c = false := by
  have hwide : ∀ n ∈ wideBlanks, 128 ≤ n ∧ digitRanges.find? n = none := by decide +kernel
  have hcases := toNat_of_isBlank h
  unfold isDecimal digitValue?
  split
  · have hsmall := hcases.resolve_right fun hmem => absurd (hwide _ hmem).1 (by omega)
    have hzero : '0'.toNat = 48 := rfl
    rw [if_neg]
    · rfl
    · rw [Char.isDigit_iff_toNat]
      omega
  · rw [(hwide _ (hcases.resolve_left (by omega))).2]
    rfl

end Text

namespace Endpoint

/-! ## Calls in print -/

/-- A status as a call names it: one of the names of the package `http`, or a numeral. -/
def IsStatusToken (token : List Char) : Prop :=
  (∃ name : TypeName, token = "http.Status".toList ++ name.text)
    ∨ (token ≠ [] ∧ ∀ c ∈ token, isDecimal c = true)

/-- A call that writes a response as JSON, up to the comma behind its status. -/
structure JsonCall where
  context : TypeName
  gap : Gap
  token : List Char
  isToken : IsStatusToken token
  trailing : Gap

def JsonCall.print (call : JsonCall) : List Char :=
  call.context.text
    ++ (".JSON(".toList ++ (call.gap.text ++ (call.token ++ (call.trailing.text ++ [',']))))

section Calls

variable {limit : Nat} {p : Place} {rest : List Char}

theorem takesFirst_statusToken (limit : Nat) {token : List Char} (htoken : IsStatusToken token)
    (trailing : Gap) (htext : p.rest = token ++ (trailing.text ++ ',' :: rest)) :
    ((lit "http.Status" ++ word) <|> many1 isDecimal).TakesFirst limit p token
      (trailing.text ++ ',' :: rest) [] := by
  have hnext := trailing.head_append_cons ',' rest
  rcases htoken with ⟨name, rfl⟩ | ⟨hne, hdigits⟩
  · have hfront : (lit "http.Status").TakesFirst limit p "http.Status".toList
        (name.text ++ (trailing.text ++ ',' :: rest)) [] :=
      takesFirst_lit (by rw [htext, List.append_assoc])
    refine (hfront.append (takesFirst_many1 rfl name.nonempty name.ofWords fun c hc => ?_)).left
    rcases hnext c hc with hblank | rfl
    · exact isWord_of_isBlank hblank
    · decide
  · have hfails : (lit "http.Status" ++ word).Fails limit p := by
      refine (fails_lit (s := "http.Status") rfl ?_).append _
      rw [htext]
      obtain ⟨c, token, rfl⟩ := List.exists_cons_of_ne_nil hne
      intro hc
      obtain rfl := Option.some.inj hc
      exact absurd (hdigits _ List.mem_cons_self) (by decide)
    refine hfails.right (takesFirst_many1 htext hne hdigits fun c hc => ?_)
    rcases hnext c hc with hblank | rfl
    · exact isDecimal_of_isBlank hblank
    · decide

theorem IsStatusToken.head_append {token : List Char} (h : IsStatusToken token) (t : List Char) :
    ∀ c ∈ (token ++ t).head?, isBlank c = false := by
  rcases h with ⟨name, rfl⟩ | ⟨hne, hdigits⟩
  · exact forall_head?_cons (by decide) _
  · refine forall_head?_append hne (fun c hc => Bool.eq_false_iff.mpr fun hblank => ?_) t
    exact Bool.false_ne_true ((isDecimal_of_isBlank hblank).symm.trans (hdigits c hc))

/-- A call is found with its status. -/
theorem matchHere?_goJsonResponse (limit : Nat) (call : JsonCall)
    (hbefore : ∀ c ∈ p.before, isWord c = false) (htext : p.rest = call.print ++ rest) :
    ∃ m, goJsonResponse.matchHere? limit p = some m ∧ m.group 1 = call.token := by
  have htext : p.rest = call.context.text ++ (".JSON(".toList ++ (call.gap.text
      ++ (call.token ++ (call.trailing.text ++ ',' :: rest)))) := by
    rw [htext]
    simp [JsonCall.print]
  obtain ⟨c, w, hw⟩ := List.exists_cons_of_ne_nil call.context.nonempty
  have hedge : wordEdge.TakesFirst limit p [] p.rest [] :=
    takesFirst_edge_of_word (call.context.ofWords c (by rw [hw]; exact List.mem_cons_self)) hbefore
      (by rw [htext, hw]; rfl)
  have hcontext : word.TakesFirst limit (p.after [] p.rest []) call.context.text (".JSON(".toList
      ++ (call.gap.text ++ (call.token ++ (call.trailing.text ++ ',' :: rest)))) [] :=
    takesFirst_many1 htext call.context.nonempty call.context.ofWords (forall_head?_cons (by decide) _)
  have hmethod : ∀ q : Place, q.rest = ".JSON(".toList ++ (call.gap.text
      ++ (call.token ++ (call.trailing.text ++ ',' :: rest))) →
      (lit ".JSON(").TakesFirst limit q ".JSON(".toList
        (call.gap.text ++ (call.token ++ (call.trailing.text ++ ',' :: rest))) [] :=
    fun q hq => takesFirst_lit hq
  have hfront := ((hedge.append hcontext).append (hmethod _ rfl)).append
    (call.gap.takesFirst (call.isToken.head_append _) rfl)
  obtain ⟨c, hc, htoken⟩ := takesFirst_captured 1 (takesFirst_statusToken limit call.isToken
    call.trailing (p := p.after ([] ++ call.context.text ++ ".JSON(".toList ++ call.gap.text) _ _) rfl)
  have hcomma : ∀ q : Place, q.rest = ',' :: rest → (lit ",").TakesFirst limit q [','] rest [] :=
    fun q hq => takesFirst_lit (s := ",") hq
  have hstatus := ((hfront.append htoken).append
    (call.trailing.takesFirst (forall_head?_cons (by decide) rest) rfl)).append (hcomma _ rfl)
  have hvalue := (hstatus.append (takesFirst_many_whole isBlank)).append
    ((takesFirst_many_whole (· != ')')).capture 2)
  refine ⟨_, matchHere?_of_takesFirst hvalue, hc⟩

end Calls

/-- Each call that writes JSON is closed. -/
def ClosesCalls (s : List Char) : Prop :=
  ∀ t ∈ s.tails, ".JSON(".toList <+: t → ')' ∈ t

instance (s : List Char) : Decidable (ClosesCalls s) :=
  List.decidableBAll _ _

/-- What a call takes, from the dot on, holds no closing parenthesis. -/
theorem split_of_goJsonResponse {before : Option Char} {taken rest : List Char}
    (h : goJsonResponse.Takes before taken rest) :
    ∃ (context : TypeName) (more : List Char), taken = context.text ++ (".JSON(".toList ++ more)
      ∧ ')' ∉ more := by
  obtain ⟨_, value, rfl, ⟨_, gap, rfl, ⟨_, comma, rfl, ⟨_, trailing, rfl, ⟨_, token, rfl,
    ⟨_, front, rfl, ⟨_, method, rfl, ⟨_, context, rfl, ⟨rfl, -⟩, hcontext⟩, hmethod⟩, hfront⟩, htoken⟩,
    htrailing⟩, hcomma⟩, hgap⟩, hvalue⟩ := h
  obtain ⟨hne, hwords⟩ := takes_many1.mp hcontext
  obtain rfl := takes_lit.mp hmethod
  have hfront' := not_mem_of_takes (c := ')') (by decide) hfront
  have htoken' := not_mem_of_takes (c := ')') (by decide) htoken
  have htrailing' := not_mem_of_takes (c := ')') (by decide) htrailing
  have hcomma' := not_mem_of_takes (c := ')') (by decide) hcomma
  have hgap' := not_mem_of_takes (c := ')') (by decide) hgap
  have hvalue' := not_mem_of_takes (c := ')') (by decide) hvalue
  refine ⟨⟨context, hne, hwords⟩, front ++ token ++ trailing ++ comma ++ gap ++ value, by simp, ?_⟩
  simp [hfront', htoken', htrailing', hcomma', hgap', hvalue']

/-- The start of a call is not inside the name of another one or of its method. -/
theorem not_split_call {u x : List Char} {context : TypeName} {call : JsonCall} {t rest : List Char}
    (hsplit : context.text ++ ".JSON(".toList = u ++ x) (hu : u ≠ [])
    (hlast : ∀ c ∈ u.getLast?, isWord c = false) (hx : x ≠ []) : x ++ t ≠ call.print ++ rest := by
  intro htext
  have hnotContext : ∀ y, context.text ≠ u ++ y := by
    intro y hy
    have hc := context.ofWords (u.getLast hu) (hy ▸ List.mem_append_left _ (List.getLast_mem hu))
    rw [hlast _ (List.getLast?_eq_some_getLast hu)] at hc
    exact Bool.false_ne_true hc
  rcases List.append_eq_append_iff.mp hsplit with ⟨y, rfl, hy⟩ | ⟨y, hy, -⟩
  swap
  · exact hnotContext y hy
  -- of the parts of the method's name only the dot ends in no letter
  have hletters : ∀ n < 6, n ≠ 0 → n ≠ 1 → (".JSON(".toList.take n).getLast?.all isWord = true := by
    decide
  have htake : ".JSON(".toList.take y.length = y := by rw [hy, List.take_left]
  have hdrop : ".JSON(".toList.drop y.length = x := by rw [hy, List.drop_left]
  have hlength : y.length < 6 := by
    have hall := congrArg List.length hy
    have hpos := List.length_pos_iff.mpr hx
    rw [List.length_append, show ".JSON(".toList.length = 6 from rfl] at hall
    omega
  by_cases hzero : y.length = 0
  · rw [List.length_eq_zero_iff.mp hzero, List.append_nil] at hnotContext
    exact hnotContext [] (List.append_nil _).symm
  by_cases hone : y.length = 1
  · rw [hone] at hdrop
    obtain rfl : "JSON(".toList = x := hdrop
    have hword : ∀ c ∈ "JSON".toList, isWord c = true := forall_mem_of_all (by decide)
    rw [JsonCall.print, List.append_assoc] at htext
    obtain ⟨-, hrest⟩ := append_inj_of_span (a := '(' :: t) (forall_head?_cons (by decide) _)
      (forall_head?_cons (by decide) _) "JSON".toList hword call.context.ofWords htext
    exact absurd (List.cons.inj hrest).1 (by decide)
  · have hne : y ≠ [] := fun hnil => hzero (List.length_eq_zero_iff.mpr hnil)
    have hmem : y.getLast hne ∈ (context.text ++ y).getLast? := by
      rw [List.getLast?_append, List.getLast?_eq_some_getLast hne]
      rfl
    have hc := hletters y.length hlength hzero hone
    rw [htake, List.getLast?_eq_some_getLast hne, Option.all_some, hlast _ hmem] at hc
    exact Bool.false_ne_true hc

/-- A call behind closed calls is found. -/
theorem isClearAt_of_closesCalls {before after : List Char} {call : JsonCall}
    (hedge : ∀ c ∈ before.getLast?, isWord c = false) (hclosed : ClosesCalls before) :
    goJsonResponse.IsClearAt (before ++ (call.print ++ after)) before.length := by
  intro m hm hlt
  obtain ⟨done, more, htext, hmatch⟩ := split_of_mem_allFrom _ hm
  obtain ⟨taken, rest', hmore, htakes, hstart, hstop⟩ := takes_of_matchHere? hmatch
  dsimp only at hmore hstart hstop
  rw [Nat.zero_add] at hstart hstop
  by_contra hbeyond
  obtain ⟨context, value, rfl, hvalue⟩ := split_of_goJsonResponse htakes
  subst hmore
  rw [hstart] at hlt
  rw [hstop] at hbeyond
  -- the call starts within what the match takes
  obtain ⟨u, rfl, hu⟩ : ∃ u, before = done ++ u ∧ u ++ (call.print ++ after)
      = context.text ++ (".JSON(".toList ++ value) ++ rest' := by
    rcases List.append_eq_append_iff.mp htext with ⟨u, hdone, -⟩ | ⟨u, hbefore, hmore⟩
    · have hlength := congrArg List.length hdone
      rw [List.length_append] at hlength
      omega
    · exact ⟨u, hbefore, hmore.symm⟩
  rw [List.length_append] at hlt hbeyond
  have hne : u ≠ [] := by
    rintro rfl
    exact absurd hlt (Nat.lt_irrefl _)
  have hlast : ∀ c ∈ u.getLast?, isWord c = false := fun c hc =>
    hedge c (by rw [List.getLast?_append, hc]; rfl)
  have hopen : ∀ y, u = context.text ++ ".JSON(".toList ++ y → ')' ∈ y := by
    rintro y rfl
    have hsuffix : ".JSON(".toList ++ y <:+ done ++ (context.text ++ ".JSON(".toList ++ y) :=
      ⟨done ++ context.text, by simp⟩
    have hmem := hclosed _ ((List.mem_tails _ _).mpr hsuffix) (List.prefix_append _ _)
    exact (List.mem_append.mp hmem).resolve_left (by decide)
  have hu : u ++ (call.print ++ after) = context.text ++ ".JSON(".toList ++ (value ++ rest') := by
    rw [hu]
    simp
  rcases List.append_eq_append_iff.mp hu with ⟨x, hsplit, hx⟩ | ⟨y, hy, hrest⟩
  · by_cases hnil : x = []
    · rw [hnil, List.append_nil] at hsplit
      exact absurd (hopen [] (by rw [List.append_nil, hsplit])) List.not_mem_nil
    · exact not_split_call hsplit hne hlast hnil hx.symm
  · have hstart : y <+: value := by
      refine List.prefix_of_prefix_length_le ⟨_, hrest.symm⟩ (List.prefix_append value rest') ?_
      have hlength := congrArg List.length hy
      simp only [List.length_append] at hlength hbeyond
      omega
    exact hvalue (hstart.mem (hopen y hy))

/-! ## Statuses of a body -/

/-- A status that a body writes as JSON, behind calls that are closed. -/
def WritesStatus (body : List Char) (code : Int) : Prop :=
  ∃ (before : List Char) (call : JsonCall) (after : List Char), body = before ++ (call.print ++ after)
    ∧ (∀ c ∈ before.getLast?, isWord c = false) ∧ ClosesCalls before ∧ goStatus call.token = .ok code

theorem exists_response_of_writesStatus {body : List Char} {code : Int} {found : List Response}
    (h : WritesStatus body code) (hfound : (goJsonResponse.findAll body).mapM goResponse = .ok found) :
    ∃ r ∈ found, r.statusCode = code := by
  obtain ⟨before, call, after, rfl, hedge, hclosed, hcode⟩ := h
  obtain ⟨m, hm, htoken⟩ := matchHere?_goJsonResponse (before ++ (call.print ++ after)).length
    (p := ⟨lastOr none before, call.print ++ after, before.length, []⟩) call
    (by rwa [lastOr_none]) rfl
  have hmem := mem_findAll_of_matchHere? (isClearAt_of_closesCalls hedge hclosed) hm
  obtain ⟨r, hr, hresponse⟩ := exists_mem_of_mapM_eq_ok hfound hmem
  obtain ⟨status, hstatus, hresponse⟩ := except_bind_eq_ok hresponse
  obtain rfl := Except.ok.inj (hcode.symm.trans (htoken ▸ hstatus))
  exact ⟨r, hr, by rw [← Except.ok.inj hresponse]; rfl⟩

end Endpoint

end ServiceMap
