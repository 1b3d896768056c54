import ServiceMap.Endpoint.GoRoute
import ServiceMap.Proofs.Link.Headers
import ServiceMap.Proofs.Pattern.FirstWay

/-!
# Heads of Go functions

The head of a function is the word `func`, a receiver if it is a method, a name, and the parenthesis of
its parameters. The declarations of a source are found by a pattern that tells the parts of a receiver;
the body of a handler is found by one that knows the handler's name and passes over its receiver. Both
end at the same parenthesis.
-/

namespace ServiceMap.Declaration

open Text Source Pattern Link Endpoint

/-! ## Heads in print -/

/-- The arguments of a receiver's type, which are names. -/
structure ReceiverArguments where
  text : List Char
  noBracket : ']' ∉ text
  noParenthesis : ')' ∉ text

/-- The receiver of a method: a name, a mark if it is a pointer, a type and its arguments. -/
structure GoReceiver where
  gap : Gap
  name : Option (TypeName × Space)
  pointer : Bool
  type : TypeName
  arguments : Option ReceiverArguments
  trailing : Gap

/-- What stands between the word `func` and the name. -/
inductive GoFunctionStart where
  | function (space : Space)
  | method (gap : Gap) (receiver : GoReceiver) (after : Gap)

/-- The head of a function up to the parenthesis of its parameters. -/
structure GoFunctionHead where
  start : GoFunctionStart
  name : TypeName
  gap : Gap

namespace GoReceiver

def printName (r : GoReceiver) : List Char :=
  r.name.elim [] fun named => named.1.text ++ named.2.text

def printPointer (r : GoReceiver) : List Char :=
  if r.pointer then ['*'] else []

def printArguments (r : GoReceiver) : List Char :=
  r.arguments.elim [] fun a => '[' :: (a.text ++ [']'])

/-- A receiver from its type on. -/
def printType (r : GoReceiver) : List Char :=
  r.printPointer ++ (r.type.text ++ (r.printArguments ++ r.trailing.text))

/-- A receiver without its parentheses. -/
def inside (r : GoReceiver) : List Char :=
  r.gap.text ++ (r.printName ++ r.printType)

def print (r : GoReceiver) : List Char :=
  '(' :: (r.inside ++ [')'])

end GoReceiver

def GoFunctionStart.print : GoFunctionStart → List Char
  | function space => space.text
  | method gap receiver after => gap.text ++ (receiver.print ++ after.text)

/-- The type of the receiver, if there is one. -/
def GoFunctionStart.receiver? : GoFunctionStart → Option (List Char)
  | function _ => none
  | method _ receiver _ => some receiver.type.text

def GoFunctionHead.print (h : GoFunctionHead) : List Char :=
  "func".toList ++ (h.start.print ++ (h.name.text ++ (h.gap.text ++ ['('])))

/-! ## Receivers -/

/-- The name of a receiver with the blanks behind it. -/
def receiverName : Pattern :=
  word ++ blanks1

/-- A receiver from its type on, with the blanks behind it. -/
def receiverType : Pattern :=
  opt (lit "*") ++ capture 1 word ++ opt squareList ++ blanks ++ lit ")" ++ blanks

/-- A receiver as the declarations of a source are searched for it. -/
def goReceiver : Pattern :=
  lit "(" ++ blanks ++ opt receiverName ++ opt (lit "*") ++ capture 1 word ++ opt squareList ++ blanks
    ++ lit ")" ++ blanks

/-- A receiver as the body of a function is searched for it. -/
def anyReceiver : Pattern :=
  lit "(" ++ many (· != ')') ++ lit ")" ++ blanks

section Receivers

variable {limit : Nat} {p : Place} {rest : List Char}

theorem takesFirst_squareList (a : ReceiverArguments)
    (htext : p.rest = '[' :: (a.text ++ ']' :: rest)) :
    squareList.TakesFirst limit p ('[' :: (a.text ++ [']'])) rest [] := by
  have hopen : (lit "[").TakesFirst limit p "[".toList (a.text ++ ']' :: rest) [] :=
    takesFirst_lit htext
  have hinside : (many (· != ']')).TakesFirst limit
      (p.after "[".toList (a.text ++ ']' :: rest) []) a.text (']' :: rest) [] :=
    takesFirst_many rfl (fun c hc => bne_iff_ne.mpr fun heq => a.noBracket (heq ▸ hc))
      (forall_head?_cons (by decide) rest)
  exact (hopen.append hinside).append (takesFirst_lit (s := "]") rfl)

/-- Where no bracket stands, there are no arguments. -/
theorem fails_squareList (h : p.rest.head? ≠ some '[') : squareList.Fails limit p :=
  ((fails_lit (s := "[") rfl h).append _).append _

theorem takesFirst_arguments (r : GoReceiver) (hbracket : rest.head? ≠ some '[')
    (htext : p.rest = r.printArguments ++ rest) :
    (opt squareList).TakesFirst limit p r.printArguments rest [] := by
  rw [GoReceiver.printArguments] at htext ⊢
  cases harguments : r.arguments with
  | none =>
      rw [harguments] at htext
      obtain rfl : p.rest = rest := htext
      exact (fails_squareList hbracket).opt
  | some a =>
      rw [harguments] at htext
      exact (takesFirst_squareList a (by rw [htext]; simp)).opt

theorem takesFirst_pointer (limit : Nat) (r : GoReceiver) (hrest : rest.head? ≠ some '*')
    (htext : p.rest = r.printPointer ++ rest) :
    (opt (lit "*")).TakesFirst limit p r.printPointer rest [] := by
  rw [GoReceiver.printPointer] at htext ⊢
  cases hpointer : r.pointer with
  | false =>
      rw [hpointer] at htext
      obtain rfl : p.rest = rest := htext
      exact (fails_lit (s := "*") rfl hrest).opt
  | true =>
      rw [hpointer] at htext
      exact (takesFirst_lit (s := "*") htext).opt

theorem head?_ne {c : Char} {s : List Char} (h : ∀ d ∈ s.head?, d ≠ c) : s.head? ≠ some c :=
  fun hc => h c hc rfl

/-- What follows the type of a receiver is no longer its name. -/
theorem head_printArguments (r : GoReceiver) (t : List Char) :
    ∀ c ∈ (r.printArguments ++ (r.trailing.text ++ ')' :: t)).head?, isWord c = false := by
  rw [GoReceiver.printArguments]
  cases r.arguments with
  | none =>
      intro c hc
      rcases r.trailing.head_append_cons ')' t c hc with hblank | rfl
      · exact isWord_of_isBlank hblank
      · decide
  | some a => exact forall_head?_cons (by decide) _

theorem takesFirst_receiverType (limit : Nat) (r : GoReceiver) (after : Gap)
    (hrest : ∀ c ∈ rest.head?, isBlank c = false)
    (htext : p.rest = r.printType ++ ')' :: (after.text ++ rest)) :
    ∃ c : Capture, c.text = r.type.text
      ∧ receiverType.TakesFirst limit p (r.printType ++ ')' :: after.text) rest [(1, c)] := by
  have hstar : ∀ t : List Char, (r.type.text ++ t).head? ≠ some '*' := fun t => head?_ne <|
    forall_head?_append r.type.nonempty (fun c hc heq => by
      subst heq
      exact absurd (r.type.ofWords _ hc) (by decide)) t
  have hbracket : (r.trailing.text ++ ')' :: (after.text ++ rest)).head? ≠ some '[' :=
    head?_ne fun c hc => by
      rcases r.trailing.head_append_cons ')' _ c hc with hblank | rfl
      · rintro rfl
        exact absurd hblank (by decide)
      · decide
  have hpointer := takesFirst_pointer limit (p := p) r (hstar (r.printArguments
    ++ (r.trailing.text ++ ')' :: (after.text ++ rest)))) (by rw [htext]; simp [GoReceiver.printType])
  have hname : ∀ q : Place, q.rest = r.type.text ++ (r.printArguments ++ (r.trailing.text
      ++ ')' :: (after.text ++ rest))) → word.TakesFirst limit q r.type.text
        (r.printArguments ++ (r.trailing.text ++ ')' :: (after.text ++ rest))) [] := fun q hq =>
    takesFirst_many1 hq r.type.nonempty r.type.ofWords (head_printArguments r _)
  obtain ⟨c, hc, htype⟩ := takesFirst_captured 1 (hname (p.after r.printPointer _ []) rfl)
  have harguments : ∀ q : Place, q.rest = r.printArguments ++ (r.trailing.text
      ++ ')' :: (after.text ++ rest)) → (opt squareList).TakesFirst limit q r.printArguments
        (r.trailing.text ++ ')' :: (after.text ++ rest)) [] :=
    fun q hq => takesFirst_arguments r hbracket hq
  have hclose := ((hpointer.append htype).append (harguments _ rfl)).append
    (r.trailing.takesFirst (forall_head?_cons (by decide) _) rfl)
  have hparenthesis : ∀ q : Place, q.rest = ')' :: (after.text ++ rest) →
      (lit ")").TakesFirst limit q [')'] (after.text ++ rest) [] := fun q hq =>
    takesFirst_lit (s := ")") hq
  have hwhole := (hclose.append (hparenthesis _ rfl)).append (after.takesFirst hrest rfl)
  refine ⟨c, hc, ?_⟩
  simp only [List.append_assoc, List.nil_append, List.append_nil, List.singleton_append] at hwhole
  simp only [GoReceiver.printType, List.append_assoc]
  exact hwhole

/-- Behind the type of a receiver a bracket or the parenthesis stands next. -/
theorem visible_printArguments (r : GoReceiver) (t : List Char) :
    ∃ c, visible (r.printArguments ++ (r.trailing.text ++ ')' :: t)) = some c
      ∧ isWord c = false ∧ c ≠ '*' := by
  rw [GoReceiver.printArguments]
  cases r.arguments with
  | none =>
      refine ⟨')', ?_, by decide, by decide⟩
      rw [Option.elim_none, List.nil_append, visible_append r.trailing.ofBlanks]
      exact visible_cons (by decide) t
  | some a => exact ⟨'[', visible_cons (by decide) _, by decide, by decide⟩

/-- Where a receiver is read from its type on, its type or the mark of a pointer stands next. -/
theorem visible_of_receiverType {before : Option Char} {taken rest : List Char}
    (h : receiverType.Takes before taken rest) :
    ∃ c, visible (taken ++ rest) = some c ∧ (isWord c = true ∨ c = '*') := by
  obtain ⟨_, _, rfl, ⟨_, _, rfl, ⟨_, _, rfl, ⟨_, _, rfl, ⟨star, type, rfl, hstar, htype⟩, -⟩, -⟩, -⟩,
    -⟩ := h
  rcases takes_opt.mp hstar with hstar | rfl
  · rw [takes_lit.mp hstar]
    exact ⟨'*', visible_cons (by decide) _, Or.inr rfl⟩
  · obtain ⟨hne, hwords⟩ := takes_many1.mp htype
    obtain ⟨c, type, rfl⟩ := List.exists_cons_of_ne_nil hne
    have hc := hwords c List.mem_cons_self
    exact ⟨c, visible_cons (isBlank_of_isWord hc) _, Or.inl hc⟩

/-- Without a name, the type of a receiver is not read as one. -/
theorem fails_receiverName (r : GoReceiver) (htext : p.rest = r.printType ++ ')' :: rest) :
    (receiverName ++ receiverType).Fails limit p := by
  refine fails_of_not_takes fun taken rest' hrest htakes => ?_
  obtain ⟨_, t, rfl, ⟨w, gap, rfl, hname, hgap⟩, htype⟩ := htakes
  obtain ⟨hne, hwords⟩ := takes_many1.mp hname
  obtain ⟨hgap, hgap'⟩ := takes_many1.mp hgap
  have hsplit : r.printPointer ++ (r.type.text ++ (r.printArguments ++ (r.trailing.text ++ ')' :: rest)))
      = w ++ (gap ++ (t ++ rest')) := by
    have hboth := htext.symm.trans hrest
    simpa only [GoReceiver.printType, List.append_assoc] using hboth
  rw [GoReceiver.printPointer] at hsplit
  cases hpointer : r.pointer with
  | true =>
      rw [hpointer] at hsplit
      obtain ⟨c, w, rfl⟩ := List.exists_cons_of_ne_nil hne
      have hc := hwords c List.mem_cons_self
      rw [← (List.cons.inj hsplit).1] at hc
      exact absurd hc (by decide)
  | false =>
      rw [hpointer] at hsplit
      -- the word is the type, and what stands next behind it is no type
      obtain ⟨-, hafter⟩ := append_inj_of_span (head_printArguments r rest)
        (forall_head?_append hgap (fun c hc => isWord_of_isBlank (hgap' c hc)) _) r.type.text
        r.type.ofWords hwords hsplit
      obtain ⟨c, hc, hword, hstar⟩ := visible_printArguments r rest
      obtain ⟨d, hd, hnext⟩ := visible_of_receiverType htype
      rw [hafter, visible_append hgap', hd] at hc
      obtain rfl := Option.some.inj hc
      rcases hnext with hnext | hnext
      · exact Bool.false_ne_true (hword.symm.trans hnext)
      · exact hstar hnext

theorem head_printType (r : GoReceiver) (t : List Char) :
    ∀ c ∈ (r.printType ++ t).head?, isBlank c = false := by
  have htype : ∀ t : List Char, ∀ c ∈ (r.type.text ++ t).head?, isBlank c = false :=
    forall_head?_append r.type.nonempty fun c hc => isBlank_of_isWord (r.type.ofWords c hc)
  rw [GoReceiver.printType, GoReceiver.printPointer, List.append_assoc, List.append_assoc]
  cases r.pointer with
  | false => exact htype _
  | true => exact forall_head?_cons (by decide) _

/-- The name of a receiver is passed over. -/
theorem takesFirst_receiverName (limit : Nat) (r : GoReceiver) (after : Gap)
    (hrest : ∀ c ∈ rest.head?, isBlank c = false)
    (htext : p.rest = r.printName ++ (r.printType ++ ')' :: (after.text ++ rest))) :
    ∃ c : Capture, c.text = r.type.text
      ∧ (opt receiverName ++ receiverType).TakesFirst limit p
        (r.printName ++ (r.printType ++ ')' :: after.text)) rest [(1, c)] := by
  rw [GoReceiver.printName] at htext ⊢
  cases hname : r.name with
  | none =>
      rw [hname] at htext
      obtain ⟨c, hc, htype⟩ := takesFirst_receiverType limit r after hrest htext
      exact ⟨c, hc, (fails_receiverName r htext).opt_append htype⟩
  | some named =>
      obtain ⟨name, space⟩ := named
      rw [hname] at htext
      have hword : word.TakesFirst limit p name.text
          (space.text ++ (r.printType ++ ')' :: (after.text ++ rest))) [] :=
        takesFirst_many1 (htext.trans (List.append_assoc ..)) name.nonempty name.ofWords
          fun c hc => isWord_eq_false (space.head_append _ c hc)
      have hspace := hword.append (space.takesFirst (head_printType r _) rfl)
      obtain ⟨c, hc, htype⟩ := takesFirst_receiverType limit r after hrest
        (p := p.after (name.text ++ space.text) (r.printType ++ ')' :: (after.text ++ rest)) ([] ++ []))
        rfl
      exact ⟨c, hc, (hspace.opt).append htype⟩

theorem takesFirst_goReceiver (limit : Nat) (r : GoReceiver) (after : Gap)
    (hrest : ∀ c ∈ rest.head?, isBlank c = false)
    (htext : p.rest = r.print ++ (after.text ++ rest)) :
    ∃ c : Capture, c.text = r.type.text
      ∧ goReceiver.TakesFirst limit p (r.print ++ after.text) rest [(1, c)] := by
  have hopen : (lit "(").TakesFirst limit p ['('] (r.gap.text ++ (r.printName ++ (r.printType
      ++ ')' :: (after.text ++ rest)))) [] :=
    takesFirst_lit (s := "(") (by rw [htext]; simp [GoReceiver.print, GoReceiver.inside])
  have hname : ∀ c ∈ (r.printName ++ (r.printType ++ ')' :: (after.text ++ rest))).head?,
      isBlank c = false := by
    rw [GoReceiver.printName]
    cases r.name with
    | none => exact head_printType r _
    | some named =>
        rw [Option.elim_some, List.append_assoc]
        exact forall_head?_append named.1.nonempty
          (fun c hc => isBlank_of_isWord (named.1.ofWords c hc)) _
  have hgap := hopen.append (r.gap.takesFirst hname rfl)
  obtain ⟨c, hc, hnamed⟩ := takesFirst_receiverName limit r after hrest
    (p := p.after (['('] ++ r.gap.text) (r.printName ++ (r.printType ++ ')' :: (after.text ++ rest)))
      ([] ++ [])) rfl
  have hwhole := hgap.append hnamed
  refine ⟨c, hc, ?_⟩
  have hprint : ['('] ++ r.gap.text ++ (r.printName ++ (r.printType ++ ')' :: after.text))
      = r.print ++ after.text := by simp [GoReceiver.print, GoReceiver.inside]
  rw [hprint] at hwhole
  exact ⟨hwhole.text, hwhole.first⟩

/-- Where no parenthesis stands, there is no receiver. -/
theorem fails_goReceiver (h : p.rest.head? ≠ some '(') : goReceiver.Fails limit p := by
  have hopen : (lit "(").Fails limit p := fails_lit (s := "(") rfl h
  exact (((((((hopen.append _).append _).append _).append _).append _).append _).append _).append _

theorem fails_anyReceiver (h : p.rest.head? ≠ some '(') : anyReceiver.Fails limit p := by
  have hopen : (lit "(").Fails limit p := fails_lit (s := "(") rfl h
  exact ((hopen.append _).append _).append _

/-- No parenthesis closes within a receiver. -/
theorem parenthesis_not_mem_inside (r : GoReceiver) : ')' ∉ r.inside := by
  have hgap : ∀ gap : Gap, ')' ∉ gap.text := fun gap hmem => absurd (gap.ofBlanks _ hmem) (by decide)
  have hname : ∀ name : TypeName, ')' ∉ name.text := fun name hmem =>
    absurd (name.ofWords _ hmem) (by decide)
  have hnamed : ')' ∉ r.printName := by
    rw [GoReceiver.printName]
    cases r.name with
    | none => exact List.not_mem_nil
    | some named => exact fun hmem => (List.mem_append.mp hmem).elim (hname _) (hgap named.2.toGap)
  have hpointer : ')' ∉ r.printPointer := by
    rw [GoReceiver.printPointer]
    cases r.pointer <;> decide
  have harguments : ')' ∉ r.printArguments := by
    rw [GoReceiver.printArguments]
    cases r.arguments with
    | none => exact List.not_mem_nil
    | some a => simp [a.noParenthesis]
  simp [GoReceiver.inside, GoReceiver.printType, hgap, hname, hnamed, hpointer, harguments]

theorem takesFirst_anyReceiver (r : GoReceiver) (after : Gap)
    (hrest : ∀ c ∈ rest.head?, isBlank c = false)
    (htext : p.rest = r.print ++ (after.text ++ rest)) :
    anyReceiver.TakesFirst limit p (r.print ++ after.text) rest [] := by
  have hopen : (lit "(").TakesFirst limit p ['('] (r.inside ++ ')' :: (after.text ++ rest)) [] :=
    takesFirst_lit (s := "(") (by rw [htext]; simp [GoReceiver.print])
  have hinside : ∀ q : Place, q.rest = r.inside ++ ')' :: (after.text ++ rest) →
      (many (· != ')')).TakesFirst limit q r.inside (')' :: (after.text ++ rest)) [] := fun q hq =>
    takesFirst_many hq
      (fun c hc => bne_iff_ne.mpr fun heq => parenthesis_not_mem_inside r (heq ▸ hc))
      (forall_head?_cons (by decide) _)
  have hclose : ∀ q : Place, q.rest = ')' :: (after.text ++ rest) →
      (lit ")").TakesFirst limit q [')'] (after.text ++ rest) [] := fun q hq =>
    takesFirst_lit (s := ")") hq
  have hwhole := ((hopen.append (hinside _ rfl)).append (hclose _ rfl)).append
    (after.takesFirst hrest rfl)
  have hprint : ['('] ++ r.inside ++ [')'] ++ after.text = r.print ++ after.text := by
    simp [GoReceiver.print]
  rw [hprint] at hwhole
  exact hwhole

end Receivers

/-! ## Heads are matched -/

section Heads

variable {limit : Nat} {p : Place} {rest : List Char}

/-- The word that heads start with, and the blanks behind it. -/
def funcWord : Pattern :=
  wordEdge ++ lit "func" ++ blanks

/-- The type of a receiver is remembered under 1. -/
def IsReceiverCapture (receiver? : Option (List Char)) (new : List (Nat × Capture)) : Prop :=
  match receiver? with
  | none => new = []
  | some type => ∃ c : Capture, c.text = type ∧ new = [(1, c)]

theorem takesFirst_funcWord (limit : Nat) (gap : Gap)
    (hrest : ∀ c ∈ rest.head?, isBlank c = false) (hbefore : ∀ c ∈ p.before, isWord c = false)
    (htext : p.rest = "func".toList ++ (gap.text ++ rest)) :
    funcWord.TakesFirst limit p ("func".toList ++ gap.text) rest [] := by
  have hedge : wordEdge.TakesFirst limit p [] p.rest [] :=
    takesFirst_edge_of_word (c := 'f') (by decide) hbefore htext
  have hword : (lit "func").TakesFirst limit (p.after [] p.rest []) "func".toList (gap.text ++ rest)
      [] := takesFirst_lit htext
  exact (hedge.append hword).append (gap.takesFirst hrest rfl)

/-- Where a pattern takes receivers and fails without a parenthesis, the start of each head is taken. -/
theorem takesFirst_start (limit : Nat) (receiver : Pattern)
    (remembered : Option (List Char) → List (Nat × Capture) → Prop)
    (hnone : remembered none [] ∧ ∀ q : Place, q.rest.head? ≠ some '(' → receiver.Fails limit q)
    (hsome : ∀ (r : GoReceiver) (after : Gap) (q : Place), q.rest = r.print ++ (after.text ++ rest) →
      ∃ new, remembered (some r.type.text) new
        ∧ receiver.TakesFirst limit q (r.print ++ after.text) rest new)
    (start : GoFunctionStart) (hrest : ∀ c ∈ rest.head?, isWord c = true)
    (hbefore : ∀ c ∈ p.before, isWord c = false)
    (htext : p.rest = "func".toList ++ (start.print ++ rest)) :
    ∃ new, remembered start.receiver? new
      ∧ (funcWord ++ opt receiver).TakesFirst limit p ("func".toList ++ start.print) rest new := by
  cases start with
  | function space =>
      have hword := takesFirst_funcWord limit space.toGap
        (fun c hc => isBlank_of_isWord (hrest c hc)) hbefore htext
      have hparenthesis : rest.head? ≠ some '(' := head?_ne fun c hc => by
        rintro rfl
        exact absurd (hrest _ hc) (by decide)
      have hwhole := hword.append
        (hnone.2 (p.after ("func".toList ++ space.text) rest []) hparenthesis).opt
      rw [List.append_nil] at hwhole
      exact ⟨[], hnone.1, hwhole⟩
  | method gap r after =>
      have htext : p.rest = "func".toList ++ (gap.text ++ (r.print ++ (after.text ++ rest))) := by
        rw [htext]
        simp [GoFunctionStart.print]
      have hword := takesFirst_funcWord limit gap (forall_head?_cons (by decide) _) hbefore
        htext
      obtain ⟨new, hnew, hreceiver⟩ := hsome r after
        (p.after ("func".toList ++ gap.text) (r.print ++ (after.text ++ rest)) []) rfl
      have hwhole := hword.append hreceiver.opt
      rw [List.append_nil, List.append_assoc] at hwhole
      exact ⟨new, hnew, hwhole⟩

/-- What stands behind the name of a head. -/
theorem GoFunctionHead.head_gap (h : GoFunctionHead) (t : List Char) :
    ∀ c ∈ (h.gap.text ++ '(' :: t).head?, isWord c = false :=
  fun c hc => isWord_eq_false (h.gap.head_append (forall_head?_cons (by decide) t) c hc)

theorem GoFunctionHead.print_append (h : GoFunctionHead) (t : List Char) :
    h.print ++ t = "func".toList ++ (h.start.print ++ (h.name.text ++ (h.gap.text ++ '(' :: t))) := by
  simp only [print, List.append_assoc, List.singleton_append]

theorem GoFunctionHead.head_name (h : GoFunctionHead) (t : List Char) :
    ∀ c ∈ (h.name.text ++ t).head?, isWord c = true :=
  forall_head?_append h.name.nonempty h.name.ofWords t

theorem takesFirst_parenthesis (gap : Gap) (htext : p.rest = gap.text ++ '(' :: rest) :
    (blanks ++ lit "(").TakesFirst limit p (gap.text ++ ['(']) rest [] :=
  gap.takesFirst_mark rfl (by decide) htext

/-- A head is found as that of a declaration: its receiver and its name are remembered. -/
theorem matchHere?_goFunctionHead (limit : Nat) {h : GoFunctionHead}
    (hbefore : ∀ c ∈ p.before, isWord c = false) (hcaptures : p.captures = []) (htext : p.rest = h.print ++ rest) :
    ∃ m, goFunctionHead.matchHere? limit p = some m ∧ m.start = p.index
      ∧ m.stop = p.index + h.print.length ∧ m.group? 1 = h.start.receiver?
      ∧ m.group 2 = h.name.text := by
  rw [h.print_append] at htext
  obtain ⟨new, hnew, hstart⟩ := takesFirst_start limit goReceiver IsReceiverCapture
    ⟨rfl, fun q hq => fails_goReceiver hq⟩
    (fun r after q hq => by
      obtain ⟨c, hc, hreceiver⟩ := takesFirst_goReceiver limit r after
        (fun c hc => isBlank_of_isWord (h.head_name _ c hc)) hq
      exact ⟨_, ⟨c, hc, rfl⟩, hreceiver⟩)
    h.start (h.head_name _) hbefore htext
  have hword : ∀ q : Place, q.rest = h.name.text ++ (h.gap.text ++ '(' :: rest) →
      word.TakesFirst limit q h.name.text (h.gap.text ++ '(' :: rest) [] := fun q hq =>
    takesFirst_many1 hq h.name.nonempty h.name.ofWords (h.head_gap rest)
  obtain ⟨c, hc, hname⟩ := takesFirst_captured 2
    (hword (p.after ("func".toList ++ h.start.print) _ new) rfl)
  have hgap := (hstart.append hname).append (h.gap.takesFirst (forall_head?_cons (by decide) rest) rfl)
  have hlist : ∀ q : Place, q.rest = '(' :: rest →
      (opt squareList).TakesFirst limit q [] ('(' :: rest) [] := fun q hq => by
    have hskip : squareList.Fails limit q := fails_squareList <| by
      rw [hq]
      exact fun h => absurd (Option.some.inj h) (by decide)
    exact hq ▸ hskip.opt
  have hopen : ∀ q : Place, q.rest = '(' :: rest → (lit "(").TakesFirst limit q ['('] rest [] :=
    fun q hq => takesFirst_lit (s := "(") hq
  have hwhole := (hgap.append (hlist _ rfl)).append (hopen _ rfl)
  refine ⟨_, matchHere?_of_takesFirst hwhole, rfl, ?_, ?_, ?_⟩
  · show p.index + _ = _
    simp [GoFunctionHead.print]
  · rw [hcaptures]
    cases hreceiver : h.start.receiver? with
    | none =>
        rw [hreceiver] at hnew
        obtain rfl := hnew
        rfl
    | some type =>
        rw [hreceiver] at hnew
        obtain ⟨d, rfl, rfl⟩ := hnew
        rfl
  · exact hc

/-- A head is found as that of the function of its name. -/
theorem matchHere?_goFunctionNamed (limit : Nat) {h : GoFunctionHead}
    (hbefore : ∀ c ∈ p.before, isWord c = false) (htext : p.rest = h.print ++ rest) :
    ∃ m, (goFunctionNamed h.name.text).matchHere? limit p = some m ∧ m.start = p.index
      ∧ m.stop = p.index + h.print.length := by
  rw [h.print_append] at htext
  obtain ⟨_, rfl, hstart⟩ := takesFirst_start limit anyReceiver (fun _ new => new = [])
    ⟨rfl, fun q hq => fails_anyReceiver hq⟩
    (fun r after q hq => ⟨[], rfl, takesFirst_anyReceiver r after
      (fun c hc => isBlank_of_isWord (h.head_name _ c hc)) hq⟩)
    h.start (h.head_name _) hbefore htext
  have hname : ∀ q : Place, q.rest = h.name.text ++ (h.gap.text ++ '(' :: rest) →
      (ofChars h.name.text).TakesFirst limit q h.name.text (h.gap.text ++ '(' :: rest) [] :=
    fun q hq => takesFirst_ofChars h.name.text hq
  have hwhole := (hstart.append (hname _ rfl)).append (takesFirst_parenthesis h.gap rfl)
  refine ⟨_, matchHere?_of_takesFirst (takesFirst_append_assoc.mpr hwhole), rfl, ?_⟩
  show p.index + _ = _
  simp [GoFunctionHead.print]

end Heads

end ServiceMap.Declaration
