import ServiceMap.Proofs.Declaration.JavaMembers

/-!
# Reading members

The fields and the methods of a printed class are read as they were printed: those whose heads were
found have the name, the type and the parameters that were written, and stand directly in the body
of the class.
-/

namespace ServiceMap.Declaration

open Text Source Pattern

/-! ## Where members stand -/

section Standing

variable {span : Span} {front : List Char} {depth : Nat}

theorem slice_front (front back : List Char) (start : Nat) :
    slice (front ++ back) start front.length = front.drop start := by
  rw [slice, List.take_left]

theorem encloses_of_depthAfter (back : List Char) (hstart : span.start ≤ front.length)
    (hstop : front.length < span.stop)
    (hdepth : Bracket.curly.depthAfter 0 (front.drop span.start) = some 0) :
    span.encloses (front ++ back) front.length = true := by
  have hzero : braceDepth (front ++ back) span.start front.length = 0 :=
    braceDepth_eq (slice_front front back span.start ▸ hdepth)
  simp [Span.encloses, hstart, hstop, hzero]

/-- What stands in a block of a body does not stand directly in the body. -/
theorem not_encloses_of_depthAfter (back : List Char)
    (hdepth : Bracket.curly.depthAfter 0 (front.drop span.start) = some (depth + 1)) :
    span.encloses (front ++ back) front.length = false := by
  have hblock : braceDepth (front ++ back) span.start front.length = (depth + 1 : Nat) :=
    braceDepth_eq (slice_front front back span.start ▸ hdepth)
  have hne : ((depth + 1 : Nat) : Int) ≠ 0 := Int.natCast_ne_zero.mpr (Nat.succ_ne_zero depth)
  rw [Span.encloses, hblock, beq_eq_false_iff_ne.mpr hne, Bool.and_false]

theorem owner?_singleton (span : Span) (masked : List Char) (index : Nat) :
    owner? [span] masked index = if span.encloses masked index then some 0 else none := by
  simp only [owner?, List.zipIdx_cons, List.zipIdx_nil, List.reverse_singleton, List.find?_cons,
    List.find?_nil]
  cases span.encloses masked index <;> rfl

end Standing

/-! ## Words of heads -/

theorem strings_words_printModifiers (modifiers : List JavaModifier) :
    strings (words (printModifiers modifiers)) = modifiers.map Subtype.val := by
  induction modifiers with
  | nil => rfl
  | cons w modifiers ih =>
      obtain ⟨hne, hw⟩ := modifier_isWord w.2
      have hrun : runs isBlank w.val.toList = [w.val.toList] :=
        runs_of_all_not hne fun c hc => isBlank_of_isDottedWord (isDottedWord_of_isWord (hw c hc))
      rw [printModifiers_cons, List.singleton_append, words_eq_runs, runs_append_cons rfl, hrun,
        ← words_eq_runs, List.map_cons, ← ih]
      show String.ofList w.val.toList :: _ = _
      rw [String.ofList_toList]
      rfl

theorem all_words_printModifiers (modifiers : List JavaModifier) :
    (strings (words (printModifiers modifiers))).all javaModifiers.contains = true := by
  rw [strings_words_printModifiers, List.all_eq_true]
  intro w hw
  obtain ⟨w, -, rfl⟩ := List.mem_map.mp hw
  exact List.contains_iff_mem.mpr w.2

theorem not_contains_of_unreserved {w : String} (h : w ∉ javaReservedWords) :
    javaStatementWords.contains w = false ∧ javaModifiers.contains w = false := by
  refine ⟨Bool.eq_false_iff.mpr fun hmem => h ?_, Bool.eq_false_iff.mpr fun hmem => h ?_⟩
  · exact List.mem_append_left _ (List.mem_append_right _ (List.contains_iff_mem.mp hmem))
  · exact List.mem_append_left _ (List.mem_append_left _ (List.contains_iff_mem.mp hmem))

theorem IsPrinted.group_strings {head : JavaHead} {index : Nat} {m : Match}
    (h : IsPrinted head index m) :
    String.ofList (m.group 2) = head.type.toString
      ∧ String.ofList (m.group 3) = head.name.toString :=
  ⟨congrArg String.ofList h.type, congrArg String.ofList h.name⟩

/-! ## The body of a class -/

/-- The members of a class between its braces, the closing one included. -/
def bodyText (members : List JavaMember) : List Char :=
  '\n' :: (printMembers members ++ ['\x7d'])

theorem allFrom_bodyText {gap tail : Pattern} {excluded : List Char} {limit index : Nat}
    {members : List JavaMember} :
    (memberHead gap excluded tail).allFrom limit 0 (some '\x7b') index (bodyText members)
      = (memberHead gap excluded tail).allFrom limit 0 (some '\n') (index + 1)
        (printMembers members ++ ['\x7d']) := by
  have hnone : (memberHead gap excluded tail).matchHere? limit
      ⟨some '\x7b', [] ++ '\n' :: (printMembers members ++ ['\x7d']), index, []⟩ = none :=
    matchHere?_eq_none_of_before startsLine_memberHead (by decide)
  refine (allFrom_line startsLine_memberHead List.not_mem_nil fun m hm =>
    nomatch hnone.symm.trans hm).trans ?_
  rw [hnone]
  rfl

theorem length_bodyStart (front : List Char) :
    (front ++ ['\x7b', '\n']).length = front.length + 2 := List.length_append

/-- No brace is open where the first member starts. -/
theorem depthAfter_bodyStart (front : List Char) :
    Bracket.curly.depthAfter 0 ((front ++ ['\x7b', '\n']).drop (front.length + 1)) = some 0 := by
  have hdrop : (front ++ ['\x7b', '\n']).drop (front.length + 1) = ['\n'] := by
    rw [show front ++ ['\x7b', '\n'] = (front ++ ['\x7b']) ++ ['\n'] by simp]
    exact List.drop_left' List.length_append
  rw [hdrop]
  rfl

/-- The range between the braces of a class. -/
def bodySpan (front : List Char) (members : List JavaMember) : Span :=
  ⟨front.length + 1, front.length + 1 + (bodyText members).length⟩

/-- A match in a block of the class does not stand directly in its body. -/
theorem not_encloses_of_nested {text front before back : List Char} {members : List JavaMember}
    {m : Match} {depth : Nat} (htext : text = before ++ back) (hm : m.start = before.length)
    (hdepth : Bracket.curly.depthAfter 0 (before.drop (front.length + 1)) = some (depth + 1)) :
    (bodySpan front members).encloses text m.start = false := by
  rw [htext, hm]
  exact not_encloses_of_depthAfter back hdepth

theorem JavaMember.two_le_length_print (member : JavaMember) : 2 ≤ member.print.length := by
  cases member with
  | field head =>
      rw [print_field, List.length_append, List.length_append]
      exact Nat.succ_le_succ (Nat.le_add_left _ _)
  | method head parameters body =>
      rw [print_method]
      simp only [List.length_append, List.length_cons, List.length_nil]
      omega

/-- A member between the braces stands directly in the body of the class. -/
theorem encloses_member {text front before back : List Char} {members : List JavaMember}
    {member : JavaMember} (htext : text = before ++ (member.print ++ back))
    (hlength : text.length ≤ (bodySpan front members).stop + (back.length + 1))
    (hbase : front.length + 1 ≤ before.length)
    (hdepth : Bracket.curly.depthAfter 0 (before.drop (front.length + 1)) = some 0) :
    (bodySpan front members).encloses text before.length = true := by
  have htwo := member.two_le_length_print
  rw [htext] at hlength ⊢
  refine encloses_of_depthAfter _ hbase ?_ hdepth
  rw [List.length_append, List.length_append] at hlength
  omega

theorem within_of_matchHere?_at {pattern : Pattern} {limit : Nat} {front s back : List Char}
    {before : Option Char} {m : Match}
    (h : pattern.matchHere? limit ⟨before, s, front.length, []⟩ = some m) :
    m.Within (front ++ (s ++ back)).length := by
  refine within_of_matchHere? ⟨?_, fun _ h => absurd h List.not_mem_nil⟩ h
  rw [List.length_append, List.length_append, ← Nat.add_assoc]
  exact Nat.le_add_right _ _

/-! ## Fields -/

/-- Whether a match is that of a field of a body. -/
def isFieldOf (masked : List Char) (body : Span) (m : Match) : Bool :=
  let type := String.ofList (m.group 2)
  !javaStatementWords.contains type && !javaModifiers.contains type
    && body.encloses masked m.start && (strings (words (m.group 1))).all javaModifiers.contains

/-- The field that a match has found. -/
def readField (source : SourceText) (m : Match) : Except Fault Property := do
  let preamble ← readPreamble annotatedStyle source.text source.masked (m.groupStart 1)
  return {
    name := String.ofList (m.group 3)
    type := String.ofList (m.group 2)
    description := String.ofList preamble.description
    annotations := strings preamble.annotations }

theorem javaFields_eq (source : SourceText) (body : Span) :
    javaFields source body
      = ((javaField.findBetween source.masked body.start body.stop).filter
          (isFieldOf source.masked body)).mapM (readField source) := rfl

/-- No field is found at the head of a method. -/
theorem fieldHead_eq_none {before : Option Char} {limit index : Nat} {head : JavaHead}
    {parameters : List JavaParameter} {body : JavaBody} {rest : List Char}
    (hat : '@' ∉ (JavaMember.method head parameters body).print ++ rest) :
    fieldHead.matchHere? limit
      ⟨before, (JavaMember.method head parameters body).print ++ rest, index, []⟩ = none := by
  rw [JavaMember.print, List.append_assoc, List.cons_append] at hat ⊢
  exact matchHere?_print_eq_none isHeadPattern_field (by decide) hat fun _ _ _ h =>
    (isEnding_of_fieldEnd h).2

theorem fieldHead_print {limit : Nat} (index : Nat) {head : JavaHead} {rest : List Char}
    (hat : '@' ∉ (JavaMember.field head).print ++ rest)
    (hlimit : ((JavaMember.field head).print ++ rest).length ≤ limit) :
    ∃ m, fieldHead.matchHere? limit
        ⟨some '\n', (JavaMember.field head).print ++ rest, index, []⟩ = some m
      ∧ IsPrinted head index m := by
  have htail : ∀ before, fieldEnd.Takes before [';'] ('\n' :: rest) := fun before =>
    ⟨[], [';'], rfl, takes_opt.mpr (Or.inr rfl), takes_lit.mpr rfl⟩
  rw [print_field, List.append_assoc, List.append_assoc] at hat hlimit ⊢
  exact exists_isPrinted isMemberPattern_field (fun _ _ => rfl) (by decide) (by decide) htail hat
    hlimit index

theorem isFieldOf_of_isPrinted {masked : List Char} {body : Span} {head : JavaHead} {index : Nat}
    {m : Match} (h : IsPrinted head index m) (hencloses : body.encloses masked index = true) :
    isFieldOf masked body m = true := by
  obtain ⟨htype, -⟩ := h.group_strings
  obtain ⟨hstatement, hmodifier⟩ := not_contains_of_unreserved head.type.toString_unreserved
  rw [isFieldOf, htype, hstatement, hmodifier, h.start, hencloses, h.modifiers,
    all_words_printModifiers]
  rfl

theorem readField_of_isPrinted {source : SourceText} {head : JavaHead} {index : Nat} {m : Match}
    (h : IsPrinted head index m) (hwithin : m.Within source.masked.length) :
    (readField source m).map (fun p => (p.name, p.type))
      = .ok (head.name.toString, head.type.toString) := by
  obtain ⟨htype, hname⟩ := h.group_strings
  obtain ⟨preamble, hpreamble⟩ := neverFails_iff.mp <|
    readPreamble_neverFails annotatedStyle_isTotal source.text (hwithin.groupStart 1)
  rw [readField, hpreamble, ← hname, ← htype]
  rfl

/-- At a member that stands in the body, a field is found and read if the member is one. -/
theorem field_of_member {source : SourceText} {span : Span} {member : JavaMember} {limit : Nat}
    {before rest post : List Char}
    (hmasked : source.masked = before ++ (member.print ++ (rest ++ post)))
    (hencloses : span.encloses source.masked before.length = true)
    (hat : '@' ∉ member.print ++ rest) (hlimit : (member.print ++ rest).length ≤ limit) :
    ((fieldHead.matchHere? limit
        ⟨some '\n', member.print ++ rest, before.length, []⟩).toList.filter
          (isFieldOf source.masked span)).map
          (fun m => (readField source m).map fun p => (p.name, p.type))
      = (member.field?.map Except.ok).toList := by
  cases member with
  | method head parameters body =>
      rw [fieldHead_eq_none hat]
      rfl
  | field head =>
      obtain ⟨m, hm, hprinted⟩ := fieldHead_print before.length hat hlimit
      have hwithin : m.Within source.masked.length := by
        rw [hmasked, ← List.append_assoc _ rest]
        exact within_of_matchHere?_at hm
      rw [hm, Option.toList_some,
        List.filter_cons_of_pos (isFieldOf_of_isPrinted hprinted hencloses), List.filter_nil,
        List.map_singleton, readField_of_isPrinted hprinted hwithin]
      rfl

/-- **Fields are read as they were printed.** -/
theorem javaFields_print {source : SourceText} {front post : List Char}
    {members : List JavaMember}
    (htext : source.masked = (front ++ ['\x7b']) ++ (bodyText members ++ post))
    (hat : '@' ∉ source.masked) :
    ∃ properties, javaFields source (bodySpan front members) = .ok properties
      ∧ properties.map (fun p => (p.name, p.type)) = members.filterMap JavaMember.field? := by
  have hlength : source.masked.length
      = front.length + 1 + ((bodyText members).length + post.length) := by
    rw [htext, List.length_append, List.length_append, List.length_append]
    rfl
  have hfound : javaField.findBetween source.masked (bodySpan front members).start
        (bodySpan front members).stop
      = fieldHead.allFrom (bodyText members).length 0 (some '\n')
        (front ++ ['\x7b', '\n']).length (printMembers members ++ ['\x7d']) := by
    rw [bodySpan, htext, findBetween_middle, allFrom_congr javaField_matchHere?, allFrom_bodyText,
      length_bodyStart]
  rw [javaFields_eq]
  refine exists_mapM_of_map ?_
  rw [hfound, List.map_filterMap]
  -- depths are counted from the brace of the class, one character after `front`
  refine kept_of_members (front.length + 1) ['\x7d'] post isMemberPattern_field hat
    (forall_mem_of_all (by decide)) ?_ ?_ members _ ?_ ?_ (depthAfter_bodyStart front)
  · intro m before back depth hmasked hm hdepth
    rw [isFieldOf, not_encloses_of_nested hmasked hm hdepth, Bool.and_false,
      Bool.false_and]
  · intro member before rest hmasked hrest hbase hdepth
    have htotal := congrArg List.length hmasked
    rw [hlength, List.length_append, List.length_append, List.length_append] at htotal
    refine field_of_member hmasked ?_ hrest (by rw [List.length_append]; omega)
    refine encloses_member hmasked ?_ hbase hdepth
    rw [hlength, List.length_append, bodySpan]
    dsimp only
    omega
  · rw [htext]
    simp [bodyText]
  · rw [length_bodyStart]
    exact Nat.le_succ _

/-! ## Methods -/

/-- The signature of a function. -/
def Signature.ofFunction (f : Function) : Signature :=
  ⟨f.name, f.returnType, f.parameters.map fun p => (p.name, p.type)⟩

/-- No method is found at a field. -/
theorem methodHead_eq_none {before : Option Char} {limit index : Nat} {head : JavaHead}
    {rest : List Char} (hat : '@' ∉ (JavaMember.field head).print ++ rest) :
    methodHead.matchHere? limit ⟨before, (JavaMember.field head).print ++ rest, index, []⟩
      = none := by
  rw [print_field, List.append_assoc, List.append_assoc] at hat ⊢
  exact matchHere?_print_eq_none isHeadPattern_method (by decide) hat fun _ _ _ h hmem =>
    absurd (head?_of_parenthesis h hmem) (by decide)

theorem methodHead_print {limit : Nat} (index : Nat) {head : JavaHead}
    {parameters : List JavaParameter} {body : JavaBody} {rest : List Char}
    (hat : '@' ∉ (JavaMember.method head parameters body).print ++ rest)
    (hlimit : ((JavaMember.method head parameters body).print ++ rest).length ≤ limit) :
    ∃ m, methodHead.matchHere? limit
        ⟨some '\n', (JavaMember.method head parameters body).print ++ rest, index, []⟩ = some m
      ∧ IsPrinted head index m := by
  rw [JavaMember.print, List.append_assoc, List.cons_append] at hat hlimit ⊢
  exact exists_isPrinted isMemberPattern_method (fun _ _ => takes_opt.mpr (Or.inr rfl)) (by decide)
    (by decide) (fun _ => takes_lit.mpr rfl) hat hlimit index

theorem isJavaMethod_of_isPrinted {head : JavaHead} {index : Nat} {m : Match}
    (h : IsPrinted head index m) : isJavaMethod m = true := by
  obtain ⟨htype, hname⟩ := h.group_strings
  obtain ⟨hstatement, hmodifier⟩ := not_contains_of_unreserved head.type.toString_unreserved
  obtain ⟨hnoStatement, -⟩ := not_contains_of_unreserved head.name.toString_unreserved
  rw [isJavaMethod, htype, hname, hstatement, hmodifier, hnoStatement, h.modifiers,
    all_words_printModifiers]
  rfl

theorem javaMethod_of_isPrinted {source : SourceText} {before rest : List Char} {head : JavaHead}
    {parameters : List JavaParameter} {m : Match}
    (htext : source.masked
      = before ++ (head.print ++ '(' :: (printParameters parameters ++ ')' :: rest)))
    (h : IsPrinted head before.length m) (hwithin : m.Within source.masked.length) :
    ∃ declared, javaMethod source m = .ok declared ∧ declared.index = before.length
      ∧ Signature.ofFunction declared.info = ⟨head.name.toString, head.type.toString,
          parameters.map fun p => (p.name.toString, p.type.toString)⟩ := by
  obtain ⟨htype, hname⟩ := h.group_strings
  have hstop : m.stop - 1 = (before ++ head.print).length := by
    rw [h.stop, List.length_append]
    omega
  obtain ⟨stop, hgroup⟩ : ∃ stop, group source.masked (m.stop - 1)
      = .ok (printParameters parameters, stop) := by
    -- parameters hold no parenthesis, so that the first closing one ends their list
    have hmasked : source.masked = (before ++ head.print) ++ Bracket.round.opener
        :: (printParameters parameters ++ Bracket.round.closer :: rest) := by
      rw [htext, List.append_assoc]
      rfl
    have other : ∀ c ∈ printParameters parameters, ∀ d, isHeadChar d = false → c ≠ d :=
      fun c hc d hd heq => not_mem_printParameters hd (heq ▸ hc)
    rw [hstop, hmasked]
    refine ⟨_, group_of_isBalanced (fun c hc => ?_) (Bracket.depthAfter_of_none 0 fun c hc => ?_)⟩
    · exact isAnyQuote_of_isHeadChar (isHeadChar_of_mem_printParameters hc)
    · exact ⟨other c hc _ (by decide), other c hc _ (by decide)⟩
  obtain ⟨body, hbody⟩ := neverFails_iff.mp (javaBody_neverFails source.masked stop)
  obtain ⟨preamble, hpreamble⟩ : ∃ preamble, readPreamble annotatedStyle source.text source.masked
      (if (m.group 1).isEmpty then m.groupStart 2 else m.groupStart 1) = .ok preamble := by
    refine neverFails_iff.mp (readPreamble_neverFails annotatedStyle_isTotal source.text ?_)
    split
    · exact hwithin.groupStart 2
    · exact hwithin.groupStart 1
  obtain ⟨declared, hdeclared, hpairs⟩ := javaParameters_print parameters
  rw [javaMethod, hgroup]
  dsimp only [bind, Except.bind]
  rw [hbody]
  dsimp only
  rw [hpreamble]
  dsimp only
  rw [hdeclared]
  refine ⟨_, rfl, h.start, ?_⟩
  rw [Signature.ofFunction]
  dsimp only
  rw [htype, hname, List.map_map]
  exact congrArg (Signature.mk _ _) hpairs

/-- What stands around the parameters of a method. -/
theorem methodHead_text {text before rest : List Char} {head : JavaHead}
    {parameters : List JavaParameter} {body : JavaBody}
    (h : text = before ++ ((JavaMember.method head parameters body).print ++ rest)) :
    text = before ++ (head.print ++ '(' :: (printParameters parameters
      ++ ')' :: (" \x7b\n".toList ++ (body.text ++ ("\x7d\n".toList ++ rest))))) := by
  rw [h, JavaMember.print]
  simp

/-- Whether a match is that of a method of a body. -/
def isMethodOf (masked : List Char) (body : Span) (m : Match) : Bool :=
  isJavaMethod m && (owner? [body] masked m.start).isSome

theorem javaMethods_eq (source : SourceText) (type : OpenType) :
    javaMethods source [type]
      = (((javaMethodHead.findAll source.masked).filter
          (isMethodOf source.masked type.body)).mapM (javaMethod source)).map
            (ownedMethods [type] source.masked) := rfl

theorem ownedMethods_of_forall {types : List OpenType} {masked : List Char} {number : Nat}
    {methods : List DeclaredMethod}
    (h : ∀ d ∈ methods, owner? (types.map OpenType.body) masked d.index = some number) :
    ownedMethods types masked methods = methods.map (number, ·) := by
  induction methods with
  | nil => rfl
  | cons d methods ih =>
      rw [ownedMethods, List.filterMap_cons, h d List.mem_cons_self]
      exact congrArg ((number, d) :: ·) (ih fun e he => h e (List.mem_cons_of_mem d he))

/-- The line of a class holds no method. -/
theorem allFrom_classLine {front rest : List Char} {limit : Nat}
    (hat : '@' ∉ (front ++ ['\x7b']) ++ '\n' :: rest) (hline : '\n' ∉ front) (hangle : '<' ∉ front)
    (hfront : ∀ c ∈ front, c ∉ [';', '\x7b', '\x7d', '(', ')']) :
    methodHead.allFrom limit 0 none 0 ((front ++ ['\x7b']) ++ '\n' :: rest)
      = methodHead.allFrom limit 0 (some '\n') (front.length + 2) rest := by
  have hnone : methodHead.matchHere? limit
      ⟨none, (front ++ ['\x7b']) ++ '\n' :: rest, 0, []⟩ = none := by
    rw [List.append_assoc] at hat ⊢
    exact matchHere?_eq_none_of_ending isHeadPattern_method rfl hfront (by decide) hat
      (hasNoTypeParameters_of_excluded isHeadPattern_method (by decide) hangle)
      fun _ _ _ h hmem => absurd (head?_of_parenthesis h hmem) (by decide)
  have hclassLine : '\n' ∉ front ++ ['\x7b'] := by
    rw [List.mem_append]
    rintro (h | h)
    · exact hline h
    · exact absurd h (by decide)
  refine (allFrom_line startsLine_memberHead hclassLine fun m hm =>
    nomatch hnone.symm.trans hm).trans ?_
  rw [hnone, List.length_append, Nat.zero_add]
  rfl

/-- At a member that stands in the body, a method is found and read if the member is one. -/
theorem method_of_member {source : SourceText} {span : Span} {member : JavaMember} {limit : Nat}
    {before rest : List Char} (hmasked : source.masked = before ++ (member.print ++ rest))
    (hencloses : span.encloses source.masked before.length = true)
    (hat : '@' ∉ member.print ++ rest) (hlimit : (member.print ++ rest).length ≤ limit) :
    ((methodHead.matchHere? limit
        ⟨some '\n', member.print ++ rest, before.length, []⟩).toList.filter
          (isMethodOf source.masked span)).map
          (fun m => (javaMethod source m).map fun d =>
            (owner? [span] source.masked d.index, Signature.ofFunction d.info))
      = ((member.method?.map (some 0, ·)).map Except.ok).toList := by
  have howner : owner? [span] source.masked before.length = some 0 := by
    rw [owner?_singleton, if_pos hencloses]
  cases member with
  | field head =>
      rw [methodHead_eq_none hat]
      rfl
  | method head parameters body =>
      obtain ⟨m, hm, hprinted⟩ := methodHead_print before.length hat hlimit
      have hwithin : m.Within source.masked.length := by
        rw [hmasked, ← List.append_nil (_ ++ rest)]
        exact within_of_matchHere?_at hm
      have hkeep : isMethodOf source.masked span m = true := by
        rw [isMethodOf, isJavaMethod_of_isPrinted hprinted, hprinted.start, howner]
        rfl
      obtain ⟨declared, hdeclared, hindex, hsignature⟩ := javaMethod_of_isPrinted
        (methodHead_text hmasked) hprinted hwithin
      rw [hm, Option.toList_some, List.filter_cons_of_pos hkeep, List.filter_nil,
        List.map_singleton, hdeclared]
      show [Except.ok (owner? _ _ declared.index, Signature.ofFunction declared.info)] = _
      rw [hindex, hsignature, howner]
      rfl

/-- **Methods are read as they were printed**, and stand in the body of the class. -/
theorem readMethods_print {source : SourceText} {front : List Char} {members : List JavaMember}
    (htext : source.masked = (front ++ ['\x7b']) ++ (bodyText members ++ ['\n']))
    (hat : '@' ∉ source.masked) (hline : '\n' ∉ front) (hangle : '<' ∉ front)
    (hfront : ∀ c ∈ front, c ∉ [';', '\x7b', '\x7d', '(', ')']) :
    ∃ methods : List DeclaredMethod,
      ((javaMethodHead.findAll source.masked).filter
          (isMethodOf source.masked (bodySpan front members))).mapM (javaMethod source)
        = .ok methods
      ∧ methods.map (fun d => (owner? [bodySpan front members] source.masked d.index,
          Signature.ofFunction d.info))
        = members.filterMap fun member => member.method?.map (some 0, ·) := by
  have hlength : source.masked.length = front.length + 1 + ((bodyText members).length + 1) := by
    rw [htext, List.length_append, List.length_append, List.length_append]
    rfl
  have hsplit : source.masked = (front ++ ['\x7b'])
      ++ '\n' :: (printMembers members ++ ['\x7d', '\n']) := by
    rw [htext]
    simp [bodyText]
  -- methods are looked for in the whole text: the line of the class comes before the members
  have hfound : javaMethodHead.findAll source.masked
      = methodHead.allFrom source.masked.length 0 (some '\n') (front ++ ['\x7b', '\n']).length
        (printMembers members ++ ['\x7d', '\n']) := by
    rw [findAll, allFrom_congr javaMethodHead_matchHere?, length_bodyStart]
    rw [hsplit] at hat ⊢
    exact allFrom_classLine hat hline hangle hfront
  refine exists_mapM_of_map ?_
  rw [hfound, List.map_filterMap]
  refine kept_of_members (front.length + 1) ['\x7d', '\n'] [] isMemberPattern_method hat
    (forall_mem_of_all (by decide)) ?_ ?_ members _ ?_ ?_ (depthAfter_bodyStart front)
  · intro m before back depth hmasked hm hdepth
    rw [isMethodOf, owner?_singleton, not_encloses_of_nested hmasked hm hdepth]
    exact Bool.and_false _
  · intro member before rest hmasked hrest hbase hdepth
    rw [List.append_nil] at hmasked
    have htotal := congrArg List.length hmasked
    rw [hlength, List.length_append, List.length_append] at htotal
    refine method_of_member hmasked ?_ hrest (by rw [List.length_append]; omega)
    refine encloses_member hmasked ?_ hbase hdepth
    rw [hlength, bodySpan]
    dsimp only
    omega
  · rw [hsplit]
    simp
  · rw [length_bodyStart]
    exact Nat.le_succ _

theorem javaMethods_print {source : SourceText} {front : List Char} {members : List JavaMember}
    {type : OpenType}
    (htext : source.masked = (front ++ ['\x7b']) ++ (bodyText members ++ ['\n']))
    (hat : '@' ∉ source.masked) (hline : '\n' ∉ front) (hangle : '<' ∉ front)
    (hfront : ∀ c ∈ front, c ∉ [';', '\x7b', '\x7d', '(', ')'])
    (hbody : type.body = bodySpan front members) :
    ∃ methods : List DeclaredMethod, javaMethods source [type] = .ok (methods.map (0, ·))
      ∧ methods.map (fun d => Signature.ofFunction d.info)
        = members.filterMap JavaMember.method? := by
  obtain ⟨methods, hmethods, hseen⟩ := readMethods_print htext hat hline hangle hfront
  have howner : ∀ d ∈ methods,
      owner? ([type].map OpenType.body) source.masked d.index = some 0 := by
    intro d hd
    have hmem := List.mem_map_of_mem (f := fun d : DeclaredMethod =>
      (owner? [bodySpan front members] source.masked d.index, Signature.ofFunction d.info)) hd
    rw [hseen] at hmem
    obtain ⟨member, -, hmember⟩ := List.mem_filterMap.mp hmem
    obtain ⟨_, -, heq⟩ := Option.map_eq_some_iff.mp hmember
    rw [List.map_singleton, hbody]
    exact (Prod.mk.inj heq).1.symm
  refine ⟨methods, ?_, ?_⟩
  · rw [javaMethods_eq, hbody, hmethods]
    exact congrArg Except.ok (ownedMethods_of_forall howner)
  · have hsecond := congrArg (List.map Prod.snd) hseen
    simpa [List.map_filterMap, Function.comp_def] using hsecond

end ServiceMap.Declaration
