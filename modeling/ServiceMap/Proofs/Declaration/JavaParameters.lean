import ServiceMap.Proofs.Declaration.MemberHead
import ServiceMap.Proofs.Declaration.TypedNames
import ServiceMap.Proofs.Pattern.Replaced
import ServiceMap.Proofs.Source.Positions

/-!
# Parameters in print

A list of parameters is read as it was written: each parameter with its name and with its type, the
spaces of the type's arguments included.
-/

namespace ServiceMap.Declaration

open Text Source Pattern

/-! ## Blanks of a type -/

/-- No blank follows another. -/
def HasSingleBlanks (s : List Char) : Prop :=
  ∀ front c d back, s = front ++ c :: d :: back → isBlank c = true → isBlank d = false

theorem hasSingleBlanks_of_visible {s : List Char} (h : ∀ c ∈ s, isBlank c = false) :
    HasSingleBlanks s := by
  rintro front c d back rfl -
  exact h d (by simp)

theorem HasSingleBlanks.append {s t : List Char} (hs : HasSingleBlanks s)
    (ht : HasSingleBlanks t)
    (hparted : (∀ c ∈ s.getLast?, isBlank c = false) ∨ ∀ c ∈ t.head?, isBlank c = false) :
    HasSingleBlanks (s ++ t) := by
  intro front c d back htext hc
  rcases List.append_eq_append_iff.mp htext with ⟨more, hfront, hmore⟩ | ⟨more, hfront, hmore⟩
  · exact ht more c d back hmore hc
  · match more, hmore with
    | [], hmore => exact ht [] c d back hmore.symm hc
    | [e], hmore =>
        -- the two characters meet where `s` ends
        obtain ⟨rfl, rfl⟩ := List.cons.inj hmore
        rcases hparted with h | h
        · rw [hfront] at h
          exact absurd hc (Bool.eq_false_iff.mp (h c (by simp)))
        · exact h d rfl
    | e :: f :: more, hmore =>
        obtain ⟨rfl, hrest⟩ := List.cons.inj hmore
        obtain ⟨rfl, -⟩ := List.cons.inj hrest
        exact hs front c d more hfront hc

theorem eq_space_of_isArgumentChar {c : Char} (hc : isArgumentChar c = true)
    (hblank : isBlank c = true) : c = ' ' := by
  rw [isArgumentChar, Bool.or_eq_true, List.contains_iff_mem] at hc
  rcases hc with hc | hc
  · exact absurd hblank (Bool.eq_false_iff.mp (isBlank_of_isDottedWord hc))
  · have hall : ∀ c ∈ [',', ' ', '<', '>'], isBlank c = true → c = ' ' :=
      forall_mem_of_all (by decide)
    exact hall c hc hblank

theorem JavaTypeText.print_blank (t : JavaTypeText) {c : Char} (hc : c ∈ t.print)
    (hblank : isBlank c = true) : c = ' ' := by
  rcases t.mem_print hc with h | rfl | rfl
  · exact eq_space_of_isArgumentChar h hblank
  · exact absurd hblank (by decide)
  · exact absurd hblank (by decide)

theorem JavaArguments.hasSingleBlanks (a : JavaArguments) : HasSingleBlanks a.text := by
  intro front c d back htext hc
  refine Bool.eq_false_iff.mpr fun hd => a.spaced ⟨front, back, ?_⟩
  have hspace : ∀ {e}, e ∈ a.text → isBlank e = true → e = ' ' := fun he =>
    eq_space_of_isArgumentChar (a.ofArguments _ he)
  rw [htext, hspace (by simp [htext]) hc, hspace (by simp [htext]) hd, List.append_assoc]
  rfl

theorem JavaTypeText.print_hasSingleBlanks (t : JavaTypeText) : HasSingleBlanks t.print := by
  have hname : ∀ c ∈ t.name, isBlank c = false := fun c hc =>
    isBlank_of_isDottedWord (t.ofDottedWords c hc)
  have hpairs : ∀ c ∈ squarePairs t.dimensions, isBlank c = false := by
    intro c hc
    rcases mem_squarePairs hc with rfl | rfl <;> rfl
  refine (hasSingleBlanks_of_visible hname).append ?_
    (Or.inl fun c hc => hname c (List.mem_of_getLast? hc))
  refine HasSingleBlanks.append ?_ (hasSingleBlanks_of_visible hpairs)
    (Or.inr fun c hc => hpairs c (List.mem_of_head? hc))
  cases t.arguments with
  | none => exact hasSingleBlanks_of_visible fun c hc => absurd hc List.not_mem_nil
  | some a =>
      have hbracket : ∀ {b}, b = '<' ∨ b = '>' → HasSingleBlanks [b] := by
        rintro b hb
        refine hasSingleBlanks_of_visible fun c hc => ?_
        rcases hb with rfl | rfl <;> exact List.mem_singleton.mp hc ▸ rfl
      refine (hbracket (Or.inl rfl)).append ?_ (Or.inl fun c hc => Option.some.inj hc ▸ rfl)
      exact a.hasSingleBlanks.append (hbracket (Or.inr rfl))
        (Or.inr fun c hc => Option.some.inj hc ▸ rfl)

theorem JavaTypeText.words_print (t : JavaTypeText) :
    words t.print = splitOn isBlank t.print := by
  have hhead : ∀ c ∈ t.print.head?, isBlank c = false := fun c hc =>
    isBlank_of_isDottedWord ((isTypeLike_print t).head [] c (by simpa using hc))
  exact splitOn_eq_runs (List.append_ne_nil_of_left_ne_nil t.nonempty _) hhead (print_last t)
    t.print_hasSingleBlanks

/-- The words of a type, put together again, are the type. -/
theorem JavaTypeText.join_words (t : JavaTypeText) : join [' '] (words t.print) = t.print := by
  rw [t.words_print]
  exact join_splitOn t.print fun c hc hblank => t.print_blank hc hblank

theorem JavaTypeText.words_unreserved (t : JavaTypeText) {w : List Char} (hw : w ∈ words t.print) :
    String.ofList w ∉ javaReservedWords := by
  intro hmem
  obtain ⟨hne, hwords⟩ := reservedWord_isWord hmem
  rw [String.toList_ofList] at hne hwords
  rw [t.words_print] at hw
  obtain ⟨a, b, htext, ha, hb⟩ := split_of_mem_splitOn hw
  have hnames : w ∈ names t.print := by
    rw [htext]
    exact mem_runs_of_occurrence hne (fun c hc => by simp [hwords c hc])
      (fun c hc => by simp [isWord_of_isBlank (ha c hc)])
      (fun c hc => by simp [isWord_of_isBlank (hb c hc)])
  exact t.print_isFreeOf w hnames hmem

/-! ## One parameter -/

theorem startsWith_parameterMark : parameterMark.StartsWith '@' := by
  rintro before _ rest ⟨_, arguments, rfl, ⟨_, name, rfl, hmark, -⟩, -⟩
  rw [takes_lit.mp hmark]
  rfl

/-- The last word of a parameter is its name, and the words before it are its type. -/
theorem javaParameter?_of_words {part name : List Char} {annotations front : List (List Char)}
    (hannotations : readAnnotations part = .ok annotations) (hfront : front ≠ [])
    (hwords : (words (parameterMark.replaceAll [' '] part)).filter (· != "final".toList)
      = front ++ [name]) :
    javaParameter? part = .ok (some { name, type := join [' '] front, annotations }) := by
  obtain ⟨last, before, hreverse, hbefore⟩ := reverse_of_words hfront name
  rw [javaParameter?, hannotations]
  dsimp only [bind, Except.bind]
  rw [hwords, hreverse]
  dsimp only
  rw [hbefore]
  rfl

/-- What a declared parameter is called and what its type is. -/
def DeclaredParameter.pair (p : DeclaredParameter) : String × String :=
  (String.ofList p.name, String.ofList p.type)

theorem javaParameter?_print (p : JavaParameter) :
    ∃ declared, javaParameter? p.print = .ok (some declared)
      ∧ declared.pair = (p.name.toString, p.type.toString) := by
  obtain ⟨annotations, hannotations⟩ := neverFails_iff.mp (readAnnotations_neverFails p.print)
  have hat : '@' ∉ p.print := fun h => absurd (p.print_isHeadChar _ h) (by decide)
  have hname : words p.name.text = [p.name.text] := by
    rw [words_eq_runs, runs_of_all_not p.name.nonempty]
    exact fun c hc => isBlank_of_isDottedWord (isDottedWord_of_isWord (p.name.ofWords c hc))
  have hwords : words p.print = words p.type.print ++ [p.name.text] := by
    rw [JavaParameter.print, words_eq_runs, runs_append_cons rfl, ← words_eq_runs, ← words_eq_runs,
      hname]
  have hfinal : ∀ w ∈ words p.print, (w != "final".toList) = true := by
    intro w hw
    rw [bne_iff_ne]
    rintro rfl
    rw [hwords, List.mem_append, List.mem_singleton] at hw
    rcases hw with hw | hw
    · exact p.type.words_unreserved hw (by decide)
    · exact p.name.toString_unreserved (by rw [JavaName.toString, ← hw]; decide)
  have hne : words p.type.print ≠ [] := by
    rw [p.type.words_print]
    exact splitOn_ne_nil _ _
  refine ⟨⟨p.name.text, p.type.print, annotations, false⟩, ?_, rfl⟩
  rw [← p.type.join_words]
  refine javaParameter?_of_words hannotations hne ?_
  rw [(startsWith_parameterMark.leaves_of_not_mem hat).replaceAll_eq, List.filter_eq_self.mpr hfinal,
    hwords]

/-! ## Lists of parameters -/

/-- Characters of type arguments do not quote, and the brackets among them are angle brackets. -/
theorem isArgumentChar_brackets {c : Char} (h : isArgumentChar c = true) :
    isQuote c = false ∧ (isOpener c = true → c = Bracket.angle.opener)
      ∧ (isCloser c = true → c = Bracket.angle.closer) := by
  have other : ∀ {d}, isArgumentChar d = false → c ≠ d := fun hd heq =>
    Bool.false_ne_true (hd.symm.trans (heq ▸ h))
  refine ⟨?_, fun hopener => ?_, fun hcloser => ?_⟩
  · rw [isQuote, Bool.or_eq_false_iff, beq_eq_false_iff_ne, beq_eq_false_iff_ne]
    exact ⟨other (by decide), other (by decide)⟩
  · obtain ⟨b, rfl⟩ := Bracket.exists_opener hopener
    cases b with
    | angle => rfl
    | round | square | curly => exact absurd rfl (other (by decide))
  · obtain ⟨b, rfl⟩ := Bracket.exists_closer hcloser
    cases b with
    | angle => rfl
    | round | square | curly => exact absurd rfl (other (by decide))

/-- Names and blanks are part of one piece. -/
theorem pieces_append_of_name {s : List Char}
    (h : ∀ c ∈ s, isDottedWord c = true ∨ c = ' ') (depth : Nat) (t : List Char) :
    pieces ',' depth (s ++ t) = prepend s (pieces ',' depth t) := by
  refine pieces_of_plain depth t fun c hc => ?_
  rcases h c hc with hword | rfl
  · have other : ∀ {d}, isDottedWord d = false → c ≠ d := fun hd heq =>
      Bool.false_ne_true (hd.symm.trans (heq ▸ hword))
    obtain ⟨hquote, hopener, hcloser⟩ :=
      isArgumentChar_brackets (by rw [isArgumentChar, hword, Bool.true_or])
    exact ⟨hquote, Bool.eq_false_iff.mpr fun h => other (by decide) (hopener h),
      Bool.eq_false_iff.mpr fun h => other (by decide) (hcloser h), other (by decide)⟩
  · decide

theorem pieces_squarePairs (n : Nat) (t : List Char) :
    pieces ',' 0 (squarePairs n ++ t) = prepend (squarePairs n) (pieces ',' 0 t) := by
  induction n with
  | zero => exact (prepend_nil (pieces_ne_nil _ _ _)).symm
  | succ n ih =>
      show pieces ',' 0 (Bracket.square.opener :: (Bracket.square.closer :: (squarePairs n ++ t)))
        = _
      rw [pieces_opener, pieces_closer, ih, prepend_prepend, prepend_prepend]
      rfl

/-- Type arguments in their brackets are part of one piece, whatever commas they hold. -/
theorem pieces_arguments (a : JavaArguments) (t : List Char) :
    pieces ',' 0 (a.print ++ t) = prepend a.print (pieces ',' 0 t) := by
  have htext : a.print ++ t
      = Bracket.angle.opener :: (a.text ++ Bracket.angle.closer :: t) := by
    rw [JavaArguments.print, List.cons_append, List.append_assoc]
    rfl
  rw [htext, pieces_opener, pieces_of_nested (Bracket.angle.closer :: t)
    (fun c hc => isArgumentChar_brackets (a.ofArguments c hc)) a.balanced, pieces_closer,
    prepend_prepend, prepend_prepend]
  rfl

/-- A parameter is part of one piece of the list. -/
theorem pieces_print (p : JavaParameter) (t : List Char) :
    pieces ',' 0 (p.print ++ t) = prepend p.print (pieces ',' 0 t) := by
  have harguments : ∀ t, pieces ',' 0 ((p.type.arguments.map JavaArguments.print).getD [] ++ t)
      = prepend ((p.type.arguments.map JavaArguments.print).getD []) (pieces ',' 0 t) := by
    intro t
    cases p.type.arguments with
    | none => exact (prepend_nil (pieces_ne_nil _ _ _)).symm
    | some a => exact pieces_arguments a t
  have hname : ∀ c ∈ [' '] ++ p.name.text, isDottedWord c = true ∨ c = ' ' := by
    intro c hc
    rcases List.mem_append.mp hc with hc | hc
    · exact Or.inr (List.mem_singleton.mp hc)
    · exact Or.inl (isDottedWord_of_isWord (p.name.ofWords c hc))
  have htext : p.print ++ t = p.type.name ++ ((p.type.arguments.map JavaArguments.print).getD []
      ++ (squarePairs p.type.dimensions ++ (([' '] ++ p.name.text) ++ t))) := by
    rw [JavaParameter.print, JavaTypeText.print]
    simp only [List.append_assoc, List.cons_append, List.nil_append]
  rw [htext, pieces_append_of_name fun c hc => Or.inl (p.type.ofDottedWords c hc), harguments,
    pieces_squarePairs, pieces_append_of_name hname, prepend_prepend, prepend_prepend,
    prepend_prepend]
  congr 1
  rw [JavaParameter.print, JavaTypeText.print]
  simp only [List.append_assoc, List.cons_append, List.nil_append]

theorem printParameters_cons_cons (p q : JavaParameter) (parameters : List JavaParameter) :
    printParameters (p :: q :: parameters)
      = p.print ++ ',' :: ' ' :: printParameters (q :: parameters) := by
  rw [printParameters, List.map_cons, List.map_cons, join_cons_cons]
  rfl

theorem pieces_printParameters (parameters : List JavaParameter) (p : JavaParameter) :
    pieces ',' 0 (printParameters (p :: parameters))
      = p.print :: parameters.map fun q => ' ' :: q.print := by
  induction parameters generalizing p with
  | nil =>
      rw [printParameters, List.map_singleton, join, ← List.append_nil p.print, pieces_print,
        pieces]
      rfl
  | cons q parameters ih =>
      -- the blank after the comma starts the next piece
      have hblank : ∀ t, pieces ',' 0 (' ' :: t) = prepend [' '] (pieces ',' 0 t) :=
        pieces_append_of_name (s := [' ']) (fun c hc => Or.inr (List.mem_singleton.mp hc)) 0
      rw [printParameters_cons_cons, pieces_print, pieces_separator rfl (by decide) (by decide),
        hblank, ih]
      simp [prepend]

theorem trim_print (p : JavaParameter) : trim p.print = p.print := by
  refine trim_eq_self (fun c hc => isBlank_of_isDottedWord ?_) fun c hc => ?_
  · exact (isTypeLike_print p.type).head (' ' :: p.name.text) c hc
  · have hlast : p.print.getLast? = some (p.name.text.getLast p.name.nonempty) := by
      rw [JavaParameter.print, ← List.singleton_append, ← List.append_assoc, List.getLast?_append,
        List.getLast?_eq_some_getLast p.name.nonempty]
      rfl
    rw [hlast] at hc
    obtain rfl := Option.some.inj hc
    exact isBlank_of_isDottedWord (isDottedWord_of_isWord
      (p.name.ofWords _ (List.getLast_mem p.name.nonempty)))

theorem parts_printParameters (parameters : List JavaParameter) :
    parts (printParameters parameters) = parameters.map JavaParameter.print := by
  cases parameters with
  | nil =>
      rw [printParameters, parts, partsAt, List.map_nil, join, pieces]
      rfl
  | cons p parameters =>
      have htrimmed : (pieces ',' 0 (printParameters (p :: parameters))).map trim
          = (p :: parameters).map JavaParameter.print := by
        rw [pieces_printParameters, List.map_cons, List.map_map, trim_print, List.map_cons]
        refine congrArg (p.print :: ·) (List.map_congr_left fun q _ => ?_)
        exact (trim_cons rfl q.print).trans (trim_print q)
      rw [parts, partsAt, htrimmed, List.filter_eq_self]
      intro s hs
      obtain ⟨q, -, rfl⟩ := List.mem_map.mp hs
      rw [Bool.not_eq_true', List.isEmpty_eq_false_iff, JavaParameter.print]
      simp

/-- What is read of the parts of a list, one by one. -/
theorem javaParameters_of_parts {α : Type} {print : α → List Char}
    {related : α → DeclaredParameter → Prop} {text : List Char} {list : List α}
    (hparts : parts text = list.map print)
    (h : ∀ p, ∃ declared, javaParameter? (print p) = .ok (some declared) ∧ related p declared) :
    ∃ declared, javaParameters text = .ok declared ∧ List.Forall₂ related list declared := by
  have heach : ∃ declared : List DeclaredParameter,
      (list.map print).mapM javaParameter? = .ok (declared.map some)
        ∧ List.Forall₂ related list declared := by
    clear hparts
    induction list with
    | nil => exact ⟨[], rfl, .nil⟩
    | cons p list ih =>
        obtain ⟨declared, hdeclared, hrelated⟩ := h p
        obtain ⟨others, hothers, hall⟩ := ih
        refine ⟨declared :: others, ?_, .cons hrelated hall⟩
        rw [List.map_cons, List.mapM_cons, hdeclared, hothers]
        rfl
  obtain ⟨declared, hdeclared, hall⟩ := heach
  refine ⟨declared, ?_, hall⟩
  rw [javaParameters, hparts, hdeclared]
  show Except.ok ((declared.map some).filterMap id) = _
  rw [List.filterMap_map]
  exact congrArg Except.ok List.filterMap_some

/-- **Parameters are read as they were written.** -/
theorem javaParameters_print (parameters : List JavaParameter) :
    ∃ declared, javaParameters (printParameters parameters) = .ok declared
      ∧ declared.map DeclaredParameter.pair
        = parameters.map fun p => (p.name.toString, p.type.toString) := by
  obtain ⟨declared, hdeclared, hall⟩ :=
    javaParameters_of_parts (parts_printParameters parameters) javaParameter?_print
  refine ⟨declared, hdeclared, ?_⟩
  clear hdeclared
  induction hall with
  | nil => rfl
  | cons hpair _ ih => rw [List.map_cons, List.map_cons, hpair, ih]

end ServiceMap.Declaration
