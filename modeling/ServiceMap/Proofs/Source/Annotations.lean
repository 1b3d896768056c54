import ServiceMap.Proofs.Source.AtSigns

/-!
# Annotations in print

Annotations as they are written down, and what is read of them. Every at sign with a name is read at
first, also within the arguments of another annotation and within literals. Which of them stay is
decided by their texts alone: one that is part of an earlier one, and not all of it, is left out. So
an annotation of its own gets lost where an earlier one happens to hold its text; and one in a literal
stays where its parenthesis is closed only behind the annotation around it.
-/

namespace ServiceMap.Source

open Text

/-! ## What is written -/

/-- The arguments of an annotation, in parentheses after blanks or none. -/
structure AnnotationArguments where
  gap : List Char
  ofGap : IsGap gap
  stretches : List Stretch
  balanced : Bracket.round.IsBalanced (shown stretches)

/-- An annotation as it is used: its name, by the first character and the others, and its arguments. -/
structure AnnotationUse where
  initial : Char
  ofInitial : isNameStart initial = true
  name : List Char
  ofName : ∀ c ∈ name, isDottedWord c = true
  arguments : Option AnnotationArguments

/-- Annotations, with blanks around them. -/
structure AnnotationRegion where
  front : List Char
  ofFront : IsGap front
  annotations : List (AnnotationUse × List Char)
  ofGaps : ∀ entry ∈ annotations, IsGap entry.2

def AnnotationArguments.print (a : AnnotationArguments) : List Char :=
  a.gap ++ '(' :: (written a.stretches ++ [')'])

def AnnotationUse.print (a : AnnotationUse) : List Char :=
  '@' :: a.initial :: (a.name ++ (a.arguments.map AnnotationArguments.print).getD [])

def AnnotationRegion.print (r : AnnotationRegion) : List Char :=
  r.front ++ r.annotations.flatMap fun entry => entry.1.print ++ entry.2

/-- The annotations of a region, in its order. -/
def AnnotationRegion.collapsed (r : AnnotationRegion) : List (List Char) :=
  r.annotations.map fun entry => collapseBlanks entry.1.print

/-- Where the content of a literal reads like an annotation with arguments, these end before the
annotation around them does. -/
def AnnotationArguments.IsSealed (a : AnnotationArguments) : Prop :=
  ∀ before quote content ofQuote ofContent after front initial name gap back,
    a.stretches = before ++ .literal quote content ofQuote ofContent :: after →
      content = front ++ '@' :: initial :: (name ++ (gap ++ '(' :: back)) →
        isNameStart initial = true → (∀ c ∈ name, isDottedWord c = true) → IsGap gap →
          (Bracket.round.closing? 1 (back ++ quote :: (written after ++ [')']))).isSome = true

def AnnotationUse.IsSealed (a : AnnotationUse) : Prop :=
  ∀ arguments ∈ a.arguments, arguments.IsSealed

/-- Literals without at signs, or without parentheses, do not read like annotations with arguments. -/
theorem AnnotationUse.isSealed_of_forall {a : AnnotationUse} (h : ∀ arguments ∈ a.arguments,
    ∀ stretch ∈ arguments.stretches, '@' ∉ stretch.content ∨ '(' ∉ stretch.content) :
    a.IsSealed := by
  intro arguments harguments before quote content hquote hliteral after front initial name gap back
    hstretches hcontent _ _ _
  have hmem : Stretch.literal quote content hquote hliteral ∈ arguments.stretches := by
    rw [hstretches]
    exact List.mem_append_right before List.mem_cons_self
  rcases h arguments harguments _ hmem with hat | hopen
  · exact absurd (hcontent ▸ List.mem_append_right front List.mem_cons_self) hat
  · exact absurd (by rw [Stretch.content, hcontent]; simp) hopen

/-! ## At signs within arguments -/

namespace AnnotationArguments

variable {a : AnnotationArguments} {initial : Char} {front name gap inner : List Char}

/-- A parenthesis that opens outside of literals is closed outside of literals. -/
theorem exists_closer_of_code (before after : List Stretch) {s inner : List Char}
    (hbalanced : Bracket.round.IsBalanced (shown (before ++ after)))
    (hs : ∀ c ∈ s, isAnyQuote c = false) (hafter : written after = s ++ '(' :: inner) :
    ∃ first last, inner = written first ++ ')' :: written last
      ∧ Bracket.round.IsBalanced (shown first) := by
  have hplain : ∀ c ∈ s ++ ['('], isAnyQuote c = false := by
    intro c hc
    rcases List.mem_append.mp hc with hc | hc
    · exact hs c hc
    · exact List.mem_singleton.mp hc ▸ rfl
  obtain ⟨name, rest, rfl, -, hname, hrest⟩ := split_written_of_plain hplain
    (show written after = (s ++ ['(']) ++ inner by rw [hafter, List.append_assoc]; rfl)
  -- one parenthesis more is open after `(` than before it
  have hshown : shown (before ++ (name ++ rest))
      = (shown before ++ s) ++ Bracket.round.opener :: shown rest := by
    rw [shown_append, shown_append, hname]
    simp only [List.append_assoc, List.singleton_append]
    rfl
  rw [hshown] at hbalanced
  obtain ⟨depth, hdepth⟩ := hbalanced.prefix_depth
  rw [Bracket.IsBalanced, Bracket.depthAfter_append, hdepth, Option.bind_some,
    Bracket.depthAfter_opener] at hbalanced
  obtain ⟨inside, outside, hclosed, hinside⟩ := Bracket.exists_isBalanced hbalanced
  obtain ⟨first, hcloser, last, rfl, rfl, -⟩ := split_shown_cons hclosed
  refine ⟨first, last, ?_, hinside⟩
  rw [← hrest, written_append, written_code]
  rfl

/-- It is closed before the parenthesis of the annotation is. -/
theorem closing?_of_code (before after : List Stretch) {s inner : List Char}
    (hbalanced : Bracket.round.IsBalanced (shown (before ++ after)))
    (hs : ∀ c ∈ s, isAnyQuote c = false) (hafter : written after = s ++ '(' :: inner) :
    (Bracket.round.closing? 1 (inner ++ [')'])).isSome = true := by
  obtain ⟨first, last, rfl, hinside⟩ := exists_closer_of_code before after hbalanced hs hafter
  have hclosing : Bracket.round.closing? 1 (written first ++ ')' :: (written last ++ [')']))
      = some ((written first).length + 1) := (Bracket.passesOver_written hinside).closing? _
  rw [List.append_assoc, List.cons_append, hclosing]
  rfl

/-- Names and blanks that start in a literal and go on to a parenthesis are all in the literal. -/
theorem split_literal_of_label {quote : Char} {label y more : List Char}
    (hquote : isQuote quote = true) (hlabel : IsLabel label)
    (h : label ++ '(' :: inner = y ++ quote :: more) :
    ∃ back, y = label ++ '(' :: back ∧ inner = back ++ quote :: more := by
  have hany := isAnyQuote_of_isQuote hquote
  have hnone : quote ∉ label ++ ['('] := by
    intro hmem
    rcases List.mem_append.mp hmem with hmem | hmem
    · exact Bool.false_ne_true ((plain_of_label hlabel hmem).1.symm.trans hany)
    · exact absurd (List.mem_singleton.mp hmem ▸ hany) (by decide)
  obtain ⟨back, hy, hinner⟩ := split_of_not_mem hnone
    (show (label ++ ['(']) ++ inner = y ++ quote :: more by rw [← h, List.append_assoc]; rfl)
  exact ⟨back, by rw [hy, List.append_assoc]; rfl, hinner⟩

/-- The same holds behind every at sign of sealed arguments, also within their literals. -/
theorem IsSealed.closing? (ha : a.IsSealed) (hinitial : isNameStart initial = true)
    (hname : ∀ c ∈ name, isDottedWord c = true) (hgap : IsGap gap)
    (h : written a.stretches = front ++ '@' :: initial :: (name ++ (gap ++ '(' :: inner))) :
    (Bracket.round.closing? 1 (inner ++ [')'])).isSome = true := by
  have hlabel : IsLabel (initial :: (name ++ gap)) := by
    rw [← List.cons_append]
    refine IsLabel.append (fun c hc => Or.inl ?_) hgap.isLabel
    rcases List.mem_cons.mp hc with rfl | hc
    · exact isDottedWord_of_isNameStart hinitial
    · exact hname c hc
  have htext : ∀ t, initial :: (name ++ (gap ++ '(' :: t)) = (initial :: (name ++ gap)) ++ '(' :: t :=
    fun t => by rw [List.cons_append, List.append_assoc]
  rcases split_written_cons (by decide) h with ⟨before, after, hstretches, -, hafter⟩
    | ⟨before, quote, content, hquote, hcontent, after, x, y, hstretches, rfl, hrest⟩
  · refine closing?_of_code (before ++ [.code '@' (by decide)]) after ?_
      (fun c hc => (plain_of_label hlabel hc).1) (hafter.trans (htext inner))
    rw [List.append_assoc]
    exact hstretches ▸ a.balanced
  · -- what is read up to the parenthesis has no quotes, so that it ends before the literal does
    obtain ⟨back, rfl, rfl⟩ := split_literal_of_label hquote hlabel ((htext inner).symm.trans hrest)
    rw [List.append_assoc]
    exact ha before quote _ hquote hcontent after x initial name gap back hstretches
      (by rw [htext back]) hinitial hname hgap

/-- What is read at an at sign within arguments is part of them. -/
theorem IsSealed.readText_inside (ha : a.IsSealed) {back s t : List Char}
    (hprint : a.print = front ++ '@' :: back) (hback : back ++ t = initial :: s)
    (hinitial : isNameStart initial = true) :
    IsTrimmed (readText initial s) ∧ ∃ rest, '@' :: back = readText initial s ++ rest := by
  have hword := isDottedWord_of_isNameStart hinitial
  -- the at sign stands behind the opening parenthesis and before the closing one
  have hopen : '@' ∉ a.gap ++ ['('] := by
    intro hmem
    rcases List.mem_append.mp hmem with hmem | hmem
    · exact absurd (a.ofGap '@' hmem) (by decide)
    · exact absurd hmem (by decide)
  obtain ⟨before, -, hinside⟩ := split_of_not_mem hopen (s := written a.stretches ++ [')'])
    (by rw [← hprint, print, List.append_assoc]; rfl)
  obtain ⟨v, hwritten, rfl⟩ := split_of_ne_last (by decide) hinside
  cases v with
  | nil =>
      obtain ⟨rfl, -⟩ := List.cons.inj hback
      exact absurd hinitial (by decide)
  | cons c v =>
      obtain ⟨rfl, hs⟩ := List.cons.inj hback
      obtain ⟨name, gap, rest, hsplit⟩ := exists_nameSplit s
      have hlabel : IsLabel (name ++ gap) :=
        IsLabel.append (fun d hd => Or.inl (hsplit.ofName d hd)) hsplit.ofGap.isLabel
      obtain ⟨w, rfl, rfl⟩ := split_of_not_mem (c := ')') (y := t) (x := v)
        (fun hmem => hlabel.ne hmem (by decide) rfl)
        (by rw [List.append_assoc, ← hsplit.text, ← hs]; simp)
      by_cases hcall : (w ++ ')' :: t).head? = some '('
      · obtain ⟨inner, rfl⟩ : ∃ inner, w = '(' :: inner := by
          cases w with
          | nil => exact absurd hcall (by simp)
          | cons d inner => exact ⟨inner, congrArg (· :: inner) (Option.some.inj hcall)⟩
        rw [List.append_assoc] at hwritten
        have hcalled : NameSplit s name gap ('(' :: (inner ++ [')'] ++ t)) := by
          rw [List.append_assoc]
          exact hsplit
        obtain ⟨inside, outside, hinner, hread⟩ := readText_closed c hcalled <|
          ha.closing? hinitial hsplit.ofName hsplit.ofGap hwritten
        refine ⟨hread ▸ isTrimmed_enclosed _ (by decide) (by decide), outside, ?_⟩
        simp [hread, hinner]
      · refine ⟨?_, gap ++ (w ++ [')']), ?_⟩
        · rw [readText_plain c hsplit hcall]
          exact isTrimmed_word ⟨List.cons_ne_nil _ _, no_blank_of_name hword hsplit.ofName⟩
        · rw [readText_plain c hsplit hcall]
          simp

end AnnotationArguments

/-- Whatever is read within arguments is part of their text. -/
theorem AnnotationArguments.IsSealed.readTexts_print {a : AnnotationArguments} (ha : a.IsSealed)
    (t : List Char) :
    ∃ inner, readTexts (a.print ++ t) = inner ++ readTexts t
      ∧ ∀ m ∈ inner, IsTrimmed m ∧ m <:+: a.print := by
  obtain ⟨inner, hinner, hread⟩ := readTexts_append a.print t
  refine ⟨inner, hinner, fun m hm => ?_⟩
  obtain ⟨front, back, initial, s, hprint, hback, hinitial, rfl⟩ := hread m hm
  obtain ⟨htrimmed, rest, hrest⟩ := ha.readText_inside hprint hback hinitial
  refine ⟨htrimmed, front, rest, ?_⟩
  rw [hprint, hrest, List.append_assoc]

/-! ## One annotation -/

namespace AnnotationUse

variable {a : AnnotationUse}

/-- A text that may follow the name of an annotation: it does not go on with the name, nor behind blanks
with a parenthesis. -/
def Follows (t : List Char) : Prop :=
  (∀ c ∈ t.head?, isDottedWord c = false)
    ∧ ∃ gap rest, t = gap ++ rest ∧ IsGap gap ∧ ∀ c ∈ rest.head?, isBlank c = false ∧ c ≠ '('

theorem isDottedWord_name (a : AnnotationUse) : ∀ c ∈ a.initial :: a.name, isDottedWord c = true := by
  intro c hc
  rcases List.mem_cons.mp hc with rfl | hc
  · exact isDottedWord_of_isNameStart a.ofInitial
  · exact a.ofName c hc

theorem nameEnds_of_isGap {gap rest : List Char} (hgap : IsGap gap)
    (hrest : gap = [] → ∀ c ∈ rest.head?, isDottedWord c = false) :
    ∀ c ∈ (gap ++ rest).head?, isDottedWord c = false := by
  cases gap with
  | nil => exact hrest rfl
  | cons d gap =>
      intro c hc
      obtain rfl := Option.some.inj hc
      refine Bool.eq_false_iff.mpr fun hword => ?_
      exact Bool.false_ne_true ((isBlank_of_isDottedWord hword).symm.trans (hgap d List.mem_cons_self))

theorem follows_append {gap rest : List Char} (hgap : IsGap gap)
    (hrest : ∀ c ∈ rest.head?, isBlank c = false ∧ c ≠ '(')
    (hparted : gap = [] → ∀ c ∈ rest.head?, isDottedWord c = false) : Follows (gap ++ rest) :=
  ⟨nameEnds_of_isGap hgap hparted, gap, rest, rfl, hgap, hrest⟩

/-- An annotation is read as it is written. -/
theorem readText_print (a : AnnotationUse) {t : List Char} (ht : a.arguments = none → Follows t) :
    readText a.initial (a.name ++ ((a.arguments.map AnnotationArguments.print).getD [] ++ t))
      = a.print := by
  rw [print]
  cases harguments : a.arguments with
  | none =>
      obtain ⟨hends, gap, rest, rfl, hgap, hrest⟩ := ht harguments
      have hsplit : NameSplit (a.name ++ (gap ++ rest)) a.name gap rest :=
        ⟨rfl, a.ofName, hends, hgap, fun c hc => (hrest c hc).1⟩
      have hcall : rest.head? ≠ some '(' := fun hcall => (hrest '(' hcall).2 rfl
      rw [Option.map_none, Option.getD_none, List.nil_append, List.append_nil,
        readText_plain a.initial hsplit hcall]
  | some arguments =>
      have hsplit : NameSplit (a.name ++ (arguments.print ++ t)) a.name arguments.gap
          ('(' :: (written arguments.stretches ++ ')' :: t)) := by
        refine ⟨?_, a.ofName, nameEnds_of_isGap arguments.ofGap fun _ c hc => ?_, arguments.ofGap,
          fun c hc => ?_⟩
        · simp [AnnotationArguments.print]
        · exact Option.some.inj hc ▸ rfl
        · exact Option.some.inj hc ▸ rfl
      have hclosing : Bracket.round.closing? 1 (written arguments.stretches ++ ')' :: t)
          = some ((written arguments.stretches).length + 1) :=
        (Bracket.passesOver_written arguments.balanced).closing? t
      have htext : written arguments.stretches ++ ')' :: t
          = (written arguments.stretches ++ [')']) ++ t := by simp
      rw [Option.map_some, Option.getD_some, readText_call a.initial hsplit, hclosing,
        Option.getD_some, htext, List.take_left' (by simp), AnnotationArguments.print]

/-- What is read of an annotation, and then what is read of the text after it. -/
theorem IsSealed.readTexts_print (ha : a.IsSealed) {t : List Char}
    (ht : a.arguments = none → Follows t) :
    ∃ inner, readTexts (a.print ++ t) = a.print :: (inner ++ readTexts t)
      ∧ ∀ m ∈ inner, IsTrimmed m ∧ ∃ front back, a.print = '@' :: (front ++ (m ++ back)) := by
  let rest := (a.arguments.map AnnotationArguments.print).getD []
  have hfirst : readTexts (a.print ++ t) = a.print :: readTexts (rest ++ t) := by
    have htext : a.print ++ t = '@' :: a.initial :: (a.name ++ (rest ++ t)) := by
      simp [print, rest]
    have hskip := readTexts_append_of_not_mem (at_notMem_of_name a.isDottedWord_name) (rest ++ t)
    rw [htext, readTexts, if_pos (by simp [a.ofInitial]), a.readText_print ht, ← List.cons_append,
      hskip]
  have harguments : ∃ inner, readTexts (rest ++ t) = inner ++ readTexts t
      ∧ ∀ m ∈ inner, IsTrimmed m ∧ m <:+: rest := by
    cases h : a.arguments with
    | none => exact ⟨[], by simp [rest, h], fun m hm => absurd hm List.not_mem_nil⟩
    | some arguments =>
        have hrest : rest = arguments.print := by simp [rest, h]
        rw [hrest]
        exact (ha arguments h).readTexts_print t
  obtain ⟨inner, hinner, hparts⟩ := harguments
  refine ⟨inner, hfirst.trans (congrArg _ hinner), fun m hm => ?_⟩
  obtain ⟨htrimmed, front, back, hrest⟩ := hparts m hm
  refine ⟨htrimmed, a.initial :: (a.name ++ front), back, ?_⟩
  rw [print]
  show '@' :: a.initial :: (a.name ++ rest) = _
  rw [← hrest]
  simp

end AnnotationUse

/-! ## A region -/

/-- What is part of an annotation is so too when blanks are collapsed. -/
theorem isPartOf_collapseBlanks {front m back : List Char} (hm : IsTrimmed m) :
    IsPartOf (collapseBlanks m) (collapseBlanks ('@' :: (front ++ (m ++ back)))) := by
  have hback : collapseBlanks (m ++ back) = collapseBlanks m ++ collapseBlanks back :=
    collapseBlanks_append (Or.inl hm.last)
  have hwhole : collapseBlanks ('@' :: (front ++ (m ++ back)))
      = collapseBlanks ('@' :: front) ++ (collapseBlanks m ++ collapseBlanks back) := by
    rw [← hback, ← collapseBlanks_append, List.cons_append]
    refine Or.inr fun c hc => hm.head c ?_
    rwa [List.head?_append_of_ne_nil _ hm.nonempty] at hc
  have hfront : collapseBlanks ('@' :: front) = '@' :: collapseBlanks front := by
    rw [collapseBlanks.eq_def]
    rfl
  rw [hwhole, hfront]
  refine ⟨⟨_, _, List.append_assoc _ _ _⟩, fun heq => ?_⟩
  have hlength := congrArg List.length heq
  simp only [List.length_append, List.length_cons] at hlength
  omega

theorem head?_annotations (annotations : List (AnnotationUse × List Char)) (t : List Char) :
    ∀ c ∈ ((annotations.flatMap fun entry => entry.1.print ++ entry.2) ++ t).head?,
      c = '@' ∨ c ∈ t.head? := by
  cases annotations with
  | nil => exact fun c hc => Or.inr hc
  | cons entry annotations => exact fun c hc => Or.inl (Option.some.inj hc).symm

/-- What is read within an annotation adds nothing to what is kept, and nothing is read behind the
annotations. -/
theorem foldl_readTexts_append {t : List Char} (hat : '@' ∉ t)
    (ht : ∀ c ∈ t.head?, isBlank c = false ∧ c ≠ '(') {annotations : List (AnnotationUse × List Char)} :
    ∀ {kept : List (List Char)}, (∀ entry ∈ annotations, IsGap entry.2 ∧ entry.1.IsSealed) →
      (∀ entry ∈ annotations, entry.1.arguments = none → entry.2 = [] →
        ∀ c ∈ t.head?, isDottedWord c = false) →
      ((readTexts ((annotations.flatMap fun entry => entry.1.print ++ entry.2) ++ t)).map
          collapseBlanks).foldl addUnlessPart kept
        = (annotations.map fun entry => collapseBlanks entry.1.print).foldl addUnlessPart kept := by
  induction annotations with
  | nil =>
      intro kept _ _
      have hnone := readTexts_append_of_not_mem hat []
      rw [List.append_nil] at hnone
      rw [List.flatMap_nil, List.nil_append, hnone]
      rfl
  | cons entry annotations ih =>
      intro kept h hparted
      obtain ⟨hgap, hsealed⟩ := h entry List.mem_cons_self
      have hfollows : entry.1.arguments = none → AnnotationUse.Follows
          (entry.2 ++ ((annotations.flatMap fun entry => entry.1.print ++ entry.2) ++ t)) := by
        refine fun hnone => AnnotationUse.follows_append hgap (fun c hc => ?_) fun hnil c hc => ?_
        · exact (head?_annotations annotations t c hc).elim (fun heq => heq ▸ ⟨rfl, by decide⟩) (ht c)
        · exact (head?_annotations annotations t c hc).elim (fun heq => heq ▸ rfl)
            (hparted entry List.mem_cons_self hnone hnil c)
      obtain ⟨inner, hinner, hparts⟩ := hsealed.readTexts_print hfollows
      have hskip := readTexts_append_of_not_mem
        (fun hmem => absurd (hgap '@' hmem) (by decide))
        ((annotations.flatMap fun entry => entry.1.print ++ entry.2) ++ t)
      -- each text within the annotation is part of it, and so of what is kept
      have hinside : ∀ m ∈ inner.map collapseBlanks,
          ∃ other ∈ addUnlessPart kept (collapseBlanks entry.1.print), IsPartOf m other := by
        intro m hm
        obtain ⟨text, htext, rfl⟩ := List.mem_map.mp hm
        obtain ⟨htrimmed, front, back, hprint⟩ := hparts text htext
        have hpart : IsPartOf (collapseBlanks text) (collapseBlanks entry.1.print) :=
          hprint ▸ isPartOf_collapseBlanks htrimmed
        obtain ⟨other, hother, heq | hwhole⟩ := exists_whole kept (collapseBlanks entry.1.print)
        · exact ⟨other, hother, heq ▸ hpart⟩
        · exact ⟨other, hother, hpart.trans hwhole⟩
      rw [List.flatMap_cons, List.append_assoc, List.append_assoc, hinner, hskip, List.map_cons,
        List.map_append, List.foldl_cons, List.foldl_append, foldl_of_parts hinside,
        ih (fun other hother => h other (List.mem_cons_of_mem entry hother))
          (fun other hother => hparted other (List.mem_cons_of_mem entry hother)),
        List.map_cons, List.foldl_cons]

theorem foldl_readTexts {annotations : List (AnnotationUse × List Char)} {kept : List (List Char)}
    (h : ∀ entry ∈ annotations, IsGap entry.2 ∧ entry.1.IsSealed) :
    ((readTexts (annotations.flatMap fun entry => entry.1.print ++ entry.2)).map
        collapseBlanks).foldl addUnlessPart kept
      = (annotations.map fun entry => collapseBlanks entry.1.print).foldl addUnlessPart kept := by
  have hread : ((readTexts ((annotations.flatMap fun entry => entry.1.print ++ entry.2) ++ [])).map
      collapseBlanks).foldl addUnlessPart kept = _ :=
    foldl_readTexts_append List.not_mem_nil (fun c hc => nomatch hc) h
      fun _ _ _ _ c hc => nomatch hc
  rwa [List.append_nil] at hread

/-- **Annotations are read as they are written, but for parts of earlier ones.** In a region of
annotations with blanks around them, whose literals do not read like annotations with arguments that
end elsewhere, nothing is read but the annotations of the region, in their order, with blanks
collapsed. An annotation is missing exactly if its text is part of an earlier one. -/
theorem printed_annotations_are_read_unless_parts (r : AnnotationRegion)
    (h : ∀ entry ∈ r.annotations, entry.1.IsSealed) :
    ∃ read, readAnnotations r.print = .ok read ∧ read.Sublist r.collapsed
      ∧ (read = r.collapsed ↔ r.collapsed.Pairwise fun earlier later => ¬IsPartOf later earlier) := by
  have hfront : readTexts r.print
      = readTexts (r.annotations.flatMap fun entry => entry.1.print ++ entry.2) :=
    readTexts_append_of_not_mem (fun hmem => absurd (r.ofFront '@' hmem) (by decide)) _
  have hread : dropNested ((readTexts r.print).map collapseBlanks)
      = r.collapsed.foldl addUnlessPart [] := by
    rw [hfront, dropNested_eq]
    exact foldl_readTexts fun entry hentry => ⟨r.ofGaps entry hentry, h entry hentry⟩
  refine ⟨_, readAnnotations_eq r.print, ?_, ?_⟩
  · rw [hread]
    exact foldl_sublist
  · rw [hread]
    have hall : r.collapsed.foldl addUnlessPart [] = [] ++ r.collapsed ↔ _ := foldl_eq_append_iff
    rw [List.nil_append] at hall
    refine hall.trans (and_iff_right fun mark _ hpart => ?_)
    obtain ⟨other, hother, -⟩ := hpart
    exact absurd hother List.not_mem_nil

/-- An annotation with an address, one with another annotation and a parenthesis in a literal, and one
without arguments. -/
def routeRegion : AnnotationRegion where
  front := "\n  ".toList
  ofFront := by decide
  annotations := [
    (⟨'P', by decide, "ath".toList, forall_mem_of_all (by decide), some
      { gap := []
        ofGap := by decide
        stretches := [.literal '"' "/a@b".toList (by decide)
          (isContent_of_forall (forall_mem_of_all (by decide)))]
        balanced := by decide }⟩, " ".toList),
    (⟨'G', by decide, "et".toList, forall_mem_of_all (by decide), some
      { gap := " ".toList
        ofGap := by decide
        stretches := stretchesOf "@Inner(".toList (forall_mem_of_all (by decide))
          ++ .literal '"' "(".toList (by decide)
              (isContent_of_forall (forall_mem_of_all (by decide)))
            :: stretchesOf "),\n  2".toList (forall_mem_of_all (by decide))
        balanced := by decide }⟩, "\n".toList),
    (⟨'H', by decide, "ide".toList, forall_mem_of_all (by decide), none⟩, [])]
  ofGaps := by decide

/-- The annotations of this region are read, and nothing else. -/
theorem routeRegion_is_read :
    (∀ entry ∈ routeRegion.annotations, entry.1.IsSealed)
      ∧ readAnnotations routeRegion.print = .ok routeRegion.collapsed := by
  have hsealed : ∀ entry ∈ routeRegion.annotations, entry.1.IsSealed := by
    have hliterals : ∀ entry ∈ routeRegion.annotations, ∀ arguments ∈ entry.1.arguments,
        ∀ stretch ∈ arguments.stretches, '@' ∉ stretch.content ∨ '(' ∉ stretch.content := by
      decide
    exact fun entry hentry => AnnotationUse.isSealed_of_forall (hliterals entry hentry)
  obtain ⟨read, hread, -, hall⟩ := printed_annotations_are_read_unless_parts routeRegion hsealed
  exact ⟨hsealed, hread.trans (congrArg Except.ok (hall.mpr (by decide +kernel)))⟩

/-- A parenthesis in a literal that the parenthesis of the annotation does not close. -/
example : readAnnotations "@A(\"@B(\") @C".toList = .ok ["@A(\"@B(\")".toList, "@B(\") @C".toList] := by
  cbv

/-- Two annotations, the name of the first of which starts like the second. -/
def ignoreRegion : AnnotationRegion where
  front := []
  ofFront := by decide
  annotations := [
    (⟨'J', by decide, "sonIgnoreProperties".toList, forall_mem_of_all (by decide), none⟩,
      " ".toList),
    (⟨'J', by decide, "sonIgnore".toList, forall_mem_of_all (by decide), none⟩, [])]
  ofGaps := by decide

/-- An annotation is lost if an earlier one starts with its text. -/
theorem annotation_within_an_earlier_name_is_lost :
    ignoreRegion.print = "@JsonIgnoreProperties @JsonIgnore".toList
      ∧ ignoreRegion.collapsed = ["@JsonIgnoreProperties".toList, "@JsonIgnore".toList]
      ∧ readAnnotations ignoreRegion.print ≠ .ok ignoreRegion.collapsed := by
  decide +kernel

end ServiceMap.Source
