import ServiceMap.Proofs.Declaration.JavaSource
import ServiceMap.Proofs.Pattern.Complete
import ServiceMap.Proofs.Pattern.Segments

/-!
# Heads of members

The patterns for fields and for methods share their front: indentation, annotations, words, a type
and a name. What a match of either has divided the text into is determined by the text: the name is
the last word before what ends the head, the type what stands before the name, the words what stands
before the type.
-/

namespace ServiceMap.Declaration

open Text Pattern

/-- The head of a member: `gap` may stand between the words and the type, the type holds none of the
characters of `excluded`, and `tail` follows the name. -/
def memberHead (gap : Pattern) (excluded : List Char) (tail : Pattern) : Pattern :=
  (indentation ++ leadingAnnotations) ++ (capture 1 leadingWords ++ (gap
    ++ (capture 2 (javaTypeName excluded) ++ (blanks1 ++ (capture 3 word ++ (blanks ++ tail))))))

/-- Type parameters before the result type of a method. -/
def typeParameters : Pattern :=
  opt (lit "<" ++ many1 (· != '>') ++ lit ">" ++ blanks1)

/-- What may follow the name of a field. -/
def fieldEnd : Pattern :=
  opt (lit "=" ++ many (· != ';')) ++ lit ";"

/-- The pattern for fields, by its parts. -/
abbrev fieldHead : Pattern :=
  memberHead empty [';', '=', '(', ')', '\x7b', '\x7d'] fieldEnd

/-- The pattern for the heads of methods, by its parts. -/
abbrev methodHead : Pattern :=
  memberHead typeParameters [';', '\x7b', '\x7d', '(', ')'] (lit "(")

theorem javaField_matchHere? : javaField.matchHere? = fieldHead.matchHere? := rfl

theorem javaMethodHead_matchHere? : javaMethodHead.matchHere? = methodHead.matchHere? := rfl

/-! ## Parts of a head -/

/-- Words, each with blanks after it. -/
inductive LeadingWords : List Char → Prop where
  | none : LeadingWords []
  | more {w gap rest : List Char} (nonempty : w ≠ []) (ofWords : ∀ c ∈ w, isWord c = true)
      (parted : gap ≠ []) (ofBlanks : ∀ c ∈ gap, isBlank c = true) (others : LeadingWords rest) :
      LeadingWords (w ++ (gap ++ rest))

theorem takes_leadingWords {before : Option Char} {taken rest : List Char} :
    leadingWords.Takes before taken rest ↔ LeadingWords taken := by
  constructor
  · intro h
    induction (h : Rounds _ before taken rest) with
    | none => exact .none
    | more nonempty first others ih =>
        obtain ⟨w, gap, rfl, hw, hgap⟩ := first
        rw [List.append_assoc]
        exact .more (takes_many1.mp hw).1 (takes_many1.mp hw).2 (takes_many1.mp hgap).1
          (takes_many1.mp hgap).2 ih
  · intro h
    induction h generalizing before with
    | none => exact Rounds.none _ _
    | @more w gap others nonempty ofWords parted ofBlanks _ ih =>
        rw [← List.append_assoc]
        refine Rounds.more (List.append_ne_nil_of_left_ne_nil nonempty _) ?_ ih
        exact ⟨w, gap, rfl, takes_many1.mpr ⟨nonempty, ofWords⟩,
          takes_many1.mpr ⟨parted, ofBlanks⟩⟩

/-- A name that may be qualified, followed by nothing or by an opening angle or square bracket. -/
def IsTypeLike (s : List Char) : Prop :=
  ∃ name more, s = name ++ more ∧ name ≠ [] ∧ (∀ c ∈ name, isDottedWord c = true)
    ∧ ∀ c ∈ more.head?, c = '<' ∨ c = '['

theorem IsTypeLike.head {s : List Char} (h : IsTypeLike s) (t : List Char) :
    ∀ c ∈ (s ++ t).head?, isDottedWord c = true := by
  obtain ⟨name, more, rfl, hne, hname, -⟩ := h
  rw [List.append_assoc]
  exact forall_head?_append hne hname _

theorem LeadingWords.head {s : List Char} (h : LeadingWords s) {t : List Char}
    (ht : ∀ c ∈ t.head?, isDottedWord c = true) :
    ∀ c ∈ (s ++ t).head?, isDottedWord c = true := by
  cases h with
  | none => exact ht
  | more nonempty ofWords =>
      rw [List.append_assoc]
      exact forall_head?_append nonempty (fun c hc => isDottedWord_of_isWord (ofWords c hc)) _

theorem LeadingWords.last {s : List Char} (h : LeadingWords s) :
    ∀ c ∈ s.getLast?, isBlank c = true := by
  induction h with
  | none => exact fun c hc => nomatch hc
  | @more w gap rest _ _ parted ofBlanks _ ih =>
      intro c hc
      rw [← List.append_assoc] at hc
      rcases mem_getLast?_append hc with hc | hc
      · exact ih c hc
      · rw [List.getLast?_append, List.getLast?_eq_some_getLast parted] at hc
        exact Option.some.inj hc ▸ ofBlanks _ (List.getLast_mem parted)

theorem LeadingWords.wordOrBlank {s : List Char} (h : LeadingWords s) :
    ∀ c ∈ s, isWord c = true ∨ isBlank c = true := by
  induction h with
  | none => exact fun c hc => absurd hc List.not_mem_nil
  | more _ ofWords _ ofBlanks _ ih =>
      intro c hc
      rcases List.mem_append.mp hc with hc | hc
      · exact Or.inl (ofWords c hc)
      rcases List.mem_append.mp hc with hc | hc
      · exact Or.inr (ofBlanks c hc)
      · exact ih c hc

/-! ## What is written as modifiers -/

theorem printModifiers_cons (w : JavaModifier) (modifiers : List JavaModifier) :
    printModifiers (w :: modifiers) = w.val.toList ++ ([' '] ++ printModifiers modifiers) := by
  rw [printModifiers, List.flatMap_cons, List.append_assoc]
  rfl

theorem leadingWords_printModifiers (modifiers : List JavaModifier) :
    LeadingWords (printModifiers modifiers) := by
  induction modifiers with
  | nil => exact .none
  | cons w modifiers ih =>
      rw [printModifiers_cons]
      exact .more (modifier_isWord w.2).1 (modifier_isWord w.2).2 (List.cons_ne_nil _ _)
        (fun c hc => List.mem_singleton.mp hc ▸ rfl) ih

/-- A word with blanks after it is no type. -/
theorem IsTypeLike.not_word_blank {w gap rest : List Char} (ofWords : ∀ c ∈ w, isWord c = true)
    (parted : gap ≠ []) (ofBlanks : ∀ c ∈ gap, isBlank c = true)
    (h : IsTypeLike (w ++ (gap ++ rest))) : False := by
  obtain ⟨name, more, htext, -, hname, hmore⟩ := h
  have hgap : ∀ c ∈ (gap ++ rest).head?, isDottedWord c = false :=
    forall_head?_append parted (fun c hc => Bool.eq_false_iff.mpr fun hword =>
      Bool.false_ne_true ((isBlank_of_isDottedWord hword).symm.trans (ofBlanks c hc))) rest
  have hbracket : ∀ c ∈ more.head?, isDottedWord c = false := by
    intro c hc
    rcases hmore c hc with rfl | rfl <;> rfl
  obtain ⟨-, rfl⟩ := append_inj_of_span hgap hbracket w
    (fun c hc => isDottedWord_of_isWord (ofWords c hc)) hname htext
  -- what follows the word would be a blank and a bracket
  obtain ⟨g, gap, rfl⟩ := List.exists_cons_of_ne_nil parted
  have hg : isBlank g = true := ofBlanks g List.mem_cons_self
  rcases hmore g rfl with rfl | rfl
  · exact absurd hg (by decide)
  · exact absurd hg (by decide)

/-- What stands before a type are its modifiers. -/
theorem leadingWords_unique {words type expected : List Char} {modifiers : List JavaModifier}
    (hwords : LeadingWords words) (htype : IsTypeLike type) (hexpected : IsTypeLike expected)
    (h : words ++ type = printModifiers modifiers ++ expected) :
    words = printModifiers modifiers ∧ type = expected := by
  induction modifiers generalizing words with
  | nil =>
      cases hwords with
      | none => exact ⟨rfl, h⟩
      | @more w gap rest nonempty ofWords parted ofBlanks others =>
          rw [List.append_assoc, List.append_assoc] at h
          obtain rfl : _ = expected := h
          exact (IsTypeLike.not_word_blank ofWords parted ofBlanks hexpected).elim
  | cons m modifiers ih =>
      obtain ⟨-, hm⟩ := modifier_isWord m.2
      rw [printModifiers_cons, List.append_assoc, List.append_assoc] at h
      cases hwords with
      | none =>
          rw [List.nil_append] at h
          exact (IsTypeLike.not_word_blank hm (List.cons_ne_nil _ _)
            (fun c hc => List.mem_singleton.mp hc ▸ rfl) (h ▸ htype)).elim
      | @more w gap rest nonempty ofWords parted ofBlanks others =>
          rw [List.append_assoc, List.append_assoc] at h
          have hrest : ∀ c ∈ (rest ++ type).head?, isBlank c = false := fun c hc =>
            isBlank_of_isDottedWord (others.head (by simpa using htype.head []) c hc)
          have hmore : ∀ c ∈ (printModifiers modifiers ++ expected).head?, isBlank c = false :=
            fun c hc => isBlank_of_isDottedWord
              ((leadingWords_printModifiers modifiers).head (by simpa using hexpected.head []) c hc)
          obtain ⟨rfl, rfl, h'⟩ := word_gap_inj ofWords hm ⟨parted, ofBlanks⟩
            ⟨List.cons_ne_nil _ _, fun c hc => List.mem_singleton.mp hc ▸ rfl⟩ hrest hmore h
          obtain ⟨rfl, rfl⟩ := ih others h'
          exact ⟨by rw [printModifiers_cons], rfl⟩

/-! ## The type and the name at the end of a head -/

/-- Text that a pattern may take for a type: it looks like one, holds none of the excluded
characters and does not end in a blank. -/
structure IsType (excluded : List Char) (s : List Char) : Prop where
  typeLike : IsTypeLike s
  clear : ∀ c ∈ s, c ∉ excluded
  last : ∀ c ∈ s.getLast?, isBlank c = false

/-- The name at the end of a head, and what stands before the blanks before it. -/
theorem name_unique {front expected blanks name back : List Char} {expectedName : List Char}
    (hfront : ∀ c ∈ front.getLast?, isBlank c = false)
    (hexpected : ∀ c ∈ expected.getLast?, isBlank c = false)
    (parted : blanks ≠ []) (ofBlanks : ∀ c ∈ blanks, isBlank c = true)
    (named : name ≠ []) (ofWords : ∀ c ∈ name, isWord c = true)
    (hback : ∀ c ∈ back, isBlank c = true)
    (expectedNamed : expectedName ≠ []) (expectedWords : ∀ c ∈ expectedName, isWord c = true)
    (h : front ++ (blanks ++ (name ++ back)) = expected ++ ([' '] ++ expectedName)) :
    back = [] ∧ name = expectedName ∧ front = expected := by
  -- read from the end, each part is a leading stretch of its class
  have hreverse := congrArg List.reverse h
  simp only [List.reverse_append, List.append_assoc] at hreverse
  have visible : ∀ {s : List Char}, s ≠ [] → (∀ c ∈ s, isWord c = true) → ∀ t,
      ∀ c ∈ (s.reverse ++ t).head?, isBlank c = false := fun hne hall =>
    forall_head?_append (List.reverse_ne_nil_iff.mpr hne) fun c hc =>
      isBlank_of_isWord (hall c (List.mem_reverse.mp hc))
  have hspace : ∀ c ∈ [' '], isBlank c = true := fun c hc => List.mem_singleton.mp hc ▸ rfl
  obtain ⟨hnil, hrest⟩ := append_inj_of_span (y := []) (visible named ofWords _)
    (visible expectedNamed expectedWords _) back.reverse
    (fun c hc => hback c (List.mem_reverse.mp hc)) (fun c hc => absurd hc List.not_mem_nil) hreverse
  obtain ⟨hname, -, hfronts⟩ := word_gap_inj (fun c hc => ofWords c (List.mem_reverse.mp hc))
    (fun c hc => expectedWords c (List.mem_reverse.mp hc))
    ⟨List.reverse_ne_nil_iff.mpr parted, fun c hc => ofBlanks c (List.mem_reverse.mp hc)⟩
    ⟨List.cons_ne_nil ' ' [], hspace⟩ (by simpa using hfront) (by simpa using hexpected) hrest
  exact ⟨List.reverse_eq_nil_iff.mp hnil, List.reverse_inj.mp hname, List.reverse_inj.mp hfronts⟩

/-- The parts of a head that a match has found. -/
structure HeadParts (excluded : List Char) (head : List Char) where
  indent : List Char
  words : List Char
  type : List Char
  blanks : List Char
  name : List Char
  back : List Char
  text : head = indent ++ (words ++ (type ++ (blanks ++ (name ++ back))))
  indented : ∀ c ∈ indent, c = ' ' ∨ c = '\t'
  leading : LeadingWords words
  isType : IsType excluded type
  parted : blanks ≠ []
  ofBlanks : ∀ c ∈ blanks, isBlank c = true
  named : name ≠ []
  ofWords : ∀ c ∈ name, isWord c = true
  trailing : ∀ c ∈ back, isBlank c = true

theorem HeadParts.head_ne_nil {excluded head : List Char} (parts : HeadParts excluded head) :
    head ≠ [] := by
  obtain ⟨c, name, hname⟩ := List.exists_cons_of_ne_nil parts.named
  rw [parts.text, hname]
  simp

theorem HeadParts.clear {excluded head : List Char} (parts : HeadParts excluded head)
    (hexcluded : ∀ c ∈ excluded, isHeadChar c = false ∧ isBlank c = false) :
    ∀ c ∈ head, c ∉ excluded := by
  have other : ∀ {c}, isHeadChar c = true ∨ isBlank c = true → c ∉ excluded := by
    intro c hc hmem
    obtain ⟨hchar, hblank⟩ := hexcluded c hmem
    rcases hc with hc | hc
    · exact Bool.false_ne_true (hchar.symm.trans hc)
    · exact Bool.false_ne_true (hblank.symm.trans hc)
  intro c hc
  rw [parts.text] at hc
  simp only [List.mem_append] at hc
  rcases hc with hc | hc | hc | hc | hc | hc
  · rcases parts.indented c hc with rfl | rfl <;> exact other (Or.inl rfl)
  · exact other ((parts.leading.wordOrBlank c hc).imp isHeadChar_of_isWord id)
  · exact parts.isType.clear c hc
  · exact other (Or.inr (parts.ofBlanks c hc))
  · exact other (Or.inl (isHeadChar_of_isWord (parts.ofWords c hc)))
  · exact other (Or.inr (parts.trailing c hc))

/-! ## Printed heads -/

theorem isTypeLike_print (t : JavaTypeText) : IsTypeLike t.print := by
  refine ⟨t.name, _, rfl, t.nonempty, t.ofDottedWords, fun c hc => ?_⟩
  cases harguments : t.arguments with
  | some a =>
      rw [harguments] at hc
      exact Or.inl (Option.some.inj hc).symm
  | none =>
      rw [harguments] at hc
      cases hdimensions : t.dimensions with
      | zero => rw [hdimensions] at hc; exact nomatch hc
      | succ n => rw [hdimensions] at hc; exact Or.inr (Option.some.inj hc).symm

theorem print_last (t : JavaTypeText) : ∀ c ∈ t.print.getLast?, isBlank c = false := by
  intro c hc
  rcases mem_getLast?_append hc with hc | hc
  · rcases mem_getLast?_append hc with hc | hc
    · rcases mem_squarePairs (List.mem_of_getLast? hc) with rfl | rfl <;> rfl
    · cases harguments : t.arguments with
      | none => rw [harguments] at hc; exact nomatch hc
      | some a =>
          rw [harguments] at hc
          have hprint : c ∈ (('<' :: a.text) ++ ['>']).getLast? := hc
          rw [List.getLast?_append, List.getLast?_singleton] at hprint
          exact Option.some.inj hprint ▸ rfl
  · exact isBlank_of_isDottedWord (t.ofDottedWords c (List.mem_of_getLast? hc))

/-! ## What a match of a head has found -/

/-- What the patterns for heads have in common. -/
structure IsHeadPattern (gap : Pattern) (excluded : List Char) (tail : Pattern) : Prop where
  gap_slots : gap.slots = []
  tail_slots : tail.slots = []
  /-- What may stand before the type starts with an angle bracket. -/
  gap_head : ∀ before s rest, gap.Takes before s rest → ∀ c ∈ s.head?, c = '<'
  /-- Heads are written without the excluded characters. -/
  excluded_other : ∀ c ∈ excluded, isHeadChar c = false ∧ isBlank c = false
  /-- What follows the name starts with an excluded character. -/
  tail_head : ∀ before s rest, tail.Takes before s rest → ∃ c ∈ s.head?, c ∈ excluded

theorem isHeadPattern_field :
    IsHeadPattern empty [';', '=', '(', ')', '\x7b', '\x7d'] fieldEnd where
  gap_slots := rfl
  tail_slots := rfl
  gap_head := by
    intro before s rest h c hc
    obtain rfl : s = [] := h
    exact nomatch hc
  excluded_other := forall_mem_of_all (by decide)
  tail_head := by
    rintro before s rest ⟨value, _, rfl, hvalue, hend⟩
    obtain rfl := takes_lit.mp hend
    rcases takes_opt.mp hvalue with ⟨_, text, rfl, hassign, -⟩ | rfl
    · obtain rfl := takes_lit.mp hassign
      exact ⟨'=', rfl, by decide⟩
    · exact ⟨';', rfl, by decide⟩

theorem isHeadPattern_method :
    IsHeadPattern typeParameters [';', '\x7b', '\x7d', '(', ')'] (lit "(") where
  gap_slots := rfl
  tail_slots := rfl
  gap_head := by
    intro before s rest h c hc
    rcases takes_opt.mp h with
      ⟨_, gap, rfl, ⟨_, close, rfl, ⟨_, inside, rfl, hopen, -⟩, -⟩, -⟩ | rfl
    · obtain rfl := takes_lit.mp hopen
      exact (Option.some.inj hc).symm
    · exact nomatch hc
  excluded_other := forall_mem_of_all (by decide)
  tail_head := by
    intro before s rest h
    obtain rfl := takes_lit.mp h
    exact ⟨'(', rfl, by decide⟩

/-- Text in which no type parameters of a method can be read before its type: where only words and
blanks stand before an angle bracket, it follows a word. -/
def HasNoTypeParameters (text : List Char) : Prop :=
  ∀ front rest, text = front ++ '<' :: rest →
    (∀ c ∈ front, isWord c = true ∨ isBlank c = true) →
      ∃ c ∈ front.getLast?, isBlank c = false

theorem HasNoTypeParameters.ne_append_angle {text indent words rest : List Char}
    (h : HasNoTypeParameters text) (hindent : ∀ c ∈ indent, c = ' ' ∨ c = '\t')
    (hwords : LeadingWords words) : text ≠ (indent ++ words) ++ '<' :: rest := by
  intro htext
  obtain ⟨c, hc, hvisible⟩ := h (indent ++ words) rest htext fun c hc => by
    rcases List.mem_append.mp hc with hc | hc
    · rcases hindent c hc with rfl | rfl <;> exact Or.inr rfl
    · exact hwords.wordOrBlank c hc
  have hblank : isBlank c = true := by
    rcases mem_getLast?_append hc with hc | hc
    · exact hwords.last c hc
    · rcases hindent c (List.mem_of_getLast? hc) with rfl | rfl <;> rfl
  exact Bool.false_ne_true (hvisible.symm.trans hblank)

theorem squares_of_takes {before : Option Char} {taken rest : List Char}
    (h : (star (lit "[]")).Takes before taken rest) :
    (∀ c ∈ taken, c = '[' ∨ c = ']') ∧ ∀ c ∈ taken.head?, c = '[' := by
  induction (h : Rounds _ before taken rest) with
  | none => exact ⟨fun c hc => absurd hc List.not_mem_nil, fun c hc => nomatch hc⟩
  | more _ first _ ih =>
      obtain rfl := takes_lit.mp first
      refine ⟨fun c hc => ?_, fun c hc => (Option.some.inj hc).symm⟩
      rcases List.mem_append.mp hc with hc | hc
      · have hpair : ∀ c ∈ "[]".toList, c = '[' ∨ c = ']' := forall_mem_of_all (by decide)
        exact hpair c hc
      · exact ih.1 c hc

theorem isType_of_takes {excluded : List Char}
    (hexcluded : ∀ c ∈ excluded, isHeadChar c = false ∧ isBlank c = false)
    {before : Option Char} {taken rest : List Char}
    (h : (javaTypeName excluded).Takes before taken rest) : IsType excluded taken := by
  have clear : ∀ {c}, isHeadChar c = true → c ∉ excluded := fun hc hmem =>
    Bool.false_ne_true ((hexcluded _ hmem).1.symm.trans hc)
  obtain ⟨_, squares, rfl, ⟨name, arguments, rfl, hname, harguments⟩, hsquares⟩ := h
  obtain ⟨hsquare, hfirst⟩ := squares_of_takes hsquares
  obtain ⟨hne, hname⟩ := takes_many1.mp hname
  have hbrackets : arguments = [] ∨ ∃ inside, arguments = ('<' :: inside) ++ ['>']
      ∧ ∀ c ∈ inside, c ∉ excluded := by
    rcases takes_opt.mp harguments with ⟨_, _, rfl, ⟨_, inside, rfl, hopen, hinside⟩, hclose⟩ | h
    · obtain rfl := takes_lit.mp hopen
      obtain rfl := takes_lit.mp hclose
      exact Or.inr ⟨inside, rfl, fun c hc => by simpa using takes_many.mp hinside c hc⟩
    · exact Or.inl h
  rw [List.append_assoc]
  refine ⟨⟨name, arguments ++ squares, rfl, hne, hname, fun c hc => ?_⟩, fun c hc => ?_,
    fun c hc => ?_⟩
  · rcases hbrackets with rfl | ⟨inside, rfl, -⟩
    · exact Or.inr (hfirst c hc)
    · exact Or.inl (Option.some.inj hc).symm
  · rcases List.mem_append.mp hc with hc | hc
    · exact clear (isHeadChar_of_isDottedWord (hname c hc))
    rcases List.mem_append.mp hc with hc | hc
    · rcases hbrackets with rfl | ⟨inside, rfl, hinside⟩
      · exact absurd hc List.not_mem_nil
      · rcases List.mem_append.mp hc with hc | hc
        · rcases List.mem_cons.mp hc with rfl | hc
          · exact clear rfl
          · exact hinside c hc
        · exact List.mem_singleton.mp hc ▸ clear rfl
    · rcases hsquare c hc with rfl | rfl
      · exact clear rfl
      · exact clear rfl
  · rcases mem_getLast?_append hc with hc | hc
    · rcases mem_getLast?_append hc with hc | hc
      · rcases hsquare c (List.mem_of_getLast? hc) with rfl | rfl <;> rfl
      · rcases hbrackets with rfl | ⟨inside, rfl, -⟩
        · exact nomatch hc
        · rw [List.getLast?_append, List.getLast?_singleton] at hc
          exact Option.some.inj hc ▸ rfl
    · exact isBlank_of_isDottedWord (hname c (List.mem_of_getLast? hc))

theorem annotations_of_takes {before : Option Char} {taken rest : List Char}
    (h : leadingAnnotations.Takes before taken rest) (hat : '@' ∉ taken) : taken = [] := by
  cases (h : Rounds _ before taken rest) with
  | none => rfl
  | more _ first _ =>
      obtain ⟨_, gap, rfl, ⟨_, arguments, rfl, ⟨_, name, rfl, hmark, -⟩, -⟩, -⟩ := first
      obtain rfl := takes_lit.mp hmark
      exact absurd (by simp) hat

/-- **What a match of a head has found.** In text without annotations, where `head` is followed by
the first excluded character, a match at the start of the text starts a line, divides `head` into
its parts, and goes on with the tail of its pattern. -/
theorem parts_of_matchHere? {gap tail : Pattern} {excluded : List Char}
    (hpattern : IsHeadPattern gap excluded tail) {limit : Nat} {here : Place} {m : Match}
    {head rest : List Char} {stop : Char} (htext : here.rest = head ++ stop :: rest)
    (hhead : ∀ c ∈ head, c ∉ excluded) (hstop : stop ∈ excluded) (hat : '@' ∉ here.rest)
    (hnone : HasNoTypeParameters here.rest)
    (h : (memberHead gap excluded tail).matchHere? limit here = some m) :
    here.before.all (· == '\n') = true
      ∧ ∃ parts : HeadParts excluded head,
        m.group 1 = parts.words ∧ m.group 2 = parts.type ∧ m.group 3 = parts.name
          ∧ ∃ before ending more, stop :: rest = ending ++ more
            ∧ tail.Takes before ending more
            ∧ m.stop = here.index + (head.length + ending.length) := by
  obtain ⟨_, words, space, type, gapBlanks, name, _, more, hrest,
      ⟨_, annotations, rfl, ⟨_, indent, rfl, ⟨rfl, hstart⟩, hindent⟩, hannotations⟩,
      ⟨_, hwords⟩, ⟨_, hspace⟩, ⟨_, htype⟩, ⟨_, hblanks⟩, ⟨_, hname⟩,
      ⟨_, back, ending, rfl, hback, hending⟩, hgroup₁, hgroup₂, hgroup₃, hmstop⟩ :=
    captured_three (F := blanks ++ tail) rfl rfl hpattern.gap_slots rfl rfl rfl
      hpattern.tail_slots h
  obtain rfl : annotations = [] := annotations_of_takes hannotations fun hmem => hat <| by
    rw [hrest]
    simp [hmem]
  rw [List.nil_append, List.append_nil] at hrest hmstop
  have hindented : ∀ c ∈ indent, c = ' ' ∨ c = '\t' := by simpa using takes_many.mp hindent
  have hleading := takes_leadingWords.mp hwords
  have hisType := isType_of_takes hpattern.excluded_other htype
  obtain ⟨parted, ofBlanks⟩ := takes_many1.mp hblanks
  obtain ⟨named, ofWords⟩ := takes_many1.mp hname
  -- no type parameters stand before the type
  obtain rfl : space = [] := by
    refine List.eq_nil_iff_forall_not_mem.mpr fun d hd => ?_
    obtain ⟨e, space, rfl⟩ := List.exists_cons_of_ne_nil (List.ne_nil_of_mem hd)
    obtain rfl := hpattern.gap_head _ _ _ hspace e rfl
    have hangle : here.rest = (indent ++ words)
        ++ '<' :: (space ++ (type ++ (gapBlanks ++ (name ++ ((back ++ ending) ++ more))))) := by
      rw [hrest, ← List.append_assoc indent words]
      rfl
    exact hnone.ne_append_angle hindented hleading hangle
  let parts : HeadParts excluded
      (indent ++ (words ++ (type ++ (gapBlanks ++ (name ++ back))))) :=
    ⟨indent, words, type, gapBlanks, name, back, rfl, hindented, hleading, hisType, parted,
      ofBlanks, named, ofWords, takes_many.mp hback⟩
  -- both divisions of the text have no excluded character before the first one
  have hclear := parts.clear hpattern.excluded_other
  obtain ⟨d, hd, hdexcluded⟩ := hpattern.tail_head _ _ _ hending
  obtain ⟨ending, rfl⟩ := List.head?_eq_some_iff.mp hd
  have hboth : (indent ++ (words ++ (type ++ (gapBlanks ++ (name ++ back)))))
      ++ (d :: ending ++ more) = head ++ stop :: rest := by
    rw [← htext, hrest]
    simp only [List.append_assoc, List.nil_append]
  obtain ⟨rfl, hmore⟩ := append_inj_of_span (p := fun c => !excluded.contains c)
    (fun c hc => by simpa using Option.some.inj hc ▸ hdexcluded)
    (fun c hc => by simpa using Option.some.inj hc ▸ hstop) _
    (fun c hc => by simpa using hclear c hc) (fun c hc => by simpa using hhead c hc) hboth
  refine ⟨hstart, parts, hgroup₁, hgroup₂, hgroup₃, _, d :: ending, more, hmore.symm, hending, ?_⟩
  rw [hmstop]
  simp only [List.length_append, List.length_nil, Nat.zero_add, Nat.add_assoc]

/-! ## Matches of printed heads -/

theorem JavaHead.not_mem_print {h : JavaHead} {c : Char} (hc : isHeadChar c = false) :
    c ∉ h.print := fun hmem =>
  Bool.false_ne_true (hc.symm.trans (h.print_isHeadChar c hmem))

/-- The parts of a printed head are those it was printed from. -/
theorem HeadParts.eq_print {excluded : List Char} {h : JavaHead}
    (parts : HeadParts excluded h.print) :
    parts.words = printModifiers h.modifiers ∧ parts.type = h.type.print
      ∧ parts.name = h.name.text := by
  have visible : ∀ {front words type : List Char}, IsTypeLike type →
      (∀ c ∈ type.getLast?, isBlank c = false) →
        ∀ c ∈ (front ++ (words ++ type)).getLast?, isBlank c = false := by
    intro front words type htype hlast c hc
    have hne : type ≠ [] := by
      obtain ⟨name, more, rfl, hne, -⟩ := htype
      exact List.append_ne_nil_of_left_ne_nil hne more
    rw [← List.append_assoc, List.getLast?_append, List.getLast?_eq_some_getLast hne] at hc
    exact hlast c (by rw [List.getLast?_eq_some_getLast hne]; exact hc)
  have htext : (parts.indent ++ (parts.words ++ parts.type))
        ++ (parts.blanks ++ (parts.name ++ parts.back))
      = (h.indentation.text ++ (printModifiers h.modifiers ++ h.type.print))
        ++ ([' '] ++ h.name.text) := by
    have hprint : h.indentation.text ++ (printModifiers h.modifiers
        ++ (h.type.print ++ ' ' :: h.name.text)) = _ := parts.text
    simp only [List.append_assoc, List.singleton_append]
    exact hprint.symm
  -- the name is cut off at the end first: what is left are indentation, modifiers and type
  obtain ⟨-, hname, hfront⟩ := name_unique (visible parts.isType.typeLike parts.isType.last)
    (visible (isTypeLike_print h.type) (print_last h.type)) parts.parted parts.ofBlanks parts.named
    parts.ofWords parts.trailing h.name.nonempty h.name.ofWords htext
  have indented : ∀ {s : List Char}, (∀ c ∈ s, c = ' ' ∨ c = '\t') → ∀ c ∈ s, isBlank c = true := by
    intro s hs c hc
    rcases hs c hc with rfl | rfl <;> rfl
  obtain ⟨-, hwords⟩ := append_inj_of_span
    (fun c hc => isBlank_of_isDottedWord
      (parts.leading.head (by simpa using parts.isType.typeLike.head []) c hc))
    (fun c hc => isBlank_of_isDottedWord ((leadingWords_printModifiers h.modifiers).head
      (by simpa using (isTypeLike_print h.type).head []) c hc))
    parts.indent (indented parts.indented) (indented h.indentation.ofBlanks) hfront
  obtain ⟨hmodifiers, htype⟩ :=
    leadingWords_unique parts.leading parts.isType.typeLike (isTypeLike_print h.type) hwords
  exact ⟨hmodifiers, htype, hname⟩

theorem hasNoTypeParameters_of_not_mem {head rest : List Char} {stop : Char}
    (hhead : '<' ∉ head) (hstop : stop ≠ '<') (hword : isWord stop = false)
    (hblank : isBlank stop = false) : HasNoTypeParameters (head ++ stop :: rest) := by
  intro front more htext hfront
  rcases List.append_eq_append_iff.mp htext with ⟨s, rfl, hs⟩ | ⟨s, rfl, hs⟩
  · -- the bracket would come after `stop`
    cases s with
    | nil => exact absurd (List.cons.inj hs).1 hstop
    | cons c s =>
        obtain rfl := (List.cons.inj hs).1
        rcases hfront stop (by simp) with h | h
        · exact absurd h (Bool.eq_false_iff.mp hword)
        · exact absurd h (Bool.eq_false_iff.mp hblank)
  · cases s with
    | nil => exact absurd (List.cons.inj hs).1.symm hstop
    | cons c s =>
        obtain rfl := (List.cons.inj hs).1
        exact absurd (by simp) hhead

/-- In a printed head an angle bracket follows the name of the type. -/
theorem hasNoTypeParameters_print (h : JavaHead) {stop : Char} (rest : List Char)
    (hstop : stop ≠ '<') (hword : isWord stop = false) (hblank : isBlank stop = false) :
    HasNoTypeParameters (h.print ++ stop :: rest) := by
  have hname : '<' ∉ h.indentation.text ++ (printModifiers h.modifiers ++ h.type.name) := by
    intro hmem
    simp only [List.mem_append] at hmem
    rcases hmem with hmem | hmem | hmem
    · rcases h.indentation.ofBlanks _ hmem with heq | heq <;> exact absurd heq (by decide)
    · rcases (leadingWords_printModifiers h.modifiers).wordOrBlank _ hmem with hc | hc
      · exact absurd hc (by decide)
      · exact absurd hc (by decide)
    · exact absurd (h.type.ofDottedWords _ hmem) (by decide)
  cases harguments : h.type.arguments with
  | none =>
      have hprint : h.print = (h.indentation.text ++ (printModifiers h.modifiers ++ h.type.name))
          ++ (squarePairs h.type.dimensions ++ ' ' :: h.name.text) := by
        rw [JavaHead.print, JavaTypeText.print, harguments]
        simp only [Option.map_none, Option.getD_none, List.nil_append, List.append_assoc]
      refine hasNoTypeParameters_of_not_mem (fun hmem => ?_) hstop hword hblank
      rw [hprint] at hmem
      rcases List.mem_append.mp hmem with hmem | hmem
      · exact hname hmem
      rcases List.mem_append.mp hmem with hmem | hmem
      · rcases mem_squarePairs hmem with heq | heq <;> exact absurd heq (by decide)
      rcases List.mem_cons.mp hmem with heq | hmem
      · exact absurd heq (by decide)
      · exact absurd (h.name.ofWords _ hmem) (by decide)
  | some a =>
      intro front more htext hfront
      have hprint : h.print ++ stop :: rest
          = (h.indentation.text ++ (printModifiers h.modifiers ++ h.type.name))
            ++ '<' :: (a.text ++ ['>'] ++ (squarePairs h.type.dimensions
              ++ ' ' :: (h.name.text ++ stop :: rest))) := by
        rw [JavaHead.print, JavaTypeText.print, harguments]
        simp only [Option.map_some, Option.getD_some, JavaArguments.print, List.append_assoc,
          List.cons_append]
      have hangle : ∀ (s : List Char), ∀ c ∈ ('<' :: s).head?, (c != '<') = false :=
        fun s c hc => Option.some.inj hc ▸ rfl
      -- both divisions cut the text at its first angle bracket
      obtain ⟨rfl, -⟩ := append_inj_of_span (p := (· != '<')) (hangle _) (hangle _) front
        (fun c hc => bne_iff_ne.mpr fun heq => by
          rcases hfront c hc with h | h <;> rw [heq] at h <;> exact absurd h (by decide))
        (fun c hc => bne_iff_ne.mpr fun heq => hname (heq ▸ hc)) (htext.symm.trans hprint)
      refine ⟨_, ?_, isBlank_of_isDottedWord
        (h.type.ofDottedWords _ (List.getLast_mem h.type.nonempty))⟩
      rw [← List.append_assoc, List.getLast?_append, List.getLast?_eq_some_getLast h.type.nonempty]
      rfl

theorem takes_squarePairs (n : Nat) {before : Option Char} {rest : List Char} :
    (star (lit "[]")).Takes before (squarePairs n) rest := by
  show Rounds _ _ _ _
  induction n generalizing before with
  | zero => exact Rounds.none _ _
  | succ n ih => exact Rounds.more (List.cons_ne_nil '[' [']']) (takes_lit.mpr rfl) ih

theorem takes_print {excluded : List Char}
    (hexcluded : ∀ c ∈ excluded, isHeadChar c = false ∧ isBlank c = false) (t : JavaTypeText)
    {before : Option Char} {rest : List Char} :
    (javaTypeName excluded).Takes before t.print rest := by
  refine ⟨t.name ++ (t.arguments.map JavaArguments.print).getD [], squarePairs t.dimensions, ?_,
    ⟨t.name, _, rfl, takes_many1.mpr ⟨t.nonempty, t.ofDottedWords⟩, takes_opt.mpr ?_⟩,
    takes_squarePairs _⟩
  · rw [JavaTypeText.print, List.append_assoc]
  · cases t.arguments with
    | none => exact Or.inr rfl
    | some a =>
        refine Or.inl ⟨'<' :: a.text, ['>'], rfl, ⟨['<'], a.text, rfl, takes_lit.mpr rfl, ?_⟩,
          takes_lit.mpr rfl⟩
        refine takes_many.mpr fun c hc => ?_
        have hclear : c ∉ excluded := fun hmem => Bool.false_ne_true
          ((hexcluded c hmem).1.symm.trans (isHeadChar_of_isArgumentChar (a.ofArguments c hc)))
        simpa using hclear

/-- A pattern for heads has a match at a printed head that is followed by what its tail takes. -/
theorem matchHere?_isSome_print {gap tail : Pattern} {excluded : List Char}
    (hpattern : IsHeadPattern gap excluded tail) (hgap : ∀ before rest, gap.Takes before [] rest)
    {ending rest : List Char} (htail : ∀ before, tail.Takes before ending rest) {h : JavaHead}
    {limit : Nat} {here : Place} (hstart : here.before.all (· == '\n') = true)
    (htext : here.rest = h.print ++ (ending ++ rest)) (hlimit : here.rest.length ≤ limit) :
    ((memberHead gap excluded tail).matchHere? limit here).isSome := by
  have hprint : h.print ++ ending = (h.indentation.text ++ []) ++ (printModifiers h.modifiers ++ ([]
      ++ (h.type.print ++ ([' '] ++ (h.name.text ++ ([] ++ ending)))))) := by
    simp [JavaHead.print]
  have hrest : here.rest = (h.print ++ ending) ++ rest := by rw [htext, List.append_assoc]
  refine matchHere?_isSome hrest hlimit ?_
  refine ⟨_, _, hprint, ⟨h.indentation.text, [], rfl, ?_, Rounds.none _ _⟩, ?_⟩
  · refine ⟨[], _, rfl, ⟨rfl, hstart⟩, takes_many.mpr fun c hc => ?_⟩
    rcases h.indentation.ofBlanks c hc with rfl | rfl <;> rfl
  · refine ⟨_, _, rfl, takes_leadingWords.mpr (leadingWords_printModifiers h.modifiers), ?_⟩
    refine ⟨[], _, rfl, hgap _ _, ?_⟩
    refine ⟨_, _, rfl, takes_print hpattern.excluded_other h.type, ?_⟩
    refine ⟨[' '], _, rfl, takes_many1.mpr ⟨List.cons_ne_nil _ _, forall_mem_of_all rfl⟩, ?_⟩
    refine ⟨_, _, rfl, takes_many1.mpr ⟨h.name.nonempty, h.name.ofWords⟩, ?_⟩
    exact ⟨[], ending, rfl, takes_many.mpr fun c hc => absurd hc List.not_mem_nil, htail _⟩

end ServiceMap.Declaration
