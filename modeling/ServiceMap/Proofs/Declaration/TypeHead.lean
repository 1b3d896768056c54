import ServiceMap.Proofs.Declaration.MemberReading

/-!
# The head of a class in print

The pattern for the heads of types runs over the whole of a source. In a printed class it matches at
the start, where it finds the name, and nowhere else: a kind of type stands there as a word of its
own, and no member holds such a word.
-/

namespace ServiceMap.Declaration

open Text Source Pattern

/-! ## What the pattern takes -/

/-- Modifiers of a type. -/
def typeModifiers : List String :=
  ["public", "private", "protected", "abstract", "final", "static", "sealed", "strictfp"]

/-- The head of a type before its name. -/
def typeFront : Pattern :=
  wordEdge ++ capture 1 (star (oneOf typeModifiers ++ blanks1)) ++ capture 2 (oneOf javaTypeKinds)
    ++ blanks1

/-- Words, each with blanks after it. -/
theorem leadingWords_of_takes {texts : List String} {before : Option Char} {taken rest : List Char}
    (htexts : ∀ {w}, w ∈ texts → w.toList ≠ [] ∧ ∀ c ∈ w.toList, isWord c = true)
    (h : (star (oneOf texts ++ blanks1)).Takes before taken rest) : LeadingWords taken := by
  induction (h : Rounds _ before taken rest) with
  | none => exact .none
  | more _ first _ ih =>
      obtain ⟨_, gap, rfl, hw, hgap⟩ := first
      obtain ⟨w, hmem, rfl⟩ := takes_oneOf.mp hw
      rw [List.append_assoc]
      exact .more (htexts hmem).1 (htexts hmem).2 (takes_many1.mp hgap).1
        (takes_many1.mp hgap).2 ih

/-- Of modifiers, either there are none or there is a first one. -/
theorem modifiers_cases {texts : List String} {before : Option Char} {taken rest : List Char}
    (h : (star (oneOf texts ++ blanks1)).Takes before taken rest) :
    taken = [] ∨ ∃ w gap others, taken = w.toList ++ (gap ++ others) ∧ w ∈ texts
      ∧ (gap ≠ [] ∧ ∀ c ∈ gap, isBlank c = true)
      ∧ ∃ between, (star (oneOf texts ++ blanks1)).Takes between others rest := by
  cases (h : Rounds _ before taken rest) with
  | none => exact Or.inl rfl
  | more _ first others =>
      obtain ⟨_, gap, rfl, hw, hgap⟩ := first
      obtain ⟨w, hmem, rfl⟩ := takes_oneOf.mp hw
      exact Or.inr ⟨w, gap, _, List.append_assoc .., hmem, takes_many1.mp hgap, _, others⟩

theorem typeModifiers_isWord {w : String} (h : w ∈ typeModifiers) :
    w.toList ≠ [] ∧ ∀ c ∈ w.toList, isWord c = true := by
  have hall : ∀ w ∈ typeModifiers, w.toList ≠ [] ∧ w.toList.all isWord = true := by
    decide +kernel
  exact ⟨(hall w h).1, List.all_eq_true.mp (hall w h).2⟩

theorem javaTypeKinds_isWord {w : String} (h : w ∈ javaTypeKinds) :
    w.toList ≠ [] ∧ ∀ c ∈ w.toList, isWord c = true :=
  reservedWord_isWord (List.mem_append_right _ h)

/-- The kind in the head of a type is a word of its own. -/
theorem kind_of_takes {before : Option Char} {taken rest : List Char}
    (h : typeFront.Takes before taken rest) :
    ∃ front kind gap, taken = front ++ (kind.toList ++ gap) ∧ kind ∈ javaTypeKinds
      ∧ (gap ≠ [] ∧ ∀ c ∈ gap, isBlank c = true)
      ∧ ∀ c ∈ lastOr before front, isWord c = false := by
  obtain ⟨_, gap, rfl, ⟨_, _, rfl, ⟨_, modifiers, rfl, ⟨rfl, hedge⟩, hmodifiers⟩, hkind⟩, hgap⟩ := h
  obtain ⟨kind, hmem, rfl⟩ := takes_oneOf.mp hkind
  obtain ⟨hne, hword⟩ := javaTypeKinds_isWord hmem
  refine ⟨modifiers, kind, gap, List.append_assoc .., hmem, takes_many1.mp hgap, fun c hc => ?_⟩
  have hleading := leadingWords_of_takes typeModifiers_isWord hmodifiers
  rcases List.eq_nil_or_concat modifiers with rfl | ⟨s, d, rfl⟩
  · -- the kind starts at the edge of a word
    obtain rfl : before = some c := hc
    obtain ⟨d, s, hs⟩ := List.exists_cons_of_ne_nil hne
    refine Bool.eq_false_iff.mpr fun hbefore => hedge ?_
    rw [hs]
    show isWord c = isWord d
    rw [hbefore, hword d (hs ▸ List.mem_cons_self)]
  · rw [List.concat_eq_append] at hc hleading
    rw [lastOr_snoc] at hc
    exact isWord_of_isBlank (hleading.last c (by rw [List.getLast?_concat]; exact hc))

/-- No type is found in a text in which no kind of type is named. -/
theorem javaTypeHead_eq_none {before : Option Char} {limit index : Nat} {d e : List Char}
    (h : IsFreeOf javaTypeKinds (d ++ e)) :
    javaTypeHead.matchHere? limit ⟨lastOr before d, e, index, []⟩ = none := by
  refine Option.eq_none_iff_forall_ne_some.mpr fun m hm => ?_
  obtain ⟨_, rest, hrest, ⟨s, name, rfl, hfront, -⟩, -, -⟩ := takes_of_matchHere? hm
  obtain ⟨front, kind, gap, rfl, hmem, ⟨hgap, hblank⟩, hlast⟩ := kind_of_takes hfront
  obtain ⟨hne, hword⟩ := javaTypeKinds_isWord hmem
  obtain ⟨g, gap, rfl⟩ := List.exists_cons_of_ne_nil hgap
  have htext : d ++ e = (d ++ front) ++ (kind.toList ++ (g :: (gap ++ (name ++ rest)))) := by
    obtain rfl : e = _ := hrest
    simp only [List.append_assoc, List.cons_append]
  -- the kind would be one of the words of the whole text
  refine h kind.toList ?_ (by rwa [String.ofList_toList])
  rw [htext]
  refine mem_runs_of_occurrence hne (fun c hc => by simp [hword c hc]) (fun c hc => ?_)
    (fun c hc => ?_)
  · rw [hlast c (by rw [← lastOr_append, lastOr, hc]; rfl)]
    rfl
  · obtain rfl := Option.some.inj hc
    rw [isWord_of_isBlank (hblank g List.mem_cons_self)]
    rfl

/-! ## The line of a class -/

/-- What stands before the name of a class. -/
def classWords : List Char :=
  "public class ".toList

theorem classWords_eq :
    classWords = "public".toList ++ ([' '] ++ ("class".toList ++ [' '])) := by decide

theorem isBlanks_space : [' '] ≠ [] ∧ ∀ c ∈ [' '], isBlank c = true :=
  ⟨List.cons_ne_nil _ _, fun _ hc => List.mem_singleton.mp hc ▸ rfl⟩

/-- What the head of a class starts with is determined by its line. -/
theorem typeFront_unique {before : Option Char} {taken rest name : List Char}
    (hname : ∀ c ∈ name.head?, isBlank c = false) (hrest : ∀ c ∈ rest.head?, isBlank c = false)
    (h : typeFront.Takes before taken rest) (htext : taken ++ rest = classWords ++ name) :
    taken = classWords ∧ rest = name := by
  obtain ⟨_, gap, rfl, ⟨_, _, rfl, ⟨_, modifiers, rfl, ⟨rfl, -⟩, hmodifiers⟩, hkind⟩, hgap⟩ := h
  obtain ⟨kind, hmem, rfl⟩ := takes_oneOf.mp hkind
  obtain ⟨hne, hword⟩ := javaTypeKinds_isWord hmem
  have hblanks := takes_many1.mp hgap
  rw [classWords_eq] at htext ⊢
  simp only [List.nil_append, List.append_assoc] at htext ⊢
  have hpublicWord : ∀ c ∈ "public".toList, isWord c = true := forall_mem_of_all (by decide)
  have hclassWord : ∀ c ∈ "class".toList, isWord c = true := forall_mem_of_all (by decide)
  have hclass : ∀ c ∈ ("class".toList ++ ([' '] ++ name)).head?, isBlank c = false :=
    forall_head?_append (by decide) (fun c hc => isBlank_of_isWord (hclassWord c hc)) _
  have hhead : ∀ {s : List Char}, LeadingWords s →
      ∀ c ∈ (s ++ (kind.toList ++ (gap ++ rest))).head?, isBlank c = false := fun hs c hc =>
    isBlank_of_isDottedWord (hs.head (forall_head?_append hne
      (fun d hd => isDottedWord_of_isWord (hword d hd)) _) c hc)
  rcases modifiers_cases hmodifiers with rfl | ⟨w, space, others, rfl, hw, hspace, _, hothers⟩
  · -- no kind of type is the word `public`
    obtain ⟨hpublic, -⟩ := word_gap_inj hword hpublicWord hblanks isBlanks_space hrest hclass htext
    exact absurd (String.toList_inj.mp hpublic ▸ hmem) (by decide)
  simp only [List.append_assoc] at htext ⊢
  obtain ⟨hpublic, rfl, hmore⟩ := word_gap_inj (typeModifiers_isWord hw).2 hpublicWord hspace
    isBlanks_space (hhead (leadingWords_of_takes typeModifiers_isWord hothers)) hclass htext
  rw [hpublic]
  rcases modifiers_cases hothers with rfl | ⟨v, space, later, rfl, hv, hspace, _, hlater⟩
  · obtain ⟨heq, rfl, rfl⟩ :=
      word_gap_inj hword hclassWord hblanks isBlanks_space hrest hname hmore
    rw [heq]
    exact ⟨rfl, rfl⟩
  · -- no modifier is the word `class`
    simp only [List.append_assoc] at hmore
    obtain ⟨heq, -⟩ := word_gap_inj (typeModifiers_isWord hv).2 hclassWord hspace
      isBlanks_space (hhead (leadingWords_of_takes typeModifiers_isWord hlater)) hname hmore
    exact absurd (String.toList_inj.mp heq ▸ hv) (by decide)

theorem takes_classWords (rest : List Char) : typeFront.Takes none classWords rest := by
  have hpublic : ∀ before rest,
      (star (oneOf typeModifiers ++ blanks1)).Takes before ("public".toList ++ [' ']) rest := by
    intro before rest
    have hround : (oneOf typeModifiers ++ blanks1).Takes before ("public".toList ++ [' '])
        ([] ++ rest) :=
      ⟨_, _, rfl, takes_oneOf.mpr ⟨"public", by decide, rfl⟩, takes_many1.mpr isBlanks_space⟩
    rw [← List.append_nil ("public".toList ++ [' '])]
    exact Rounds.more (List.append_ne_nil_of_right_ne_nil _ isBlanks_space.1) hround
      (Rounds.none _ _)
  have hwords : classWords
      = ([] ++ ("public".toList ++ [' '])) ++ "class".toList ++ [' '] := by decide
  rw [hwords]
  refine ⟨_, [' '], rfl, ⟨[] ++ ("public".toList ++ [' ']), "class".toList, rfl,
    ⟨[], "public".toList ++ [' '], rfl, ⟨rfl, ?_⟩, hpublic _ _⟩,
    takes_oneOf.mpr ⟨"class", by decide, rfl⟩⟩, takes_many1.mpr isBlanks_space⟩
  exact Bool.false_ne_true

/-- **The head of a class** is found at the start of its line, with the name that was printed. -/
theorem javaTypeHead_classLine {limit : Nat} (name : JavaName) {rest : List Char} {c : Char}
    (hc : isWord c = false) (hlimit : (classWords ++ (name.text ++ c :: rest)).length ≤ limit) :
    ∃ m, javaTypeHead.matchHere? limit ⟨none, classWords ++ (name.text ++ c :: rest), 0, []⟩
        = some m
      ∧ m.group 3 = name.text ∧ m.start = 0 ∧ m.stop = (classWords ++ name.text).length := by
  have htakes : javaTypeHead.Takes none (classWords ++ name.text) (c :: rest) :=
    ⟨_, _, rfl, takes_classWords _, takes_many1.mpr ⟨name.nonempty, name.ofWords⟩⟩
  obtain ⟨m, hm⟩ := Option.isSome_iff_exists.mp <|
    matchHere?_isSome (show Place.rest ⟨none, classWords ++ (name.text ++ c :: rest), 0, []⟩ = _
      from (List.append_assoc ..).symm) hlimit htakes
  obtain ⟨_, _, _, _, hstart, _⟩ := takes_of_matchHere? hm
  obtain ⟨s, t, more, htext, hs, hne, hwords, hend, hgroup, hstop⟩ := greedy_of_matchHere? hm
  have visible : ∀ {t : List Char}, t ≠ [] → (∀ c ∈ t, isWord c = true) → ∀ more,
      ∀ c ∈ (t ++ more).head?, isBlank c = false := fun hne ht =>
    forall_head?_append hne fun c hc => isBlank_of_isWord (ht c hc)
  -- what was taken before the name is `public class `, so that the name is what follows
  obtain ⟨rfl, hname⟩ := typeFront_unique (visible name.nonempty name.ofWords _)
    (visible hne hwords _) hs htext.symm
  have hafter : ∀ d ∈ (c :: rest).head?, isWord d = false := fun d hd => Option.some.inj hd ▸ hc
  obtain ⟨rfl, -⟩ := append_inj_of_span hend hafter t hwords name.ofWords hname
  refine ⟨m, hm, hgroup, hstart, ?_⟩
  rw [hstop, List.length_append]
  exact Nat.zero_add _

/-- In a class that holds no kind of type, one head of a type is found. -/
theorem findAll_javaTypeHead (name : JavaName) {rest : List Char} {c : Char}
    (hc : isWord c = false) (hfree : IsFreeOf javaTypeKinds (c :: rest)) :
    ∃ m, javaTypeHead.findAll (classWords ++ (name.text ++ c :: rest)) = [m]
      ∧ m.group 3 = name.text ∧ m.start = 0 ∧ m.stop = (classWords ++ name.text).length := by
  obtain ⟨m, hm, hgroup, hstart, hstop⟩ := javaTypeHead_classLine name hc (Nat.le_refl _)
  refine ⟨m, ?_, hgroup, hstart, hstop⟩
  rw [← List.append_assoc] at hm ⊢
  have hne : classWords ++ name.text ≠ [] := List.append_ne_nil_of_right_ne_nil _ name.nonempty
  rw [findAll, allFrom_of_matchHere? hne hm (hstop.trans (Nat.zero_add _).symm)]
  refine congrArg (m :: ·) (allFrom_eq_nil fun d e hde => ?_)
  exact javaTypeHead_eq_none (hde ▸ hfree)

/-! ## No member names a kind of type -/

theorem isFreeOf_printModifiers {modifiers : List JavaModifier} {s : List Char}
    (hs : IsFreeOf javaTypeKinds s) : IsFreeOf javaTypeKinds (printModifiers modifiers ++ s) := by
  induction modifiers with
  | nil => exact hs
  | cons w modifiers ih =>
      have hmodifier : ∀ w ∈ javaModifiers, w ∉ javaTypeKinds := by decide
      obtain ⟨hne, hw⟩ := modifier_isWord w.2
      rw [printModifiers_cons, List.append_assoc, List.append_assoc, List.singleton_append,
        isFreeOf_append_cons rfl, isFreeOf_word hne hw, String.ofList_toList]
      exact ⟨hmodifier w.val w.2, ih⟩

/-- A type, a blank and a name. -/
theorem isFreeOf_typeName (type : JavaTypeText) (name : JavaName) :
    IsFreeOf javaTypeKinds (type.print ++ ' ' :: name.text) := by
  have hkinds : ∀ w ∈ javaTypeKinds, w ∈ javaReservedWords := fun w hw =>
    List.mem_append_right _ hw
  rw [isFreeOf_append_cons rfl]
  exact ⟨type.print_isFreeOf.mono hkinds, name.unreserved.mono hkinds⟩

theorem JavaHead.print_isFreeOf (head : JavaHead) : IsFreeOf javaTypeKinds head.print := by
  have hindentation : ∀ c ∈ head.indentation.text, isWord c = false := by
    intro c hc
    rcases head.indentation.ofBlanks c hc with rfl | rfl <;> rfl
  rw [JavaHead.print, isFreeOf_append hindentation]
  exact isFreeOf_printModifiers (isFreeOf_typeName _ _)

theorem printParameters_isFreeOf (parameters : List JavaParameter) :
    IsFreeOf javaTypeKinds (printParameters parameters) := by
  induction parameters with
  | nil => exact isFreeOf_nil
  | cons p parameters ih =>
      cases parameters with
      | nil => exact isFreeOf_typeName p.type p.name
      | cons q parameters =>
          rw [printParameters_cons_cons, isFreeOf_append_cons rfl, isFreeOf_cons rfl]
          exact ⟨isFreeOf_typeName p.type p.name, ih⟩

theorem isFreeOf_member {member : JavaMember} {rest : List Char}
    (h : IsFreeOf javaTypeKinds rest) : IsFreeOf javaTypeKinds (member.print ++ rest) := by
  cases member with
  | field head =>
      rw [print_field, List.append_assoc, List.append_assoc, List.singleton_append,
        List.singleton_append, isFreeOf_append_cons rfl, isFreeOf_cons rfl]
      exact ⟨head.print_isFreeOf, h⟩
  | method head parameters body =>
      have htext : (JavaMember.method head parameters body).print ++ rest
          = head.print ++ '(' :: (printParameters parameters
            ++ ')' :: ' ' :: '\x7b' :: '\n' :: (body.text ++ '\x7d' :: '\n' :: rest)) := by
        simp [JavaMember.print]
      rw [htext, isFreeOf_append_cons rfl, isFreeOf_append_cons rfl, isFreeOf_cons rfl,
        isFreeOf_cons rfl, isFreeOf_cons rfl, isFreeOf_append_cons rfl, isFreeOf_cons rfl]
      exact ⟨head.print_isFreeOf, printParameters_isFreeOf parameters, body.untyped, h⟩

theorem isFreeOf_printMembers {members : List JavaMember} {rest : List Char}
    (h : IsFreeOf javaTypeKinds rest) : IsFreeOf javaTypeKinds (printMembers members ++ rest) := by
  induction members with
  | nil => exact h
  | cons member members ih =>
      rw [printMembers_cons, List.append_assoc]
      exact isFreeOf_member ih

end ServiceMap.Declaration
