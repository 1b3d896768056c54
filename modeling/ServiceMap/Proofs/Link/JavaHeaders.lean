import Mathlib.Data.List.TakeWhile
import ServiceMap.Proofs.Link.Headers

/-!
# Heads of Java classes

The arguments of a type are taken up to the first closing bracket. Where a list of type parameters or
of the arguments of the base class is flat, this is its end, and what stands behind it is read: the
base class and the interfaces, whose own arguments may be nested to any depth. Where such a list is
nested, its rest stands in the way, and every clause behind it is lost.
-/

namespace ServiceMap.Link

open Text Source Declaration Pattern

/-! ## What is written -/

/-- A clause of a head, after the word it starts with. -/
structure Clause (α : Type) where
  before : Space
  after : Space
  body : α

/-- A clause as it is written, if there is one. -/
def printClause {α : Type} (word : String) (print : α → List Char) : Option (Clause α) → List Char
  | none => []
  | some c => c.before.text ++ (word.toList ++ (c.after.text ++ print c.body))

/-- The head of a Java class. -/
structure JavaHeader where
  gap : Space
  name : TypeName
  parameters : Option TypeArguments
  base : Option (Clause TypeUse)
  interfaces : Option (Clause TypeList)
  trailing : Gap

namespace JavaHeader

/-- The interfaces of a head with the blanks after them. -/
def interfacesText (h : JavaHeader) : List Char :=
  printClause "implements" TypeList.print h.interfaces ++ h.trailing.text

/-- What a head has after its name. -/
def tail (h : JavaHeader) : List Char :=
  printArguments h.parameters ++ (printClause "extends" TypeUse.print h.base ++ h.interfacesText)

/-- What a head has after the word `class`. -/
def afterWord (h : JavaHeader) : List Char :=
  h.gap.text ++ (h.name.text ++ h.tail)

def print (h : JavaHeader) : List Char :=
  "class".toList ++ h.afterWord

/-- A text that holds this head, and no class besides. -/
def IsOnlyClassOf (h : JavaHeader) (masked : List Char) : Prop :=
  ∃ front back, masked = front ++ (h.print ++ '\x7b' :: back) ∧ IsBeforeClass front
    ∧ IsFreeOf ["class"] (h.afterWord ++ '\x7b' :: back)

/-- The arguments of the base class. -/
def baseArguments (h : JavaHeader) : Option TypeArguments :=
  h.base.bind fun clause => clause.body.arguments

/-- The interfaces of a head, in its order. -/
def interfaceTypes (h : JavaHeader) : List TypeUse :=
  (h.interfaces.map fun clause => clause.body.types).getD []

end JavaHeader

/-- No brackets inside the brackets. -/
def IsFlat (arguments : Option TypeArguments) : Prop :=
  ∀ a ∈ arguments, '<' ∉ a.text

instance (arguments : Option TypeArguments) : Decidable (IsFlat arguments) :=
  inferInstanceAs (Decidable (∀ a ∈ arguments, '<' ∉ a.text))

/-- After each closing bracket the list goes on with a comma or a further closing bracket. -/
def IsSeparated (arguments : Option TypeArguments) : Prop :=
  ∀ a ∈ arguments, ∀ front back, a.text = front ++ '>' :: back →
    visible (back ++ ['>']) = some ',' ∨ visible (back ++ ['>']) = some '>'

/-! ## Arguments are taken up to the first closing bracket -/

theorem not_mem_closer_of_flat {a : TypeArguments} (h : '<' ∉ a.text) : '>' ∉ a.text := by
  have hcount := Bracket.count_of_depthAfter a.balanced
  intro hmem
  have hopener : a.text.count Bracket.angle.opener = 0 := List.count_eq_zero.mpr h
  have hcloser : 0 < a.text.count Bracket.angle.closer := List.count_pos_iff.mpr hmem
  omega

theorem mem_closer_of_nested {a : TypeArguments} (h : '<' ∈ a.text) : '>' ∈ a.text := by
  have hcount := Bracket.count_of_depthAfter a.balanced
  have hopener : 0 < a.text.count Bracket.angle.opener := List.count_pos_iff.mpr h
  have hcloser : 0 < a.text.count Bracket.angle.closer := by omega
  exact List.count_pos_iff.mp hcloser

theorem takesFirst_fewTypeArguments (g : Gap) {s rest : List Char} (hs : '>' ∉ s)
    (hbrace : '\x7b' ∉ s) {limit : Nat} {p : Place}
    (htext : p.rest = g.text ++ '<' :: (s ++ '>' :: rest)) :
    fewTypeArguments.TakesFirst limit p (g.text ++ '<' :: (s ++ ['>'])) rest [] := by
  have hopener : (blanks ++ lit "<").TakesFirst limit p (g.text ++ ['<']) (s ++ '>' :: rest) [] :=
    g.takesFirst_mark rfl rfl htext
  have hfew : (few (· != '\x7b') ++ char (· == '>')).TakesFirst limit
      (p.after (g.text ++ ['<']) (s ++ '>' :: rest) []) (s ++ ['>']) rest [] := by
    refine takesFirst_few_char rfl (fun c hc => ?_) hs
    rw [bne_iff_ne]
    rintro rfl
    exact hbrace hc
  have hall := takesFirst_append_assoc.mpr (hopener.append hfew)
  rw [List.append_assoc] at hall
  exact hall

theorem followsBlanks_fewTypeArguments : FollowsBlanks '<' fewTypeArguments :=
  ((followsBlanks_lit rfl).append _).append _

/-- **Arguments that are flat are taken whole.** Of nested ones a rest is left, before which the list
goes on. -/
theorem takesFirst_optArguments (arguments : Option TypeArguments) {rest : List Char}
    (hrest : visible rest ≠ some '<') (limit : Nat) {p : Place}
    (htext : p.rest = printArguments arguments ++ rest) :
    ∃ s r, (opt fewTypeArguments).TakesFirst limit p s r []
      ∧ (IsFlat arguments → r = rest)
      ∧ (¬IsFlat arguments → IsSeparated arguments →
        visible r = some ',' ∨ visible r = some '>') := by
  cases arguments with
  | none =>
      obtain rfl : p.rest = rest := htext
      refine ⟨[], p.rest, followsBlanks_fewTypeArguments.skipped rfl hrest limit, fun _ => rfl, ?_⟩
      exact fun h => absurd (fun a ha => nomatch ha) h
  | some a =>
      have htext : p.rest = a.gap.text ++ '<' :: (a.text ++ '>' :: rest) := by
        rw [htext]
        simp [printArguments, TypeArguments.print]
      have hbrace : '\x7b' ∉ a.text := fun h => absurd (a.ofList _ h) (by decide)
      by_cases hflat : '<' ∈ a.text
      · obtain ⟨front, back, hsplit, hfirst⟩ :=
          List.eq_append_cons_of_mem (mem_closer_of_nested hflat)
        rw [hsplit, List.append_assoc, List.cons_append] at htext
        have hfront : '\x7b' ∉ front := fun h => hbrace (hsplit ▸ List.mem_append_left _ h)
        refine ⟨_, _, (takesFirst_fewTypeArguments a.gap hfirst hfront htext).opt,
          fun h => absurd hflat (h a rfl), fun _ hseparated => ?_⟩
        have hsame : back ++ '>' :: rest = back ++ ['>'] ++ rest := by simp
        rw [hsame]
        exact (hseparated a rfl front back hsplit).imp (visible_append_of_some · rest)
          (visible_append_of_some · rest)
      · refine ⟨_, rest,
          (takesFirst_fewTypeArguments a.gap (not_mem_closer_of_flat hflat) hbrace htext).opt,
          fun _ => rfl, fun h => absurd (fun b hb => ?_) h⟩
        obtain rfl : a = b := Option.some.inj hb
        exact hflat

/-! ## Clauses -/

/-- The clause that names the base class. -/
def extendsClause : Pattern :=
  blanks1 ++ lit "extends" ++ blanks1 ++ capture 2 dottedWord ++ opt fewTypeArguments

/-- The clause that lists the interfaces. -/
def implementsClause : Pattern :=
  blanks1 ++ lit "implements" ++ blanks1
    ++ capture 3 (many1 fun c => isDottedWord c || c == ',' || isBlank c || c == '<' || c == '>')

theorem javaClass_eq :
    javaClass = classFront ++ opt fewTypeArguments ++ opt extendsClause ++ opt implementsClause :=
  rfl

theorem followsBlanks_extendsClause : FollowsBlanks 'e' extendsClause :=
  (((followsBlanks1_lit rfl).append _).append _).append _

theorem followsBlanks_implementsClause : FollowsBlanks 'i' implementsClause :=
  ((followsBlanks1_lit rfl).append _).append _

/-- What a clause starts with: blanks, a word and blanks. -/
theorem takesFirst_clauseWord {word : String} {c : Char} {s : List Char}
    (hword : word.toList = c :: s) (hc : isBlank c = false) (limit : Nat) (before after : Space)
    {rest : List Char} (hrest : ∀ c ∈ rest.head?, isBlank c = false) {p : Place}
    (htext : p.rest = before.text ++ (word.toList ++ (after.text ++ rest))) :
    (blanks1 ++ lit word ++ blanks1).TakesFirst limit p
      (before.text ++ (word.toList ++ after.text)) rest [] := by
  have hvisible : ∀ d ∈ (word.toList ++ (after.text ++ rest)).head?, isBlank d = false := by
    rw [hword]
    exact forall_head?_cons hc _
  have hbefore : blanks1.TakesFirst limit p before.text (word.toList ++ (after.text ++ rest)) [] :=
    before.takesFirst hvisible htext
  have hlit : (lit word).TakesFirst limit
      (p.after before.text (word.toList ++ (after.text ++ rest)) []) word.toList
      (after.text ++ rest) [] := takesFirst_lit rfl
  have hall := (hbefore.append hlit).append (after.takesFirst hrest rfl)
  rw [List.append_assoc] at hall
  exact hall

/-- The base class is found, whatever its arguments are. -/
theorem takesFirst_extends (limit : Nat) (base : Option (Clause TypeUse)) {rest : List Char}
    (hrest : visible rest ≠ some '<') (hword : visible rest ≠ some 'e')
    (hhead : ∀ c ∈ rest.head?, isDottedWord c = false) {p : Place}
    (htext : p.rest = printClause "extends" TypeUse.print base ++ rest) :
    ∃ (found : Option Capture) (s r : List Char),
      found.map Capture.text = base.map (fun clause => clause.body.name.text)
      ∧ (opt extendsClause).TakesFirst limit p s r (found.map (Prod.mk 2)).toList
      ∧ (IsFlat (base.bind fun clause => clause.body.arguments) → r = rest)
      ∧ (¬IsFlat (base.bind fun clause => clause.body.arguments) →
        IsSeparated (base.bind fun clause => clause.body.arguments) →
          visible r = some ',' ∨ visible r = some '>') := by
  cases base with
  | none =>
      obtain rfl : p.rest = rest := htext
      refine ⟨none, [], p.rest, rfl, followsBlanks_extendsClause.skipped rfl hword limit,
        fun _ => rfl, fun h => absurd (fun a ha => nomatch ha) h⟩
  | some clause =>
      obtain ⟨before, after, name, arguments⟩ := clause
      have hvisible : ∀ c ∈ (name.text ++ (printArguments arguments ++ rest)).head?,
          isBlank c = false :=
        forall_head?_append name.nonempty (fun c hc => isBlank_of_isWord (name.ofWords c hc)) _
      have htext : p.rest = before.text ++ ("extends".toList ++ (after.text
          ++ (name.text ++ (printArguments arguments ++ rest)))) := by
        rw [htext]
        simp [printClause, TypeUse.print]
      have hfront := takesFirst_clauseWord rfl rfl limit before after hvisible htext
      have hbody : dottedWord.TakesFirst limit (p.after
          (before.text ++ ("extends".toList ++ after.text))
          (name.text ++ (printArguments arguments ++ rest)) []) name.text
          (printArguments arguments ++ rest) [] :=
        takesFirst_many1 rfl name.nonempty (fun c hc => isDottedWord_of_isWord (name.ofWords c hc))
          (printArguments_head arguments hhead)
      obtain ⟨found, hfound, hcaptured⟩ := takesFirst_captured 2 hbody
      obtain ⟨s, r, harguments, hflat, hnested⟩ := takesFirst_optArguments arguments hrest limit
        (p := p.after (before.text ++ ("extends".toList ++ after.text) ++ name.text)
          (printArguments arguments ++ rest) ([(2, found)] ++ [])) rfl
      refine ⟨some found, _, r, ?_, ((hfront.append hcaptured).append harguments).opt, hflat,
        hnested⟩
      exact congrArg some hfound

/-- The interfaces are found, whatever their arguments are. -/
theorem takesFirst_implements (limit : Nat) (interfaces : Option (Clause TypeList)) (trailing : Gap)
    {back : List Char} {p : Place}
    (htext : p.rest = printClause "implements" TypeList.print interfaces
      ++ (trailing.text ++ '\x7b' :: back)) :
    ∃ (found : Option Capture) (s r : List Char),
      found.map Capture.text
        = interfaces.map (fun clause => clause.body.print ++ trailing.text)
      ∧ (opt implementsClause).TakesFirst limit p s r (found.map (Prod.mk 3)).toList := by
  cases interfaces with
  | none =>
      have htext : p.rest = trailing.text ++ '\x7b' :: back := htext
      have hnext : visible p.rest ≠ some 'i' := by
        rw [htext, visible_append trailing.ofBlanks, visible_cons rfl]
        decide
      exact ⟨none, [], p.rest, rfl, followsBlanks_implementsClause.skipped rfl hnext limit⟩
  | some clause =>
      obtain ⟨before, after, list⟩ := clause
      have hvisible : ∀ c ∈ (list.print ++ (trailing.text ++ '\x7b' :: back)).head?,
          isBlank c = false :=
        fun c hc => isBlank_of_isWord (list.print_head _ c hc)
      have htext : p.rest = before.text ++ ("implements".toList ++ (after.text
          ++ (list.print ++ (trailing.text ++ '\x7b' :: back)))) := by
        rw [htext]
        simp [printClause]
      have hfront := takesFirst_clauseWord rfl rfl limit before after hvisible htext
      have hclass : ∀ c ∈ list.print ++ trailing.text,
          (isDottedWord c || c == ',' || isBlank c || c == '<' || c == '>') = true := by
        intro c hc
        have hlist : isListChar c = true :=
          (List.mem_append.mp hc).elim (list.print_isListChar c) (trailing.isListChar c)
        rw [isListChar, Bool.or_eq_true, Bool.or_eq_true, List.contains_iff_mem] at hlist
        rcases hlist with (hword | hblank) | hmem
        · rw [isDottedWord_of_isWord hword]
          rfl
        · rw [hblank, Bool.or_true, Bool.true_or, Bool.true_or]
        · have hmarks : ∀ c ∈ [',', '<', '>'], (isDottedWord c || c == ',' || isBlank c || c == '<'
              || c == '>') = true := forall_mem_of_all (by decide)
          exact hmarks c hmem
      have hbody : (many1 fun c => isDottedWord c || c == ',' || isBlank c || c == '<'
          || c == '>').TakesFirst limit (p.after
          (before.text ++ ("implements".toList ++ after.text))
          (list.print ++ (trailing.text ++ '\x7b' :: back)) []) (list.print ++ trailing.text)
          ('\x7b' :: back) [] :=
        takesFirst_many1 (List.append_assoc ..).symm
          (List.append_ne_nil_of_left_ne_nil list.print_ne_nil _) hclass
          (forall_head?_cons (by decide) back)
      obtain ⟨found, hfound, hcaptured⟩ := takesFirst_captured 3 hbody
      exact ⟨some found, _, _, congrArg some hfound, (hfront.append hcaptured).opt⟩

/-! ## What is read of a head -/

namespace JavaHeader

variable {h : JavaHeader} {back : List Char} {p : Place} {limit : Nat} {m : Match}

theorem visible_interfaces (h : JavaHeader) (back : List Char) :
    visible (h.interfacesText ++ '\x7b' :: back) = some 'i'
      ∨ visible (h.interfacesText ++ '\x7b' :: back) = some '\x7b' := by
  rw [interfacesText, List.append_assoc]
  cases h.interfaces with
  | none =>
      right
      show visible (h.trailing.text ++ '\x7b' :: back) = some '\x7b'
      rw [visible_append h.trailing.ofBlanks, visible_cons rfl]
  | some clause =>
      left
      rw [printClause, List.append_assoc, visible_append clause.before.ofBlanks]
      exact visible_cons (c := 'i') rfl _

theorem visible_clauses (h : JavaHeader) (back : List Char) :
    visible (printClause "extends" TypeUse.print h.base ++ (h.interfacesText ++ '\x7b' :: back))
      ≠ some '<' := by
  cases h.base with
  | none =>
      rw [printClause, List.nil_append]
      rcases h.visible_interfaces back with hnext | hnext <;> rw [hnext] <;> decide
  | some clause =>
      rw [printClause, List.append_assoc, visible_append clause.before.ofBlanks]
      exact (visible_cons (c := 'e') rfl _).trans_ne (by decide)

theorem interfaces_head (h : JavaHeader) (back : List Char) :
    ∀ c ∈ (h.interfacesText ++ '\x7b' :: back).head?, isDottedWord c = false := by
  rw [interfacesText, List.append_assoc]
  cases h.interfaces with
  | none => exact h.trailing.head_append (forall_head?_cons (by decide) back)
  | some clause =>
      rw [printClause, List.append_assoc]
      exact clause.before.head_append _

theorem tail_head (h : JavaHeader) (back : List Char) :
    ∀ c ∈ (h.tail ++ '\x7b' :: back).head?, isDottedWord c = false := by
  rw [tail, List.append_assoc, List.append_assoc]
  refine printArguments_head _ ?_
  cases h.base with
  | none => exact h.interfaces_head back
  | some clause =>
      rw [printClause, List.append_assoc]
      exact clause.before.head_append _

theorem takesFirst_front (hp : StartsAt h.print back limit p) :
    ∃ c : Capture, c.text = h.name.text
      ∧ classFront.TakesFirst limit p ("class".toList ++ (h.gap.text ++ h.name.text))
        (h.tail ++ '\x7b' :: back) [(1, c)] := by
  refine takesFirst_classFront h.gap h.name (fun c hc => isWord_eq_false (h.tail_head back c hc))
    hp.before ?_
  rw [hp.text]
  simp [print, afterWord]

/-- A head is matched from its word on, with its name. -/
theorem exists_match (hp : StartsAt h.print back limit p) :
    ∃ m u t, javaClass.matchHere? limit p = some m ∧ m.group 1 = h.name.text
      ∧ h.afterWord ++ '\x7b' :: back = u ++ t
      ∧ m.stop = p.index + ("class".toList ++ u).length := by
  obtain ⟨c, hc, hfront⟩ := takesFirst_front hp
  have htakes : (opt fewTypeArguments ++ (opt extendsClause ++ opt implementsClause)).Takes
      (lastOr p.before ("class".toList ++ (h.gap.text ++ h.name.text))) []
      (h.tail ++ '\x7b' :: back) :=
    ⟨[], [], rfl, Or.inr rfl, [], [], rfl, Or.inr rfl, Or.inr rfl⟩
  obtain ⟨t, r, more, htext, hmore, hm⟩ := matchHere?_append hfront htakes hp.limit
  rw [hp.captures, List.append_nil] at hm
  refine ⟨_, h.gap.text ++ h.name.text ++ t, r, hm, ?_, ?_, ?_⟩
  · have hslots : ∀ slot ∈ (opt fewTypeArguments
        ++ (opt extendsClause ++ opt implementsClause)).slots, slot ≠ 1 := by decide
    rw [Match.group, group?_of_not_mem fun entry hentry => hslots _ (hmore entry hentry)]
    exact hc
  · rw [afterWord, List.append_assoc, List.append_assoc, htext]
    simp
  · rw [← List.append_assoc]
    rfl

/-- What is read up to the clauses: a list of type parameters up to its first closing bracket. -/
theorem takesFirst_parameters (hp : StartsAt h.print back limit p) :
    ∃ (c : Capture) (s r : List Char), c.text = h.name.text
      ∧ (classFront ++ opt fewTypeArguments).TakesFirst limit p s r [(1, c)]
      ∧ (IsFlat h.parameters → r = printClause "extends" TypeUse.print h.base
        ++ (h.interfacesText ++ '\x7b' :: back))
      ∧ (¬IsFlat h.parameters → IsSeparated h.parameters →
        visible r = some ',' ∨ visible r = some '>') := by
  obtain ⟨c, hc, hfront⟩ := takesFirst_front hp
  obtain ⟨s, r, harguments, hflat, hnested⟩ := takesFirst_optArguments h.parameters
    (h.visible_clauses back) limit
    (p := p.after ("class".toList ++ (h.gap.text ++ h.name.text)) (h.tail ++ '\x7b' :: back)
      [(1, c)])
    (by simp [Place.after, tail])
  exact ⟨c, _, r, hc, hfront.append harguments, hflat, hnested⟩

/-- What is read up to the interfaces, behind flat type parameters. -/
theorem takesFirst_base (hp : StartsAt h.print back limit p)
    (hparameters : IsFlat h.parameters) :
    ∃ (c : Capture) (found : Option Capture) (s r : List Char), c.text = h.name.text
      ∧ found.map Capture.text = h.base.map (fun clause => clause.body.name.text)
      ∧ (classFront ++ opt fewTypeArguments ++ opt extendsClause).TakesFirst limit p s r
        ((found.map (Prod.mk 2)).toList ++ [(1, c)])
      ∧ (IsFlat h.baseArguments → r = h.interfacesText ++ '\x7b' :: back)
      ∧ (¬IsFlat h.baseArguments → IsSeparated h.baseArguments →
        visible r = some ',' ∨ visible r = some '>') := by
  obtain ⟨c, s, r, hc, hfront, hflat, -⟩ := takesFirst_parameters hp
  obtain rfl := hflat hparameters
  have hnext := h.visible_interfaces back
  obtain ⟨found, t, r, hfound, hbase, hrest⟩ := takesFirst_extends limit h.base
    (p := p.after s (printClause "extends" TypeUse.print h.base
      ++ (h.interfacesText ++ '\x7b' :: back)) [(1, c)])
    (by rcases hnext with hnext | hnext <;> rw [hnext] <;> decide)
    (by rcases hnext with hnext | hnext <;> rw [hnext] <;> decide) (h.interfaces_head back) rfl
  exact ⟨c, found, _, r, hc, hfound, hfront.append hbase, hrest⟩

/-- Behind flat type parameters the base class is read. -/
theorem base_of_flat (hp : StartsAt h.print back limit p) (hparameters : IsFlat h.parameters)
    (hm : javaClass.matchHere? limit p = some m) :
    m.group? 2 = h.base.map fun clause => clause.body.name.text := by
  obtain ⟨c, found, s, r, hc, hfound, hfront, -⟩ := takesFirst_base hp hparameters
  have htakes : (opt implementsClause).Takes (lastOr p.before s) [] r := Or.inr rfl
  obtain ⟨t, _, more, -, hmore, hmatch⟩ := matchHere?_append hfront htakes hp.limit
  rw [hp.captures, List.append_nil] at hmatch
  obtain rfl := Option.some.inj (hm.symm.trans hmatch)
  have hslots : ∀ slot ∈ (opt implementsClause).slots, slot ≠ 2 := by decide
  rw [group?_of_not_mem fun entry hentry => hslots _ (hmore entry hentry), ← hfound]
  cases found <;> rfl

/-- Behind flat lists the interfaces are read. -/
theorem interfaces_of_flat (hp : StartsAt h.print back limit p)
    (hparameters : IsFlat h.parameters) (harguments : IsFlat h.baseArguments)
    (hm : javaClass.matchHere? limit p = some m) :
    m.group? 3 = h.interfaces.map fun clause => clause.body.print ++ h.trailing.text := by
  obtain ⟨c, found, s, r, hc, hfound, hfront, hflat, -⟩ := takesFirst_base hp hparameters
  obtain rfl := hflat harguments
  obtain ⟨listed, t, r, hlisted, hinterfaces⟩ := takesFirst_implements limit h.interfaces h.trailing
    (p := p.after s (h.interfacesText ++ '\x7b' :: back)
      ((found.map (Prod.mk 2)).toList ++ [(1, c)])) (List.append_assoc ..)
  have hmatch := matchHere?_of_takesFirst (hfront.append hinterfaces)
  rw [hp.captures, List.append_nil] at hmatch
  obtain rfl := Option.some.inj (hm.symm.trans hmatch)
  rw [← hlisted]
  cases listed <;> cases found <;> rfl

/-- Behind nested type parameters nothing is read. -/
theorem nothing_of_nested (hp : StartsAt h.print back limit p)
    (hparameters : ¬IsFlat h.parameters) (hseparated : IsSeparated h.parameters)
    (hm : javaClass.matchHere? limit p = some m) : m.group? 2 = none ∧ m.group? 3 = none := by
  obtain ⟨c, s, r, hc, hfront, -, hnested⟩ := takesFirst_parameters hp
  have hnext := hnested hparameters hseparated
  have hbase : (opt extendsClause).TakesFirst limit (p.after s r [(1, c)]) [] r [] :=
    followsBlanks_extendsClause.skipped rfl
      (show visible r ≠ some 'e' by rcases hnext with h | h <;> rw [h] <;> decide) limit
  have hinterfaces : (opt implementsClause).TakesFirst limit
      (p.after (s ++ []) r ([] ++ [(1, c)])) [] r [] :=
    followsBlanks_implementsClause.skipped rfl
      (show visible r ≠ some 'i' by rcases hnext with h | h <;> rw [h] <;> decide) limit
  have hmatch := matchHere?_of_takesFirst ((hfront.append hbase).append hinterfaces)
  rw [hp.captures] at hmatch
  obtain rfl := Option.some.inj (hm.symm.trans hmatch)
  exact ⟨rfl, rfl⟩

/-- Behind nested arguments of the base class no interface is read. -/
theorem no_interfaces_of_nested (hp : StartsAt h.print back limit p)
    (hparameters : IsFlat h.parameters) (harguments : ¬IsFlat h.baseArguments)
    (hseparated : IsSeparated h.baseArguments)
    (hm : javaClass.matchHere? limit p = some m) : m.group? 3 = none := by
  obtain ⟨c, found, s, r, hc, hfound, hfront, -, hnested⟩ := takesFirst_base hp hparameters
  have hnext := hnested harguments hseparated
  have hinterfaces : (opt implementsClause).TakesFirst limit
      (p.after s r ((found.map (Prod.mk 2)).toList ++ [(1, c)])) [] r [] :=
    followsBlanks_implementsClause.skipped rfl
      (show visible r ≠ some 'i' by rcases hnext with h | h <;> rw [h] <;> decide) limit
  have hmatch := matchHere?_of_takesFirst (hfront.append hinterfaces)
  rw [hp.captures, List.append_nil] at hmatch
  obtain rfl := Option.some.inj (hm.symm.trans hmatch)
  cases found <;> rfl

theorem startsAtClass_javaClass : StartsAtClass javaClass := by
  rw [javaClass_eq]
  exact (((startsAtClass_front.append _).append _).append _).append _

/-- In a text that holds a head and no class besides, this head is all that is found. -/
theorem IsOnlyClassOf.findAll {masked : List Char} (hmasked : h.IsOnlyClassOf masked) :
    ∃ back limit p m, StartsAt h.print back limit p ∧ javaClass.matchHere? limit p = some m
      ∧ m.group 1 = h.name.text ∧ javaClass.findAll masked = [m] := by
  obtain ⟨front, back, rfl, hfront, hfree⟩ := hmasked
  have hp := startsAt_of_isBeforeClass hfront h.print back
  obtain ⟨m, u, t, hm, hname, hsplit, hstop⟩ := exists_match hp
  have htext : h.print ++ '\x7b' :: back = "class".toList ++ u ++ t := by
    rw [print, List.append_assoc, hsplit, List.append_assoc]
  refine ⟨back, _, _, m, hp, hm, hname, ?_⟩
  rw [htext] at hm ⊢
  exact findAll_of_one_class startsAtClass_javaClass hfront (by decide) (hsplit ▸ hfree) hm hstop

/-! ## The edges of a head -/

/-- The edge to the base class. -/
def baseEdges (h : JavaHeader) (file : String) (target : String → String) : List Edge :=
  h.base.toList.map fun clause =>
    ⟨file, target clause.body.name.toString, .inherits,
      h.name.toString ++ " extends " ++ clause.body.name.toString⟩

/-- The edges to the interfaces, in the order of the head. -/
def interfaceEdges (h : JavaHeader) (file : String) (target : String → String) : List Edge :=
  h.interfaceTypes.map fun type =>
    ⟨file, target type.name.toString, .implements,
      h.name.toString ++ " implements " ++ type.name.toString⟩

/-- The names of the base class and of the interfaces. -/
def supertypes (h : JavaHeader) : List String :=
  h.base.toList.map (fun clause => clause.body.name.toString)
    ++ h.interfaceTypes.map fun type => type.name.toString

theorem javaExtends_eq (hname : m.group 1 = h.name.text)
    (hbase : m.group? 2 = h.base.map fun clause => clause.body.name.text) :
    javaExtends m = h.base.toList.map fun clause =>
      ⟨.inherits, clause.body.name.text,
        h.name.text ++ " extends ".toList ++ clause.body.name.text⟩ := by
  rw [javaExtends, hbase]
  cases h.base with
  | none => rfl
  | some clause => simp [hname, TypeName.afterLast_text]

theorem javaImplements_eq {list : TypeList} {trailing : Gap} (hname : m.group 1 = h.name.text)
    (hfound : m.group? 3 = some (list.print ++ trailing.text)) :
    javaImplements m = list.types.map fun type =>
      ⟨.implements, type.name.text, h.name.text ++ " implements ".toList ++ type.name.text⟩ := by
  have hgroup : m.group 3 = list.print ++ trailing.text := by
    rw [Match.group, hfound]
    rfl
  rw [javaImplements, hgroup, list.parts_print, List.filterMap_map, ← List.filterMap_eq_map]
  refine List.filterMap_congr fun type _ => ?_
  simp [type.withoutArguments_print, TypeName.afterLast_text, type.name.nonempty, hname]

theorem kind_of_mem_javaExtends {use : SymbolUse} (h : use ∈ javaExtends m) :
    use.kind = .inherits := by
  rw [javaExtends] at h
  split at h
  · rw [List.mem_singleton.mp h]
  · exact absurd h List.not_mem_nil

theorem kind_of_mem_javaImplements {use : SymbolUse} (h : use ∈ javaImplements m) :
    use.kind = .implements := by
  obtain ⟨type, -, htype⟩ := List.mem_filterMap.mp h
  dsimp only at htype
  split at htype
  · exact nomatch htype
  · rw [← Option.some.inj htype]

/-- The references of a file with one head, by their kind. -/
theorem symbolUses_of_findAll {masked : List Char} (hfound : javaClass.findAll masked = [m]) :
    ∃ uses, symbolUses .java masked = .ok uses
      ∧ uses.filter (·.kind == .inherits) = javaExtends m
      ∧ uses.filter (·.kind == .implements) = javaImplements m := by
  refine ⟨_, rfl, ?_, ?_⟩
  · rw [hfound, List.flatMap_singleton, List.flatMap_singleton, List.filter_append,
      List.filter_append, List.filter_eq_self.mpr, List.filter_eq_nil_iff.mpr,
      List.filter_eq_nil_iff.mpr, List.append_nil, List.append_nil]
    · intro use huse
      obtain ⟨_, -, rfl⟩ := List.mem_map.mp huse
      exact Bool.false_ne_true
    · intro use huse
      rw [kind_of_mem_javaImplements huse]
      exact Bool.false_ne_true
    · intro use huse
      rw [kind_of_mem_javaExtends huse]
      rfl
  · rw [hfound, List.flatMap_singleton, List.flatMap_singleton, List.filter_append,
      List.filter_append, List.filter_eq_nil_iff.mpr, List.filter_eq_self.mpr,
      List.filter_eq_nil_iff.mpr, List.append_nil, List.nil_append]
    · intro use huse
      obtain ⟨_, -, rfl⟩ := List.mem_map.mp huse
      exact Bool.false_ne_true
    · intro use huse
      rw [kind_of_mem_javaImplements huse]
      rfl
    · intro use huse
      rw [kind_of_mem_javaExtends huse]
      exact Bool.false_ne_true

/-- The edge that the base class makes. -/
theorem edges_of_base {table : FileTable} {file : String} {target : String → String}
    (hdeclared : ∀ name ∈ h.supertypes, declaringFile? table name = some (target name))
    (hname : m.group 1 = h.name.text)
    (hbase : m.group? 2 = h.base.map fun clause => clause.body.name.text) :
    (javaExtends m).filterMap ((Extractor.ofTable table).symbolEdge? file)
      = h.baseEdges file target := by
  rw [javaExtends_eq hname hbase]
  exact edges_of_names .inherits h.name " extends " (fun clause => clause.body.name)
    (fun clause => clause.body.name.text) fun clause hclause =>
      hdeclared _ (List.mem_append_left _ (List.mem_map.mpr ⟨clause, hclause, rfl⟩))

theorem javaImplements_eq_nil (hnone : m.group? 3 = none) : javaImplements m = [] := by
  have hgroup : m.group 3 = [] := by
    rw [Match.group, hnone]
    rfl
  rw [javaImplements, hgroup, parts_nil]
  rfl

/-- The edges that the interfaces make. -/
theorem edges_of_interfaces {table : FileTable} {file : String} {target : String → String}
    (hdeclared : ∀ name ∈ h.supertypes, declaringFile? table name = some (target name))
    (hname : m.group 1 = h.name.text)
    (hlist : m.group? 3 = h.interfaces.map fun clause => clause.body.print ++ h.trailing.text) :
    (javaImplements m).filterMap ((Extractor.ofTable table).symbolEdge? file)
      = h.interfaceEdges file target := by
  cases hinterfaces : h.interfaces with
  | none =>
      rw [hinterfaces] at hlist
      rw [javaImplements_eq_nil hlist, interfaceEdges, interfaceTypes, hinterfaces]
      rfl
  | some clause =>
      rw [hinterfaces] at hlist
      have htypes : h.interfaceTypes = clause.body.types := by
        rw [interfaceTypes, hinterfaces]
        rfl
      rw [javaImplements_eq hname hlist, interfaceEdges, htypes]
      exact edges_of_names .implements h.name " implements " TypeUse.name
        (fun type => type.name.text) fun type htype =>
          hdeclared _ (List.mem_append_right _ (List.mem_map.mpr ⟨type, htypes ▸ htype, rfl⟩))

end JavaHeader

/-- **A Java head yields its edges up to a nested list.** In a file with one class, whose head names
declared types: behind type parameters that are flat there is one edge to the base class, and if the
arguments of the base class are flat too, one edge to each interface in the order of the head,
whatever arguments the interfaces have. Behind the first list that is not flat there is no edge. -/
theorem java_head_yields_edges_up_to_nested_list {tree : Tree} {workingDirectory : Path}
    {table : FileTable} {x : Extractor} (hx : x.IsFor tree workingDirectory table) {file : String}
    (hfile : (Path.ofString file).hasNul = false) {h : JavaHeader} {text : List Char}
    (htext : h.IsOnlyClassOf (maskComments Language.java.rawQuote text)) {target : String → String}
    (hdeclared : ∀ name ∈ h.supertypes, declaringFile? table name = some (target name)) :
    ∃ scan y, x.extract tree workingDirectory file text .java = .ok (scan, y)
      ∧ (IsFlat h.parameters →
        scan.edges.filter (·.kind == .inherits) = h.baseEdges file target)
      ∧ (IsFlat h.parameters → IsFlat h.baseArguments →
        scan.edges.filter (·.kind == .implements) = h.interfaceEdges file target)
      ∧ (IsFlat h.parameters → ¬IsFlat h.baseArguments → IsSeparated h.baseArguments →
        scan.edges.filter (·.kind == .implements) = [])
      ∧ (¬IsFlat h.parameters → IsSeparated h.parameters →
        scan.edges.filter (·.kind == .inherits) = []
          ∧ scan.edges.filter (·.kind == .implements) = []) := by
  obtain ⟨back, limit, p, m, hp, hm, hname, hfound⟩ := htext.findAll
  obtain ⟨uses, huses, hextends, himplements⟩ := JavaHeader.symbolUses_of_findAll hfound
  obtain ⟨scan, y, hscan, hedges⟩ := Extractor.edges_of_symbolUses hx hfile huses
  have hinherits := hedges .inherits (by decide)
  have hinterfaces := hedges .implements (by decide)
  rw [hextends] at hinherits
  rw [himplements] at hinterfaces
  refine ⟨scan, y, hscan, fun hflat => ?_, fun hflat hflat' => ?_, fun hflat hnested hsep => ?_,
    fun hnested hsep => ⟨?_, ?_⟩⟩
  · rw [hinherits]
    exact JavaHeader.edges_of_base hdeclared hname (JavaHeader.base_of_flat hp hflat hm)
  · rw [hinterfaces]
    exact JavaHeader.edges_of_interfaces hdeclared hname
      (JavaHeader.interfaces_of_flat hp hflat hflat' hm)
  · have hnone := JavaHeader.no_interfaces_of_nested hp hflat hnested hsep hm
    rw [hinterfaces, JavaHeader.javaImplements_eq_nil hnone]
    rfl
  · rw [hinherits, javaExtends, (JavaHeader.nothing_of_nested hp hnested hsep hm).1]
    rfl
  · have hnone := (JavaHeader.nothing_of_nested hp hnested hsep hm).2
    rw [hinterfaces, JavaHeader.javaImplements_eq_nil hnone]
    rfl

/-! ## A head with nested lists -/

/-- A table that declares a class and two interfaces. -/
def declaredShapes : FileTable :=
  [⟨"/w/Base.java", .java, [], [⟨"Base", "Class: Base", 1, [], [], []⟩], [], none⟩,
    ⟨"/w/Index.java", .java, [], [⟨"Index", "Class: Index", 1, [], [], []⟩], [], none⟩,
    ⟨"/w/Shape.java", .java, [], [⟨"Shape", "Class: Shape", 1, [], [], []⟩], [], none⟩]

/-- A class whose second list of arguments is nested. -/
def shelfText : List Char :=
  ("final class Shelf<K, V> extends Base<K> "
    ++ "implements Index<K, List<Set<V>>>, Shape \x7b\n\x7d\n").toList

/-- The head of the class. -/
def shelfHeader : JavaHeader where
  gap := oneSpace
  name := .ofString "Shelf" (by decide) (by decide)
  parameters := some <| .ofString "K, V" (by decide) (by decide) (by decide)
  base := some ⟨oneSpace, oneSpace, .ofString "Base" (by decide) (by decide),
    some <| .ofString "K" (by decide) (by decide) (by decide)⟩
  interfaces := some ⟨oneSpace, oneSpace, ⟨.ofString "Index" (by decide) (by decide),
      some <| .ofString "K, List<Set<V>>" (by decide) (by decide) (by decide)⟩,
    [⟨noGap, oneSpace.toGap, .ofString "Shape" (by decide) (by decide), none⟩]⟩
  trailing := oneSpace.toGap

theorem shelf_yields_all_edges :
    shelfHeader.IsOnlyClassOf (maskComments Language.java.rawQuote shelfText)
      ∧ IsFlat shelfHeader.parameters ∧ IsFlat shelfHeader.baseArguments
      ∧ ∃ scan y, (Extractor.ofTable declaredShapes).extract (.dir []) ⟨1, ["w"]⟩ "/w/Shelf.java"
          shelfText .java = .ok (scan, y)
        ∧ scan.edges.filter (·.kind == .inherits)
          = [⟨"/w/Shelf.java", "/w/Base.java", .inherits, "Shelf extends Base"⟩]
        ∧ scan.edges.filter (·.kind == .implements)
          = [⟨"/w/Shelf.java", "/w/Index.java", .implements, "Shelf implements Index"⟩,
            ⟨"/w/Shelf.java", "/w/Shape.java", .implements, "Shelf implements Shape"⟩] := by
  have htext : shelfHeader.IsOnlyClassOf (maskComments Language.java.rawQuote shelfText) :=
    ⟨"final".toList ++ [' '], "\n\x7d\n".toList, by decide +kernel,
      isBeforeClass_blank rfl (by decide), by decide +kernel⟩
  have hflat : IsFlat shelfHeader.parameters := by decide
  have hbase : IsFlat shelfHeader.baseArguments := by decide
  have hfile : (Path.ofString "/w/Shelf.java").hasNul = false := by decide
  have hdeclared : ∀ name ∈ shelfHeader.supertypes, declaringFile? declaredShapes name
      = some ((fun name => "/w/" ++ name ++ ".java") name) := by decide
  refine ⟨htext, hflat, hbase, ?_⟩
  obtain ⟨scan, y, hscan, hextends, himplements, -⟩ := java_head_yields_edges_up_to_nested_list
    (Extractor.isFor_ofTable declaredShapes) hfile htext hdeclared
  exact ⟨scan, y, hscan, hextends hflat, himplements hflat hbase⟩

/-- A class with a bound on its type parameter. -/
def boxText : List Char :=
  "class Box<T extends Comparable<T>> extends Base implements Shape \x7b\n\x7d\n".toList

/-- The head of the class. -/
def boxHeader : JavaHeader where
  gap := oneSpace
  name := .ofString "Box" (by decide) (by decide)
  parameters := some <| .ofString "T extends Comparable<T>" (by decide) (by decide) (by decide)
  base := some ⟨oneSpace, oneSpace, .ofString "Base" (by decide) (by decide), none⟩
  interfaces := some ⟨oneSpace, oneSpace, ⟨.ofString "Shape" (by decide) (by decide), none⟩, []⟩
  trailing := oneSpace.toGap

/-- The bound ends in two brackets, and the second one stands before the clauses. -/
theorem bound_hides_every_clause :
    boxHeader.IsOnlyClassOf (maskComments Language.java.rawQuote boxText)
      ∧ declaringFile? declaredShapes "Base" = some "/w/Base.java"
      ∧ declaringFile? declaredShapes "Shape" = some "/w/Shape.java"
      ∧ ∃ scan y, (Extractor.ofTable declaredShapes).extract (.dir []) ⟨1, ["w"]⟩ "/w/Box.java"
          boxText .java = .ok (scan, y)
        ∧ scan.edges.filter (·.kind == .inherits)
          ≠ [⟨"/w/Box.java", "/w/Base.java", .inherits, "Box extends Base"⟩]
        ∧ scan.edges.filter (·.kind == .implements)
          ≠ [⟨"/w/Box.java", "/w/Shape.java", .implements, "Box implements Shape"⟩] := by
  have htext : boxHeader.IsOnlyClassOf (maskComments Language.java.rawQuote boxText) :=
    ⟨[], "\n\x7d\n".toList, by decide +kernel, ⟨by decide, fun _ hc => nomatch hc⟩,
      by decide +kernel⟩
  have hedges : ((Extractor.ofTable declaredShapes).extract (.dir []) ⟨1, ["w"]⟩ "/w/Box.java"
      boxText .java).toOption.map (fun found => found.1.edges) = some [] := by
    decide +kernel
  obtain ⟨⟨scan, y⟩, hscan, hedges⟩ := exists_ok_of_toOption hedges
  have hnone : scan.edges = [] := hedges
  refine ⟨htext, by decide, by decide, scan, y, hscan, ?_, ?_⟩
  · rw [hnone]
    decide
  · rw [hnone]
    decide

end ServiceMap.Link
