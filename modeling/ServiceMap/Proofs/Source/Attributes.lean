import ServiceMap.Proofs.Source.Stretches
import ServiceMap.Source.Annotation

/-!
# Attributes in print

Groups of attributes as they are written down, and what is read of them. The end of a group is found
by its square brackets alone, while the attributes of a group are told apart with regard to brackets
of every kind. Both pass over literals; so each attribute is read as it was written, whatever commas,
brackets and quotes its literals hold.
-/

namespace ServiceMap.Source

open Text

/-! ## What is written -/

/-- Characters of the name of an attribute. -/
def isAttributeName (c : Char) : Bool :=
  !isBlank c && !isAnyQuote c && !isOpener c && !isCloser c && c != ','

/-- The arguments of an attribute. Outside of literals each kind of bracket is balanced, and there are
no angle brackets. -/
structure AttributeArguments where
  stretches : List Stretch
  noAngle : ∀ c ∈ shown stretches, c ≠ '<' ∧ c ≠ '>'
  balanced : ∀ b : Bracket, b ≠ .angle → b.IsBalanced (shown stretches)
  spaced : IsSpaced (written stretches)

/-- An attribute: a name, and arguments in parentheses or none. -/
structure Attribute where
  name : List Char
  nonempty : name ≠ []
  ofName : ∀ c ∈ name, isAttributeName c = true
  arguments : Option AttributeArguments

/-- A group of attributes, and the text after it up to the next group. -/
structure AttributeGroup where
  attributes : List Attribute
  after : List Char
  noBracket : '[' ∉ after

/-- A text with groups of attributes. -/
structure AttributeRegion where
  front : List Char
  noBracket : '[' ∉ front
  groups : List AttributeGroup

def AttributeArguments.print (a : AttributeArguments) : List Char :=
  '(' :: (written a.stretches ++ [')'])

def Attribute.print (a : Attribute) : List Char :=
  a.name ++ (a.arguments.map AttributeArguments.print).getD []

def AttributeGroup.inside (g : AttributeGroup) : List Char :=
  printList (g.attributes.map Attribute.print)

def AttributeGroup.print (g : AttributeGroup) : List Char :=
  '[' :: (g.inside ++ ']' :: g.after)

def AttributeRegion.print (r : AttributeRegion) : List Char :=
  r.front ++ r.groups.flatMap AttributeGroup.print

/-- The attributes of a text, in its order. -/
def AttributeRegion.attributes (r : AttributeRegion) : List Attribute :=
  r.groups.flatMap AttributeGroup.attributes

/-! ## One attribute -/

section Name

variable {c : Char} (h : isAttributeName c = true)
include h

theorem attributeName_iff : isBlank c = false ∧ isAnyQuote c = false ∧ isOpener c = false
    ∧ isCloser c = false ∧ c ≠ ',' := by
  simpa [isAttributeName, and_assoc] using h

theorem ne_bracket_of_isAttributeName (b : Bracket) : c ≠ b.opener ∧ c ≠ b.closer := by
  obtain ⟨-, -, hopener, hcloser, -⟩ := attributeName_iff h
  constructor
  · rintro rfl
    exact Bool.false_ne_true (hopener.symm.trans b.isOpener_opener)
  · rintro rfl
    exact Bool.false_ne_true (hcloser.symm.trans b.isCloser_closer)

end Name

namespace AttributeArguments

variable (a : AttributeArguments)

theorem isBalanced (b : Bracket) : b.IsBalanced (shown a.stretches) := by
  rcases eq_or_ne b .angle with rfl | hb
  · exact Bracket.depthAfter_of_none 0 a.noAngle
  · exact a.balanced b hb

theorem staysWhole_print : StaysWhole ',' 0 0 a.print :=
  (staysWhole_written a.isBalanced).group .round

theorem passesOver_print : Bracket.square.PassesOver a.print := by
  have hround : ∀ c : Char, c = '(' ∨ c = ')' → Bracket.square.PassesOver [c] := by
    intro c hc
    refine Bracket.passesOver_plain fun d hd => ?_
    rw [List.mem_singleton.mp hd]
    rcases hc with rfl | rfl <;> decide
  exact (hround '(' (Or.inl rfl)).append
    ((Bracket.passesOver_written (a.isBalanced .square)).append (hround ')' (Or.inr rfl)))

theorem isSpaced_print : IsSpaced a.print :=
  (isSpaced_bracket (by decide : isBlank '(' = false)).append
    (a.spaced.append (isSpaced_bracket (by decide)) (Or.inr (by simp; decide)))
    (Or.inl (by simp; decide))

end AttributeArguments

namespace Attribute

variable (a : Attribute)

theorem staysWhole_print : StaysWhole ',' 0 0 a.print := by
  have hname : StaysWhole ',' 0 0 a.name := by
    refine staysWhole_plain fun c hc => ?_
    obtain ⟨-, hquote, hopener, hcloser, hcomma⟩ := attributeName_iff (a.ofName c hc)
    exact ⟨isQuote_of_not_isAnyQuote hquote, hopener, hcloser, hcomma⟩
  rw [print]
  cases a.arguments with
  | none => exact hname.append staysWhole_nil (Nat.le_refl 0)
  | some arguments => exact hname.append arguments.staysWhole_print (Nat.le_refl 0)

theorem passesOver_print : Bracket.square.PassesOver a.print := by
  have hname : Bracket.square.PassesOver a.name := Bracket.passesOver_plain fun c hc =>
    ⟨(attributeName_iff (a.ofName c hc)).2.1, ne_bracket_of_isAttributeName (a.ofName c hc) _⟩
  rw [print]
  cases a.arguments with
  | none => exact hname.append (Bracket.passesOver_plain fun c hc => absurd hc List.not_mem_nil)
  | some arguments => exact hname.append arguments.passesOver_print

theorem isSpaced_print : IsSpaced a.print := by
  have hblank : ∀ c ∈ a.name, isBlank c = false := fun c hc => (attributeName_iff (a.ofName c hc)).1
  have hname := isSpaced_of_forall hblank
  rw [print]
  cases a.arguments with
  | none =>
      rw [Option.map_none, Option.getD_none, List.append_nil]
      exact hname
  | some arguments =>
      exact hname.append arguments.isSpaced_print
        (Or.inl fun c hc => hblank c (List.mem_of_getLast? hc))

theorem isTrimmed_print : IsTrimmed a.print where
  nonempty := List.append_ne_nil_of_left_ne_nil a.nonempty _
  head := forall_head?_append a.nonempty (fun c hc => (attributeName_iff (a.ofName c hc)).1) _
  last := by
    intro c hc
    rw [print] at hc
    rcases mem_getLast?_append hc with hc | hc
    · cases ha : a.arguments with
      | none =>
          rw [ha] at hc
          exact nomatch hc
      | some arguments =>
          rw [ha, Option.map_some, Option.getD_some, AttributeArguments.print, ← List.cons_append,
            List.getLast?_concat] at hc
          exact Option.some.inj hc ▸ rfl
    · exact (attributeName_iff (a.ofName c (List.mem_of_getLast? hc))).1

/-- An attribute in brackets of its own has no blanks to collapse. -/
theorem collapseBlanks_print : collapseBlanks ('[' :: (a.print ++ [']'])) = '[' :: (a.print ++ [']']) :=
  collapseBlanks_of_isSpaced <|
    (isSpaced_bracket (by decide : isBlank '[' = false)).append
      (a.isSpaced_print.append (isSpaced_bracket (by decide)) (Or.inr (by simp; decide)))
      (Or.inl (by simp; decide))

end Attribute

/-! ## Groups -/

theorem passesOver_printList {b : Bracket} {list : List (List Char)}
    (h : ∀ s ∈ list, b.PassesOver s) : b.PassesOver (printList list) := by
  have hseparator : b.PassesOver [',', ' '] :=
    Bracket.passesOver_plain (forall_mem_of_all (by cases b <;> decide))
  induction list with
  | nil => exact Bracket.passesOver_plain fun c hc => absurd hc List.not_mem_nil
  | cons s list ih =>
      have hs := h s List.mem_cons_self
      have hrest := ih fun t ht => h t (List.mem_cons_of_mem s ht)
      cases list with
      | nil => exact hs
      | cons t list =>
          rw [printList, join_cons_cons]
          exact hs.append (hseparator.append hrest)

theorem squareGroups_append {s : List Char} (h : '[' ∉ s) (t : List Char) :
    squareGroups (s ++ t) = squareGroups t := by
  induction s with
  | nil => rfl
  | cons c s ih =>
      have hc : ¬(c == '[') = true := fun heq => h (beq_iff_eq.mp heq ▸ List.mem_cons_self)
      rw [List.cons_append, squareGroups, if_neg hc, ih fun hmem => h (List.mem_cons_of_mem c hmem)]

theorem squareGroups_group {inside : List Char} (h : Bracket.square.PassesOver inside)
    (t : List Char) : squareGroups ('[' :: (inside ++ ']' :: t)) = inside :: squareGroups t := by
  have hclosing : Bracket.square.closing? 1 (inside ++ ']' :: t) = some (inside.length + 1) :=
    h.closing? t
  have hdrop : (inside ++ ']' :: t).drop (inside.length + 1) = t := by
    rw [← List.singleton_append, ← List.append_assoc]
    exact List.drop_left' (by simp)
  rw [squareGroups, if_pos (beq_self_eq_true '['), hclosing]
  simp only [Nat.add_sub_cancel, List.take_left, hdrop]

theorem AttributeGroup.parts_inside (g : AttributeGroup) :
    parts g.inside = g.attributes.map Attribute.print := by
  refine parts_printList fun s hs => ?_
  obtain ⟨a, -, rfl⟩ := List.mem_map.mp hs
  exact ⟨a.staysWhole_print, a.isTrimmed_print⟩

theorem squareGroups_groups (groups : List AttributeGroup) :
    squareGroups (groups.flatMap AttributeGroup.print) = groups.map AttributeGroup.inside := by
  induction groups with
  | nil => rw [List.flatMap_nil, squareGroups, List.map_nil]
  | cons g groups ih =>
      have hinside : Bracket.square.PassesOver g.inside := by
        refine passesOver_printList fun s hs => ?_
        obtain ⟨a, -, rfl⟩ := List.mem_map.mp hs
        exact a.passesOver_print
      rw [List.flatMap_cons, AttributeGroup.print, List.cons_append, List.append_assoc,
        List.cons_append, squareGroups_group hinside, squareGroups_append g.noBracket, ih,
        List.map_cons]

/-- **Attributes are read as they are written.** In a text with groups of attributes in square
brackets, and nothing else in such brackets, the attributes that are read are those of the groups, in
their order, each in brackets of its own. Literals may hold any commas, brackets and quotes. -/
theorem printed_attributes_are_read_back (r : AttributeRegion) :
    readAttributes r.print = r.attributes.map fun a => '[' :: (a.print ++ [']']) := by
  have hgroup : ∀ g : AttributeGroup,
      (parts g.inside).map (fun part => collapseBlanks ('[' :: part ++ [']']))
        = g.attributes.map fun a => '[' :: (a.print ++ [']']) := by
    intro g
    rw [g.parts_inside, List.map_map]
    exact List.map_congr_left fun a _ => a.collapseBlanks_print
  rw [readAttributes, AttributeRegion.print, squareGroups_append r.noBracket, squareGroups_groups,
    AttributeRegion.attributes, List.map_flatMap, List.flatMap_map]
  exact List.flatMap_congr fun g _ => hgroup g

/-- A closing bracket and a comma in a literal, and a list in braces. -/
example : readAttributes "[Get(\"a],b\"), Roles(new[] \x7b 1, 2 \x7d)] static [Hide]".toList
    = ["[Get(\"a],b\")]".toList, "[Roles(new[] \x7b 1, 2 \x7d)]".toList, "[Hide]".toList] := by
  cbv

end ServiceMap.Source
