import ServiceMap.Declaration.JavaMethod
import ServiceMap.Proofs.Source.Balance
import ServiceMap.Proofs.Text.Names

/-!
# Java classes in print

A class is written down by its name, its fields and its methods. Each part carries what makes it a
part of Java: names are none of the reserved words, type arguments and bodies are balanced, and a
body holds nothing that could be taken for a type, a string or a comment.
-/

namespace ServiceMap.Declaration

open Text Source

/-- Words for the kinds of types. -/
def javaTypeKinds : List String := ["class", "interface", "enum", "record"]

/-- Words that are no names. -/
def javaReservedWords : List String :=
  javaModifiers ++ javaStatementWords ++ javaTypeKinds

/-- None of these words is among the names in a text. -/
def IsFreeOf (forbidden : List String) (s : List Char) : Prop :=
  ∀ w ∈ names s, String.ofList w ∉ forbidden

instance (forbidden : List String) (s : List Char) : Decidable (IsFreeOf forbidden s) :=
  inferInstanceAs (Decidable (∀ w ∈ names s, String.ofList w ∉ forbidden))

/-- The name of a class, a member or a parameter. -/
structure JavaName where
  text : List Char
  nonempty : text ≠ []
  ofWords : ∀ c ∈ text, isWord c = true
  unreserved : IsFreeOf javaReservedWords text

/-- Spaces and tabs before a member. -/
structure Indentation where
  text : List Char
  ofBlanks : ∀ c ∈ text, c = ' ' ∨ c = '\t'

/-- A modifier of a member. -/
abbrev JavaModifier := { w : String // w ∈ javaModifiers }

/-- Characters that type arguments are written with. -/
def isArgumentChar (c : Char) : Bool :=
  isDottedWord c || [',', ' ', '<', '>'].contains c

/-- The arguments of a type, without the brackets around them. -/
structure JavaArguments where
  text : List Char
  ofArguments : ∀ c ∈ text, isArgumentChar c = true
  balanced : Bracket.angle.IsBalanced text
  spaced : ¬[' ', ' '] <:+: text
  unreserved : IsFreeOf javaReservedWords text

/-- A type: a name that may be qualified, with arguments and with pairs of square brackets. -/
structure JavaTypeText where
  name : List Char
  nonempty : name ≠ []
  ofDottedWords : ∀ c ∈ name, isDottedWord c = true
  unreserved : IsFreeOf javaReservedWords name
  arguments : Option JavaArguments
  dimensions : Nat

/-- Type arguments in their brackets. -/
def JavaArguments.print (a : JavaArguments) : List Char :=
  '<' :: (a.text ++ ['>'])

/-- Pairs of square brackets. -/
def squarePairs : Nat → List Char
  | 0 => []
  | n + 1 => '[' :: ']' :: squarePairs n

/-- A type as it is written. -/
def JavaTypeText.print (t : JavaTypeText) : List Char :=
  t.name ++ ((t.arguments.map JavaArguments.print).getD [] ++ squarePairs t.dimensions)

/-- Modifiers as they are written, each with the space after it. -/
def printModifiers (modifiers : List JavaModifier) : List Char :=
  modifiers.flatMap fun w => w.val.toList ++ [' ']

/-- What a member starts with. -/
structure JavaHead where
  indentation : Indentation
  modifiers : List JavaModifier
  type : JavaTypeText
  name : JavaName

/-- The head of a member as it is written. -/
def JavaHead.print (h : JavaHead) : List Char :=
  h.indentation.text ++ (printModifiers h.modifiers ++ (h.type.print ++ ' ' :: h.name.text))

/-- A parameter of a method. -/
structure JavaParameter where
  type : JavaTypeText
  name : JavaName

/-- A parameter as it is written. -/
def JavaParameter.print (p : JavaParameter) : List Char :=
  p.type.print ++ ' ' :: p.name.text

/-- The list of parameters of a method as it is written. -/
def printParameters (parameters : List JavaParameter) : List Char :=
  join ", ".toList (parameters.map JavaParameter.print)

/-- Text in which each equals sign is followed by a semicolon. -/
def IsClosed : List Char → Prop
  | [] => True
  | c :: s => (c = '=' → ';' ∈ s) ∧ IsClosed s

instance decidableIsClosed : (s : List Char) → Decidable (IsClosed s)
  | [] => isTrue trivial
  | _ :: s => @instDecidableAnd _ _ _ (decidableIsClosed s)

/-- The body of a method: text without quotes, slashes, at signs and angle brackets, in which no
kind of type is named and each assignment is closed by a semicolon. -/
structure JavaBody where
  text : List Char
  balanced : Bracket.curly.IsBalanced text
  plain : ∀ c ∈ text, isAnyQuote c = false ∧ c ∉ ['/', '@', '<', '>']
  untyped : IsFreeOf javaTypeKinds text
  closed : IsClosed text

/-- A member of a class. -/
inductive JavaMember where
  | field (head : JavaHead)
  | method (head : JavaHead) (parameters : List JavaParameter) (body : JavaBody)

/-- A member as it is written, on lines of its own. -/
def JavaMember.print : JavaMember → List Char
  | field head => head.print ++ ";\n".toList
  | method head parameters body =>
    head.print ++ '(' :: (printParameters parameters
      ++ (") \x7b\n".toList ++ (body.text ++ "\x7d\n".toList)))

/-- A class with its members. -/
structure JavaClass where
  name : JavaName
  members : List JavaMember

/-- The members of a class as they are written. -/
def printMembers (members : List JavaMember) : List Char :=
  members.flatMap JavaMember.print

/-- A class as it is written. -/
def JavaClass.print (c : JavaClass) : List Char :=
  "public class ".toList ++ (c.name.text ++ (" \x7b\n".toList
    ++ (printMembers c.members ++ "\x7d\n".toList)))

/-! ## What a class declares -/

/-- A name as a string. -/
def JavaName.toString (n : JavaName) : String := String.ofList n.text

/-- A type as a string. -/
def JavaTypeText.toString (t : JavaTypeText) : String := String.ofList t.print

/-- The name and the type of the field that a member is. -/
def JavaMember.field? : JavaMember → Option (String × String)
  | field head => some (head.name.toString, head.type.toString)
  | method .. => none

/-- A method as others see it: its name, its result type, and the names and types of its
parameters. -/
structure Signature where
  name : String
  result : String
  parameters : List (String × String)
deriving Repr, DecidableEq

/-- The signature of the method that a member is. -/
def JavaMember.method? : JavaMember → Option Signature
  | field _ => none
  | method head parameters _ => some {
      name := head.name.toString
      result := head.type.toString
      parameters := parameters.map fun p => (p.name.toString, p.type.toString) }

/-- The fields of a class, in its order. -/
def JavaClass.fields (c : JavaClass) : List (String × String) :=
  c.members.filterMap JavaMember.field?

/-- The methods of a class, in its order. -/
def JavaClass.methods (c : JavaClass) : List Signature :=
  c.members.filterMap JavaMember.method?

/-! ## The characters of print -/

/-- Characters that heads of members and lists of parameters are written with. -/
def isHeadChar (c : Char) : Bool :=
  isDottedWord c || [',', ' ', '\t', '<', '>', '[', ']'].contains c

theorem isHeadChar_of_isWord {c : Char} (h : isWord c = true) : isHeadChar c = true := by
  rw [isHeadChar, isDottedWord_of_isWord h, Bool.true_or]

theorem isHeadChar_of_isDottedWord {c : Char} (h : isDottedWord c = true) :
    isHeadChar c = true := by
  rw [isHeadChar, h, Bool.true_or]

theorem isHeadChar_of_isArgumentChar {c : Char} (h : isArgumentChar c = true) :
    isHeadChar c = true := by
  rw [isArgumentChar, Bool.or_eq_true, List.contains_iff_mem] at h
  rcases h with h | h
  · exact isHeadChar_of_isDottedWord h
  · rw [isHeadChar, Bool.or_eq_true, List.contains_iff_mem]
    simp only [List.mem_cons, List.not_mem_nil, or_false] at h ⊢
    rcases h with rfl | rfl | rfl | rfl <;> simp

theorem isAnyQuote_of_isHeadChar {c : Char} (h : isHeadChar c = true) : isAnyQuote c = false := by
  have other : ∀ {d}, isHeadChar d = false → (c == d) = false := fun hd =>
    beq_eq_false_iff_ne.mpr fun heq => Bool.false_ne_true (hd.symm.trans (heq ▸ h))
  rw [isAnyQuote, isQuote, other (by decide), other (by decide), other (by decide)]
  rfl

theorem mem_squarePairs {n : Nat} {c : Char} (h : c ∈ squarePairs n) :
    c = '[' ∨ c = ']' := by
  induction n with
  | zero => exact absurd h List.not_mem_nil
  | succ n ih =>
      rcases List.mem_cons.mp h with rfl | h
      · exact Or.inl rfl
      · rcases List.mem_cons.mp h with rfl | h
        · exact Or.inr rfl
        · exact ih h

theorem JavaName.text_isHeadChar (n : JavaName) : ∀ c ∈ n.text, isHeadChar c = true :=
  fun c hc => isHeadChar_of_isWord (n.ofWords c hc)

/-- The characters of a type. -/
theorem JavaTypeText.mem_print {t : JavaTypeText} {c : Char} (hc : c ∈ t.print) :
    isArgumentChar c = true ∨ c = '[' ∨ c = ']' := by
  rcases List.mem_append.mp hc with hname | hmore
  · exact Or.inl (by rw [isArgumentChar, t.ofDottedWords c hname, Bool.true_or])
  rcases List.mem_append.mp hmore with harguments | hpairs
  · obtain ⟨arguments, ha⟩ : ∃ a, t.arguments = a := ⟨_, rfl⟩
    rw [ha] at harguments
    cases arguments with
    | none => exact absurd harguments List.not_mem_nil
    | some a =>
        have hprint : c ∈ '<' :: (a.text ++ ['>']) := harguments
        simp only [List.mem_cons, List.mem_append, List.not_mem_nil, or_false] at hprint
        rcases hprint with rfl | htext | rfl
        · exact Or.inl rfl
        · exact Or.inl (a.ofArguments c htext)
        · exact Or.inl rfl
  · exact Or.inr (mem_squarePairs hpairs)

theorem JavaTypeText.print_isHeadChar (t : JavaTypeText) : ∀ c ∈ t.print, isHeadChar c = true := by
  intro c hc
  rcases t.mem_print hc with h | rfl | rfl
  · exact isHeadChar_of_isArgumentChar h
  · rfl
  · rfl

theorem reservedWord_isWord {w : String} (h : w ∈ javaReservedWords) :
    w.toList ≠ [] ∧ ∀ c ∈ w.toList, isWord c = true := by
  have hall : ∀ w ∈ javaReservedWords, w.toList ≠ [] ∧ w.toList.all isWord = true := by
    decide +kernel
  exact ⟨(hall w h).1, List.all_eq_true.mp (hall w h).2⟩

theorem modifier_isWord {w : String} (h : w ∈ javaModifiers) :
    w.toList ≠ [] ∧ ∀ c ∈ w.toList, isWord c = true :=
  reservedWord_isWord (List.mem_append_left _ (List.mem_append_left _ h))

theorem isHeadChar_of_mem_printModifiers {modifiers : List JavaModifier} {c : Char}
    (h : c ∈ printModifiers modifiers) : isHeadChar c = true := by
  obtain ⟨w, -, hw⟩ := List.mem_flatMap.mp h
  rcases List.mem_append.mp hw with hw | hw
  · exact isHeadChar_of_isWord ((modifier_isWord w.2).2 c hw)
  · exact List.mem_singleton.mp hw ▸ rfl

theorem JavaHead.print_isHeadChar (h : JavaHead) : ∀ c ∈ h.print, isHeadChar c = true := by
  intro c hc
  simp only [JavaHead.print, List.mem_append, List.mem_cons] at hc
  rcases hc with hc | hc | hc | rfl | hc
  · rcases h.indentation.ofBlanks c hc with rfl | rfl <;> rfl
  · exact isHeadChar_of_mem_printModifiers hc
  · exact h.type.print_isHeadChar c hc
  · rfl
  · exact h.name.text_isHeadChar c hc

theorem JavaParameter.print_isHeadChar (p : JavaParameter) :
    ∀ c ∈ p.print, isHeadChar c = true := by
  intro c hc
  simp only [JavaParameter.print, List.mem_append, List.mem_cons] at hc
  rcases hc with hc | rfl | hc
  · exact p.type.print_isHeadChar c hc
  · rfl
  · exact p.name.text_isHeadChar c hc

theorem isHeadChar_of_mem_printParameters {parameters : List JavaParameter} {c : Char}
    (h : c ∈ printParameters parameters) : isHeadChar c = true := by
  rcases mem_join h with h | ⟨s, hs, h⟩
  · have hall : ∀ c ∈ ", ".toList, isHeadChar c = true := forall_mem_of_all (by decide)
    exact hall c h
  · obtain ⟨p, -, rfl⟩ := List.mem_map.mp hs
    exact p.print_isHeadChar c h

/-! ## Names in print -/

section FreeOf

variable {forbidden : List String}

theorem isFreeOf_append_cons {c : Char} (hc : isWord c = false) {s t : List Char} :
    IsFreeOf forbidden (s ++ c :: t) ↔ IsFreeOf forbidden s ∧ IsFreeOf forbidden t := by
  unfold IsFreeOf names
  rw [runs_append_cons (by simp [hc])]
  exact List.forall_mem_append

theorem isFreeOf_cons {c : Char} (hc : isWord c = false) {s : List Char} :
    IsFreeOf forbidden (c :: s) ↔ IsFreeOf forbidden s := by
  unfold IsFreeOf names
  rw [runs_cons (by simp [hc])]

theorem isFreeOf_nil : IsFreeOf forbidden [] := fun _ hw => absurd hw List.not_mem_nil

theorem isFreeOf_append {s : List Char} (h : ∀ c ∈ s, isWord c = false) {t : List Char} :
    IsFreeOf forbidden (s ++ t) ↔ IsFreeOf forbidden t := by
  unfold IsFreeOf names
  rw [runs_append_of_all fun c hc => by simp [h c hc]]

theorem isFreeOf_word {w : List Char} (hne : w ≠ []) (hw : ∀ c ∈ w, isWord c = true) :
    IsFreeOf forbidden w ↔ String.ofList w ∉ forbidden := by
  unfold IsFreeOf names
  rw [runs_of_all_not hne fun c hc => by simp [hw c hc]]
  exact List.forall_mem_singleton

theorem IsFreeOf.mono {fewer : List String} {s : List Char} (h : IsFreeOf forbidden s)
    (hsub : ∀ w ∈ fewer, w ∈ forbidden) : IsFreeOf fewer s :=
  fun w hw hmem => h w hw (hsub _ hmem)

end FreeOf

theorem squarePairs_not_isWord {n : Nat} : ∀ c ∈ squarePairs n, isWord c = false := by
  intro c hc
  rcases mem_squarePairs hc with rfl | rfl <;> rfl

/-- No word of a type is reserved. -/
theorem JavaTypeText.print_isFreeOf (t : JavaTypeText) : IsFreeOf javaReservedWords t.print := by
  have hpairs : IsFreeOf javaReservedWords (squarePairs t.dimensions) := by
    rw [← List.append_nil (squarePairs _), isFreeOf_append squarePairs_not_isWord]
    exact isFreeOf_nil
  rw [JavaTypeText.print]
  cases t.arguments with
  | some a =>
      simp only [Option.map_some, Option.getD_some, JavaArguments.print, List.append_assoc,
        List.cons_append, List.nil_append]
      rw [isFreeOf_append_cons rfl, isFreeOf_append_cons rfl]
      exact ⟨t.unreserved, a.unreserved, hpairs⟩
  | none =>
      cases hdimensions : t.dimensions with
      | zero =>
          rw [squarePairs]
          simpa using t.unreserved
      | succ n =>
          rw [hdimensions] at hpairs
          show IsFreeOf _ (t.name ++ '[' :: ']' :: squarePairs n)
          rw [isFreeOf_append_cons rfl]
          exact ⟨t.unreserved, (isFreeOf_cons rfl).mp hpairs⟩

/-- A type is no reserved word. -/
theorem JavaTypeText.toString_unreserved (t : JavaTypeText) :
    t.toString ∉ javaReservedWords := by
  intro hmem
  obtain ⟨hne, hwords⟩ := reservedWord_isWord hmem
  rw [JavaTypeText.toString, String.toList_ofList] at hne hwords
  exact (isFreeOf_word hne hwords).mp t.print_isFreeOf hmem

theorem JavaName.toString_unreserved (n : JavaName) : n.toString ∉ javaReservedWords :=
  (isFreeOf_word n.nonempty n.ofWords).mp n.unreserved

end ServiceMap.Declaration
