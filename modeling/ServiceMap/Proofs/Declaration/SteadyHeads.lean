import ServiceMap.Declaration.CSharpMethod
import ServiceMap.Proofs.Declaration.MemberReading
import ServiceMap.Proofs.Declaration.TypeHead
import ServiceMap.Proofs.Pattern.Steady

/-!
# Heads around literals

The heads of types, fields and methods are found alike in two texts that differ within literals.
-/

namespace ServiceMap.Declaration

open Text Source Pattern

/-! ## Parts of heads -/

theorem steady_word : word.Steady false false := Steady.many1 (by decide)

theorem steady_dottedWord : dottedWord.Steady false false := Steady.many1 (by decide)

theorem steady_blanks : blanks.Steady false false := Steady.many (by decide)

theorem steady_blanks1 : blanks1.Steady false false := Steady.many1 (by decide)

theorem steady_leadingWords : leadingWords.Steady false false :=
  Steady.rounds (steady_word.seq steady_blanks1) false

theorem steady_modifiers {texts : List String} (h : ∀ text ∈ texts, '"' ∉ text.toList) :
    (star (oneOf texts ++ blanks1)).Steady false false :=
  Steady.rounds ((Steady.oneOf h).seq steady_blanks1) true

/-! ## Heads by their parts -/

/-- The head of a declaration: words, a type or kind, and a name. -/
def namedHead (front words gap type tail : Pattern) : Pattern :=
  front ++ (capture 1 words ++ (gap ++ (capture 2 type ++ (blanks1 ++ (capture 3 word ++ tail)))))

section NamedHead

variable {front words gap type tail : Pattern}

theorem steady_namedHead {b : Bool} (hfront : front.Steady false false)
    (hwords : words.Steady false false) (hgap : gap.Steady false false)
    (htype : type.Steady false false) (htail : tail.Steady false b) :
    (namedHead front words gap type tail).Steady false b :=
  hfront.seq ((hwords.capture 1).seq (hgap.seq ((htype.capture 2).seq
    (steady_blanks1.seq ((steady_word.capture 3).seq htail)))))

/-- The parts of a head that remember nothing themselves. -/
structure AreBare (front words gap type tail : Pattern) : Prop where
  front : front.slots = []
  words : words.slots = []
  gap : gap.slots = []
  type : type.slots = []
  tail : tail.slots = []

variable {limit : Nat} {here : Place} {m : Match}

/-- What a head remembers is described by the parts it is remembered of. -/
theorem groups_of_namedHead (hbare : AreBare front words gap type tail)
    (h : (namedHead front words gap type tail).matchHere? limit here = some m) :
    (∃ before rest, words.Takes before (m.group 1) rest)
      ∧ (∃ before rest, type.Takes before (m.group 2) rest)
      ∧ ∃ before rest, word.Takes before (m.group 3) rest := by
  obtain ⟨a, b, g, c, d, e, f, rest, -, -, ⟨before₁, h₁⟩, -, ⟨before₂, h₂⟩, -, ⟨before₃, h₃⟩, -,
    hgroup₁, hgroup₂, hgroup₃, -⟩ :=
    captured_three hbare.front hbare.words hbare.gap hbare.type (D := blanks1) rfl (E := word) rfl
      hbare.tail h
  rw [hgroup₁, hgroup₂, hgroup₃]
  exact ⟨⟨before₁, _, h₁⟩, ⟨before₂, _, h₂⟩, before₃, _, h₃⟩

end NamedHead

/-! ## Java -/

theorem steady_indentation : indentation.Steady false false :=
  Steady.lineStart.seq (Steady.many (by decide))

theorem steady_leadingAnnotations : leadingAnnotations.Steady false false := by
  have harguments : (lit "(" ++ many (· != ')') ++ lit ")").Steady false false :=
    Steady.between (by decide) (Steady.bne_of_isPlain (by decide)) rfl (by decide) (by decide)
  have hat : (lit "@").Steady false false := Steady.lit (by decide)
  have hmark := (hat.seq steady_dottedWord).seq harguments.opt
  exact Steady.rounds (hmark.seq steady_blanks1) true

theorem steady_javaTypeName {excluded : List Char} (h : excluded.any isPlain = false) :
    (javaTypeName excluded).Steady false false := by
  have harguments : (lit "<" ++ many (fun c => !excluded.contains c) ++ lit ">").Steady
      false false :=
    Steady.between (by decide) (Steady.not_contains_of_isPlain h) rfl (by decide) (by decide)
  exact (steady_dottedWord.seq harguments.opt).seq (Steady.rounds (Steady.lit (by decide)) true)

/-- The head of a type, by its parts. -/
def javaTypeParts : Pattern :=
  namedHead wordEdge (star (oneOf typeModifiers ++ blanks1)) empty (oneOf javaTypeKinds) empty

theorem javaTypeHead_matchHere? : javaTypeHead.matchHere? = javaTypeParts.matchHere? := rfl

theorem foundAlike_javaTypeHead : javaTypeHead.FoundAlike :=
  FoundAlike.congr javaTypeHead_matchHere? <| Steady.foundAlike <|
    steady_namedHead Steady.wordEdge (steady_modifiers (by decide)) Steady.empty
      (Steady.oneOf (by decide)) Steady.empty

theorem steady_memberHead {b : Bool} {gap tail : Pattern} {excluded : List Char}
    (hgap : gap.Steady false false) (hexcluded : excluded.any isPlain = false)
    (htail : tail.Steady false b) : (memberHead gap excluded tail).Steady false b :=
  steady_namedHead (steady_indentation.seq steady_leadingAnnotations) steady_leadingWords hgap
    (steady_javaTypeName hexcluded) (steady_blanks.seq htail)

/-- An initialiser may hold literals, and ends outside of them. -/
theorem steady_fieldEnd : fieldEnd.Steady false false := by
  have hinitialiser : (lit "=" ++ many (· != ';')).Steady false true :=
    (Steady.lit (by decide)).seq (Steady.manyInside (Steady.bne_of_isPlain (by decide))).ofInside
  exact hinitialiser.opt.seq (Steady.markLit (d := ';') rfl (by decide) (by decide))

theorem steady_typeParameters : typeParameters.Steady false false := by
  have hparameters : (lit "<" ++ many1 (· != '>')).Steady false true :=
    (Steady.lit (by decide)).seq (Steady.many1Inside (Steady.bne_of_isPlain (by decide))).ofInside
  exact ((hparameters.seq (Steady.markLit (d := '>') rfl (by decide) (by decide))).seq
    steady_blanks1).opt

theorem foundAlike_javaField : javaField.FoundAlike :=
  FoundAlike.congr javaField_matchHere? <| Steady.foundAlike <|
    steady_memberHead Steady.empty (by decide) steady_fieldEnd

theorem foundAlike_javaMethodHead : javaMethodHead.FoundAlike :=
  FoundAlike.congr javaMethodHead_matchHere? <| Steady.foundAlike <|
    steady_memberHead steady_typeParameters (by decide) (Steady.lit (by decide))

/-! ## C# -/

theorem steady_leadingAttributes : leadingAttributes.Steady false false := by
  have hattribute : (lit "[" ++ many (· != ']') ++ lit "]").Steady false false :=
    Steady.between (by decide) (Steady.bne_of_isPlain (by decide)) rfl (by decide) (by decide)
  exact (Steady.lineStart.seq (Steady.many (by decide))).seq
    (Steady.rounds (hattribute.seq steady_blanks) true)

theorem steady_csharpTypeName {excluded : List Char} (h : excluded.any isPlain = false) :
    (csharpTypeName excluded).Steady false false := by
  have harguments : (lit "<" ++ many (fun c => !excluded.contains c) ++ lit ">").Steady
      false false :=
    Steady.between (by decide) (Steady.not_contains_of_isPlain h) rfl (by decide) (by decide)
  exact ((steady_dottedWord.seq harguments.opt).seq (Steady.lit (by decide)).opt).seq
    (Steady.lit (by decide)).opt

/-- Modifiers of a type. -/
def csharpTypeModifiers : List String :=
  ["public", "private", "protected", "internal", "abstract", "sealed", "static", "partial",
    "readonly"]

/-- The kind of a type. -/
def csharpTypeKind : Pattern :=
  oneOf ["class", "interface", "enum", "struct"]
    <|> (lit "record" ++ opt (blanks1 ++ oneOf ["class", "struct"]))

/-- The head of a type, by its parts. -/
def csharpTypeParts : Pattern :=
  namedHead wordEdge (star (oneOf csharpTypeModifiers ++ blanks1)) empty csharpTypeKind empty

theorem csharpTypeHead_matchHere? : csharpTypeHead.matchHere? = csharpTypeParts.matchHere? := rfl

theorem foundAlike_csharpTypeHead : csharpTypeHead.FoundAlike := by
  have hrecord : (lit "record" ++ opt (blanks1 ++ oneOf ["class", "struct"])).Steady false false :=
    (Steady.lit (by decide)).seq (steady_blanks1.seq (Steady.oneOf (by decide))).opt
  refine FoundAlike.congr csharpTypeHead_matchHere? (Steady.foundAlike (b := false) ?_)
  exact steady_namedHead Steady.wordEdge (steady_modifiers (by decide)) Steady.empty
    ((Steady.oneOf (by decide)).either hrecord) Steady.empty

/-- The head of a member: `tail` follows the name. -/
def csharpMemberHead (excluded : List Char) (tail : Pattern) : Pattern :=
  namedHead leadingAttributes leadingWords empty (csharpTypeName excluded) (blanks ++ tail)

/-- What a field or property goes on with. -/
def csharpMemberEnd : Pattern :=
  ahead ((char (· == '\x7b') ++ blanks ++ oneOf ["get", "set", "init"] ++ wordEdge)
    <|> (lit "=" ++ char (· != '>')) <|> lit ";")

/-- What follows the name of a method. -/
def csharpMethodEnd : Pattern :=
  opt (lit "<" ++ many (· != '>') ++ lit ">") ++ (blanks ++ lit "(")

theorem steady_csharpMemberHead {b : Bool} {excluded : List Char} {tail : Pattern}
    (hexcluded : excluded.any isPlain = false) (htail : tail.Steady false b) :
    (csharpMemberHead excluded tail).Steady false b :=
  steady_namedHead steady_leadingAttributes steady_leadingWords Steady.empty
    (steady_csharpTypeName hexcluded) (steady_blanks.seq htail)

/-- What comes after a member is only looked at. The character after an equals sign may be the double
quote of a literal. -/
theorem steady_csharpMemberEnd : csharpMemberEnd.Steady false false := by
  have haccessor : (char (· == '\x7b') ++ blanks ++ oneOf ["get", "set", "init"]
      ++ wordEdge).Steady false false :=
    (((Steady.charOutside (by decide)).seq steady_blanks).seq (Steady.oneOf (by decide))).seq
      Steady.wordEdge
  have hinitialiser : (lit "=" ++ char (· != '>')).Steady false true :=
    (Steady.lit (by decide)).seq (Steady.char (fun _ => rfl) Bool.noConfusion)
  exact Steady.ahead (haccessor.toInside.either
    (hinitialiser.either (Steady.lit (by decide)).toInside))

theorem steady_csharpMethodEnd : csharpMethodEnd.Steady false false := by
  have hparameters : (lit "<" ++ many (· != '>') ++ lit ">").Steady false false :=
    Steady.between (by decide) (Steady.bne_of_isPlain (by decide)) rfl (by decide) (by decide)
  exact hparameters.opt.seq (steady_blanks.seq (Steady.lit (by decide)))

/-- A field or property, by its parts. -/
abbrev csharpMemberParts : Pattern :=
  csharpMemberHead [';', '=', '(', ')', '\x7b', '\x7d'] csharpMemberEnd

/-- The head of a method, by its parts. -/
abbrev csharpMethodParts : Pattern :=
  csharpMemberHead [';', '\x7b', '\x7d', '(', ')'] csharpMethodEnd

theorem csharpMember_matchHere? : csharpMember.matchHere? = csharpMemberParts.matchHere? := rfl

theorem csharpMethodHead_matchHere? :
    csharpMethodHead.matchHere? = csharpMethodParts.matchHere? := rfl

theorem foundAlike_csharpMember : csharpMember.FoundAlike :=
  FoundAlike.congr csharpMember_matchHere? <| Steady.foundAlike <|
    steady_csharpMemberHead (by decide) steady_csharpMemberEnd

theorem foundAlike_csharpMethodHead : csharpMethodHead.FoundAlike :=
  FoundAlike.congr csharpMethodHead_matchHere? <| Steady.foundAlike <|
    steady_csharpMemberHead (by decide) steady_csharpMethodEnd

/-! ## Where heads start -/

theorem silent_javaField : javaField.SilentInside :=
  SilentInside.congr javaField_matchHere? startsLine_memberHead.silentInside

theorem silent_javaMethodHead : javaMethodHead.SilentInside :=
  SilentInside.congr javaMethodHead_matchHere? startsLine_memberHead.silentInside

theorem startsLine_csharpMemberHead {excluded : List Char} {tail : Pattern} :
    (csharpMemberHead excluded tail).StartsLine := by
  rintro before _ rest ⟨_, _, rfl, ⟨_, _, rfl, ⟨_, _, rfl, ⟨rfl, hstart⟩, -⟩, -⟩, -⟩
  exact hstart

theorem silent_csharpMember : csharpMember.SilentInside :=
  SilentInside.congr csharpMember_matchHere? startsLine_csharpMemberHead.silentInside

theorem silent_csharpMethodHead : csharpMethodHead.SilentInside :=
  SilentInside.congr csharpMethodHead_matchHere? startsLine_csharpMemberHead.silentInside

/-- The head of a type names a kind of type after words and blanks. -/
theorem leadsToKind_namedHead {words type : Pattern} (hwords : words.mayTake '"' = false)
    (htype : type.LeadsToKind) : (namedHead wordEdge words empty type empty).LeadsToKind := by
  rintro before _ rest ⟨_, _, rfl, ⟨rfl, -⟩, modifiers, _, rfl, hmodifiers, _, _, rfl, rfl, s, t, rfl,
    hkind, -⟩
  obtain ⟨front, kind, more, rfl, hfront, hmem⟩ := htype _ _ _ hkind
  refine ⟨modifiers ++ front, kind, more ++ t, by simp only [List.append_assoc, List.nil_append],
    fun hquote => ?_, hmem⟩
  rcases List.mem_append.mp hquote with hquote | hquote
  · exact not_mem_of_takes hwords hmodifiers hquote
  · exact hfront hquote

theorem leadsToKind_oneOf {texts : List String} (h : ∀ text ∈ texts, text ∈ typeKinds) :
    (oneOf texts).LeadsToKind := by
  intro before taken rest htakes
  obtain ⟨text, htext, rfl⟩ := takes_oneOf.mp htakes
  exact ⟨[], text, [], (List.append_nil _).symm, List.not_mem_nil, h text htext⟩

theorem leadsToKind_csharpTypeKind : csharpTypeKind.LeadsToKind := by
  rintro before taken rest (hkind | ⟨_, t, rfl, hrecord, -⟩)
  · exact leadsToKind_oneOf (by decide) _ _ _ hkind
  · rw [takes_lit.mp hrecord]
    exact ⟨[], "record", t, rfl, List.not_mem_nil, by decide⟩

theorem silent_javaTypeHead : javaTypeHead.SilentInside :=
  SilentInside.congr javaTypeHead_matchHere?
    (leadsToKind_namedHead (by decide) (leadsToKind_oneOf (by decide))).silentInside

theorem silent_csharpTypeHead : csharpTypeHead.SilentInside :=
  SilentInside.congr csharpTypeHead_matchHere?
    (leadsToKind_namedHead (by decide) leadsToKind_csharpTypeKind).silentInside

/-! ## What heads remember -/

/-- The words before a type and the name after it hold no double quote. -/
theorem quoteless_of_namedHead {pattern : Pattern} (front words gap type tail : Pattern)
    (hpattern : pattern.matchHere? = (namedHead front words gap type tail).matchHere?)
    (hbare : AreBare front words gap type tail) (hwords : words.mayTake '"' = false)
    {limit resume index : Nat} {before : Option Char} {s : List Char} {m : Match}
    (hm : m ∈ pattern.allFrom limit resume before index s) :
    '"' ∉ m.group 1 ∧ '"' ∉ m.group 3 ∧ (type.mayTake '"' = false → '"' ∉ m.group 2) := by
  obtain ⟨done, more, -, hmatch⟩ := split_of_mem_allFrom s hm
  rw [hpattern] at hmatch
  obtain ⟨⟨_, _, h₁⟩, ⟨_, _, h₂⟩, _, _, h₃⟩ := groups_of_namedHead hbare hmatch
  exact ⟨not_mem_of_takes hwords h₁, not_mem_of_takes (by decide) h₃,
    fun htype => not_mem_of_takes htype h₂⟩

section Quoteless

variable {limit resume index : Nat} {before : Option Char} {s : List Char} {m : Match}

theorem quoteless_javaField (hm : m ∈ javaField.allFrom limit resume before index s) :
    '"' ∉ m.group 1 ∧ '"' ∉ m.group 3 := by
  obtain ⟨h₁, h₃, -⟩ := quoteless_of_namedHead (indentation ++ leadingAnnotations) _ empty
    (javaTypeName _) (blanks ++ fieldEnd) javaField_matchHere?
    ⟨rfl, rfl, rfl, rfl, rfl⟩ (by decide) hm
  exact ⟨h₁, h₃⟩

theorem quoteless_javaMethodHead
    (hm : m ∈ javaMethodHead.allFrom limit resume before index s) :
    '"' ∉ m.group 1 ∧ '"' ∉ m.group 3 := by
  obtain ⟨h₁, h₃, -⟩ := quoteless_of_namedHead (indentation ++ leadingAnnotations) _
    typeParameters (javaTypeName _) (blanks ++ lit "(")
    javaMethodHead_matchHere? ⟨rfl, rfl, rfl, rfl, rfl⟩ (by decide) hm
  exact ⟨h₁, h₃⟩

theorem quoteless_csharpMember (hm : m ∈ csharpMember.allFrom limit resume before index s) :
    '"' ∉ m.group 1 ∧ '"' ∉ m.group 3 := by
  obtain ⟨h₁, h₃, -⟩ := quoteless_of_namedHead leadingAttributes leadingWords empty
    (csharpTypeName _) (blanks ++ csharpMemberEnd) csharpMember_matchHere?
    ⟨rfl, rfl, rfl, rfl, rfl⟩ (by decide) hm
  exact ⟨h₁, h₃⟩

theorem quoteless_csharpMethodHead
    (hm : m ∈ csharpMethodHead.allFrom limit resume before index s) :
    '"' ∉ m.group 1 ∧ '"' ∉ m.group 3 := by
  obtain ⟨h₁, h₃, -⟩ := quoteless_of_namedHead leadingAttributes leadingWords empty
    (csharpTypeName _) (blanks ++ csharpMethodEnd) csharpMethodHead_matchHere?
    ⟨rfl, rfl, rfl, rfl, rfl⟩ (by decide) hm
  exact ⟨h₁, h₃⟩

theorem quoteless_javaTypeHead (hm : m ∈ javaTypeHead.allFrom limit resume before index s) :
    '"' ∉ m.group 2 ∧ '"' ∉ m.group 3 := by
  obtain ⟨-, h₃, h₂⟩ := quoteless_of_namedHead wordEdge (star (oneOf typeModifiers ++ blanks1))
    empty (oneOf javaTypeKinds) empty
    javaTypeHead_matchHere? ⟨rfl, rfl, rfl, rfl, rfl⟩ (by decide) hm
  exact ⟨h₂ (by decide), h₃⟩

theorem quoteless_csharpTypeHead (hm : m ∈ csharpTypeHead.allFrom limit resume before index s) :
    '"' ∉ m.group 2 ∧ '"' ∉ m.group 3 := by
  obtain ⟨-, h₃, h₂⟩ := quoteless_of_namedHead wordEdge (star (oneOf csharpTypeModifiers ++ blanks1))
    empty csharpTypeKind empty
    csharpTypeHead_matchHere? ⟨rfl, rfl, rfl, rfl, rfl⟩ (by decide) hm
  exact ⟨h₂ (by decide), h₃⟩

end Quoteless

end ServiceMap.Declaration
