import ServiceMap.Proofs.Declaration.TypeHead
import ServiceMap.Proofs.Endpoint.Readers
import ServiceMap.Facts.Reading

/-!
# Printed classes are read back

A Java class that was printed is read back as it was: one type of its name, with its fields and its
methods in their order. It holds no comments, its head is found once, and its body is the group that
the brace after its name opens.
-/

namespace ServiceMap

open Text Source Pattern Declaration Endpoint

namespace Declaration

/-! ## The characters of a class -/

/-- Text without quotes, slashes and at signs. -/
def IsPlainText (s : List Char) : Prop :=
  ∀ c ∈ s, isAnyQuote c = false ∧ c ∉ ['/', '@']

theorem IsPlainText.append {s t : List Char} (hs : IsPlainText s) (ht : IsPlainText t) :
    IsPlainText (s ++ t) :=
  List.forall_mem_append.mpr ⟨hs, ht⟩

theorem IsPlainText.cons {c : Char} (hc : isAnyQuote c = false ∧ c ∉ ['/', '@']) {s : List Char}
    (hs : IsPlainText s) : IsPlainText (c :: s) :=
  List.forall_mem_cons.mpr ⟨hc, hs⟩

theorem isPlainText_of_all {s : List Char}
    (h : s.all (fun c => decide (isAnyQuote c = false ∧ c ∉ ['/', '@'])) = true) : IsPlainText s :=
  forall_mem_of_all h

theorem isPlainText_of_headChars {s : List Char} (h : ∀ c ∈ s, isHeadChar c = true) :
    IsPlainText s := by
  refine fun c hc => ⟨isAnyQuote_of_isHeadChar (h c hc), fun hmem => ?_⟩
  have hother : ∀ c ∈ ['/', '@'], isHeadChar c = false := forall_mem_of_all (by decide)
  exact Bool.false_ne_true ((hother c hmem).symm.trans (h c hc))

theorem JavaMember.print_isPlainText (member : JavaMember) : IsPlainText member.print := by
  cases member with
  | field head =>
      have hhead := isPlainText_of_headChars head.print_isHeadChar
      rw [print_field]
      exact (hhead.append (isPlainText_of_all (by decide))).append (isPlainText_of_all (by decide))
  | method head parameters body =>
      have hparameters : IsPlainText (printParameters parameters) :=
        isPlainText_of_headChars fun c hc => isHeadChar_of_mem_printParameters hc
      have hbody : IsPlainText body.text := by
        refine fun c hc => ⟨(body.plain c hc).1, fun hmem => (body.plain c hc).2 ?_⟩
        have hsub : ∀ c ∈ ['/', '@'], c ∈ ['/', '@', '<', '>'] := forall_mem_of_all (by decide)
        exact hsub c hmem
      rw [print_method, methodLine]
      refine ((isPlainText_of_headChars head.print_isHeadChar).append ?_).append
        ((hbody.append (isPlainText_of_all (by decide))).cons (by decide))
      exact (hparameters.append (isPlainText_of_all (by decide))).cons (by decide)

theorem isPlainText_printMembers (members : List JavaMember) :
    IsPlainText (printMembers members) := by
  induction members with
  | nil => exact fun c hc => absurd hc List.not_mem_nil
  | cons member members ih =>
      rw [printMembers_cons]
      exact member.print_isPlainText.append ih

theorem printMembers_isBalanced (members : List JavaMember) :
    Bracket.curly.IsBalanced (printMembers members) := by
  induction members with
  | nil => rfl
  | cons member members ih =>
      rw [printMembers_cons]
      exact member.print_isBalanced.append ih

/-! ## The text of a class -/

/-- The line of a class up to its brace. -/
def classFront (name : JavaName) : List Char :=
  classWords ++ (name.text ++ [' '])

theorem JavaClass.print_eq (c : JavaClass) :
    c.print = (classFront c.name ++ ['\x7b']) ++ (bodyText c.members ++ ['\n']) := by
  have hopen : " \x7b\n".toList = [' ', '\x7b', '\n'] := by decide
  have hclose : "\x7d\n".toList = ['\x7d', '\n'] := by decide
  show classWords ++ (c.name.text ++ (" \x7b\n".toList
    ++ (printMembers c.members ++ "\x7d\n".toList))) = _
  rw [hopen, hclose, classFront, bodyText]
  simp only [List.append_assoc, List.cons_append, List.nil_append]

theorem mem_classFront {name : JavaName} {c : Char} (h : c ∈ classFront name) :
    isWord c = true ∨ c = ' ' := by
  have hwords : ∀ c ∈ classWords, isWord c = true ∨ c = ' ' := forall_mem_of_all (by decide)
  simp only [classFront, List.mem_append, List.mem_singleton] at h
  rcases h with h | h | h
  · exact hwords c h
  · exact Or.inl (name.ofWords c h)
  · exact Or.inr h

theorem classFront_isHeadChar (name : JavaName) : ∀ c ∈ classFront name, isHeadChar c = true := by
  intro c hc
  rcases mem_classFront hc with h | rfl
  · exact isHeadChar_of_isWord h
  · rfl

theorem JavaClass.print_isPlainText (c : JavaClass) : IsPlainText c.print := by
  rw [c.print_eq]
  have hfront := isPlainText_of_headChars (classFront_isHeadChar c.name)
  have hbody : IsPlainText (bodyText c.members) :=
    ((isPlainText_printMembers c.members).append (isPlainText_of_all (by decide))).cons (by decide)
  exact (hfront.append (isPlainText_of_all (by decide))).append
    (hbody.append (isPlainText_of_all (by decide)))

/-- A class holds no comments. -/
theorem JavaClass.maskComments_print (c : JavaClass) : maskComments none c.print = c.print := by
  refine maskComments_of_plain fun d hd => ?_
  obtain ⟨hquote, hother⟩ := c.print_isPlainText d hd
  rw [isAnyQuote, Bool.or_eq_false_iff] at hquote
  exact ⟨fun heq => hother (by rw [heq]; decide), hquote.1⟩

/-! ## The type that is read -/

/-- The brace after the name of a class opens the body of the class. -/
theorem groupEnd_print (c : JavaClass) :
    groupEnd c.print (classFront c.name).length
      = .ok ((classFront c.name).length + 1 + (bodyText c.members).length) := by
  have hbody : Bracket.curly.IsBalanced ('\n' :: printMembers c.members) := by
    rw [Bracket.IsBalanced, Bracket.depthAfter_other _ _ (by decide) (by decide)]
    exact printMembers_isBalanced c.members
  have hquote : ∀ d ∈ '\n' :: printMembers c.members, isAnyQuote d = false := fun d hd =>
    ((isPlainText_printMembers c.members).cons (by decide) d hd).1
  have hprint : c.print = classFront c.name ++ Bracket.curly.opener
      :: (('\n' :: printMembers c.members) ++ Bracket.curly.closer :: ['\n']) := by
    rw [c.print_eq, bodyText]
    simp [Bracket.opener, Bracket.closer]
  have hsize : ('\n' :: printMembers c.members).length + 2 = 1 + (bodyText c.members).length := by
    rw [bodyText, List.length_cons, List.length_cons, List.length_append, List.length_singleton]
    omega
  rw [hprint, groupEnd_of_isBalanced hquote hbody, hsize, Nat.add_assoc]

theorem javaType?_print {source : SourceText} {c : JavaClass} {m : Match}
    (htext : source.masked = c.print) (hgroup : m.group 3 = c.name.text) (hstart : m.start = 0)
    (hstop : m.stop = (classWords ++ c.name.text).length) :
    ∃ type, javaType? source m = .ok (some type) ∧ type.info.name = c.name.toString
      ∧ type.info.properties.map (fun p => (p.name, p.type)) = c.fields
      ∧ type.body = bodySpan (classFront c.name) c.members := by
  have hsplit : source.masked = (classWords ++ c.name.text)
      ++ ([' '] ++ ('\x7b' :: (bodyText c.members ++ ['\n']))) := by
    rw [htext, c.print_eq, classFront]
    simp
  have hlength : (classFront c.name).length = 1 + m.stop := by
    rw [hstop, classFront, ← List.append_assoc, List.length_append, Nat.add_comm]
    rfl
  -- the match stops at the end of the name, and the brace is the second character after it
  have hbrace : findFrom? ['\x7b'] source.masked m.stop = some (1 + m.stop) := by
    rw [findFrom?, hstop, hsplit, List.drop_left]
    rfl
  have hslice : slice source.masked m.stop (1 + m.stop) = [' '] := by
    rw [hsplit, hstop, Nat.add_comm]
    exact slice_middle _ [' '] _
  obtain ⟨preamble, hpreamble⟩ := neverFails_iff.mp <|
    readPreamble_neverFails annotatedStyle_isTotal source.text
      (hstart ▸ Nat.zero_le source.masked.length)
  have hend : groupEnd source.masked (1 + m.stop)
      = .ok (1 + m.stop + 1 + (bodyText c.members).length) := by
    rw [← hlength, htext, groupEnd_print]
  obtain ⟨properties, hproperties, hfields⟩ := javaFields_print (htext.trans c.print_eq)
    (fun hmem => ((htext ▸ c.print_isPlainText) '@' hmem).2 (by decide))
  rw [bodySpan, hlength] at hproperties
  rw [javaType?, hbrace]
  dsimp only
  rw [hslice, if_neg (by decide), hpreamble]
  dsimp only [bind, Except.bind]
  rw [hend]
  dsimp only
  rw [hproperties]
  refine ⟨_, rfl, congrArg String.ofList hgroup, hfields, ?_⟩
  rw [bodySpan, hlength]

theorem javaTypes_print {source : SourceText} {c : JavaClass} (htext : source.masked = c.print) :
    ∃ type, javaTypes source = .ok [type] ∧ type.info.name = c.name.toString
      ∧ type.info.properties.map (fun p => (p.name, p.type)) = c.fields
      ∧ type.body = bodySpan (classFront c.name) c.members := by
  have hprint : c.print
      = classWords ++ (c.name.text ++ ' ' :: '\x7b' :: (bodyText c.members ++ ['\n'])) := by
    rw [c.print_eq, classFront]
    simp only [List.append_assoc, List.cons_append, List.nil_append]
  have hfree : IsFreeOf javaTypeKinds (' ' :: '\x7b' :: (bodyText c.members ++ ['\n'])) := by
    have hmembers : IsFreeOf javaTypeKinds (printMembers c.members ++ ['\x7d', '\n']) :=
      isFreeOf_printMembers (by decide)
    rw [bodyText, List.cons_append, List.append_assoc, isFreeOf_cons rfl, isFreeOf_cons rfl,
      isFreeOf_cons rfl]
    exact hmembers
  obtain ⟨m, hm, hgroup, hstart, hstop⟩ := findAll_javaTypeHead c.name rfl hfree
  obtain ⟨type, htype, hname, hproperties, hbody⟩ := javaType?_print htext hgroup hstart hstop
  refine ⟨type, ?_, hname, hproperties, hbody⟩
  rw [javaTypes, htext, hprint, hm, List.mapM_cons, htype]
  rfl

theorem withMethods_singleton (type : OpenType) (methods : List DeclaredMethod) :
    withMethods [type] (methods.map (0, ·))
      = [{ type.info with methods := methods.map DeclaredMethod.info }] := by
  have howned : (methods.map fun d => (0, d)).filter (fun entry : Nat × DeclaredMethod =>
      entry.1 == 0) = methods.map fun d => (0, d) := by
    rw [List.filter_eq_self]
    intro entry hentry
    obtain ⟨d, -, rfl⟩ := List.mem_map.mp hentry
    rfl
  simp only [withMethods, List.zipIdx_singleton, List.map_singleton, howned, List.map_map]
  rfl

end Declaration

/-- **Printing a class and reading it back.** For every class, whatever its name and its members,
reading the text that it prints gives one type. It has the name of the class, its properties are the
fields with their names and types, and its methods are the methods with their names, their result
types and the names and types of their parameters, all in the order of the class. -/
theorem printed_class_is_read_back (c : JavaClass) (path : String) :
    ∃ facts type, SourceFile.read .java path c.print = .ok facts
      ∧ facts.types = [type]
      ∧ type.name = c.name.toString
      ∧ type.properties.map (fun p => (p.name, p.type)) = c.fields
      ∧ type.methods.map Signature.ofFunction = c.methods := by
  have hmasked : (SourceText.ofText none c.print).masked = c.print := c.maskComments_print
  have hat : '@' ∉ c.print := fun hmem => (c.print_isPlainText '@' hmem).2 (by decide)
  have hfront : ∀ d, isWord d = false → d ≠ ' ' → d ∉ classFront c.name := fun d hd hspace hmem =>
    (mem_classFront hmem).elim (fun h => Bool.false_ne_true (hd.symm.trans h)) hspace
  have hclear := isHeadPattern_method.clear (classFront_isHeadChar c.name)
  obtain ⟨type, htypes, hname, hproperties, hbody⟩ := javaTypes_print hmasked
  obtain ⟨methods, hmethods, hsignatures⟩ := javaMethods_print (hmasked.trans c.print_eq)
    (hmasked.symm ▸ hat) (hfront '\n' rfl (by decide)) (hfront '<' rfl (by decide)) hclear hbody
  obtain ⟨endpoints, hendpoints⟩ := neverFails_iff.mp <|
    javaEndpoints_neverFails path [type] (methods.map (0, ·))
  refine ⟨⟨path, .java, endpoints, withMethods [type] (methods.map (0, ·)),
    (methods.map (0, ·)).map fun entry => entry.2.info, none⟩, _, ?_,
    withMethods_singleton type methods, hname, hproperties, ?_⟩
  · rw [SourceFile.read]
    dsimp only [Language.rawQuote]
    rw [SourceFile.readJava, htypes]
    dsimp only [bind, Except.bind]
    rw [hmethods]
    dsimp only
    rw [hendpoints]
    rfl
  · rw [List.map_map]
    exact hsignatures

/-- A class with a field of a nested type and a method with two parameters. -/
def Declaration.stockClass : JavaClass :=
  let indentation : Indentation := ⟨"  ".toList, forall_mem_of_all (by decide)⟩
  let items : JavaHead := {
    indentation
    modifiers := [⟨"private", by decide⟩, ⟨"final", by decide⟩]
    type := ⟨"Map".toList, by decide, forall_mem_of_all (by decide), by decide +kernel,
      some ⟨"String, List<a.Item>".toList, forall_mem_of_all (by decide +kernel), by decide +kernel,
        by decide +kernel, by decide +kernel⟩, 0⟩
    name := ⟨"items".toList, by decide, forall_mem_of_all (by decide), by decide +kernel⟩ }
  let find : JavaHead := {
    indentation
    modifiers := [⟨"public", by decide⟩]
    type := ⟨"Item".toList, by decide, forall_mem_of_all (by decide), by decide +kernel, none, 1⟩
    name := ⟨"find".toList, by decide, forall_mem_of_all (by decide), by decide +kernel⟩ }
  let key : JavaParameter := {
    type := ⟨"String".toList, by decide, forall_mem_of_all (by decide), by decide +kernel, none, 0⟩
    name := ⟨"key".toList, by decide, forall_mem_of_all (by decide), by decide +kernel⟩ }
  let limit : JavaParameter := {
    type := ⟨"int".toList, by decide, forall_mem_of_all (by decide), by decide +kernel, none, 0⟩
    name := ⟨"limit".toList, by decide, forall_mem_of_all (by decide), by decide +kernel⟩ }
  let body : JavaBody := ⟨"    int left = limit;\n".toList
    ++ "    if (left == 0) \x7b return null; \x7d\n  ".toList,
    by decide +kernel, forall_mem_of_all (by decide +kernel), by decide +kernel, by decide +kernel⟩
  { name := ⟨"Stock".toList, by decide, forall_mem_of_all (by decide), by decide +kernel⟩
    members := [.field items, .method find [key, limit] body] }

theorem stock_class_is_read_back :
    stockClass.print = "public class Stock \x7b\n".toList
        ++ "  private final Map<String, List<a.Item>> items;\n".toList
        ++ "  public Item[] find(String key, int limit) \x7b\n".toList
        ++ "    int left = limit;\n".toList
        ++ "    if (left == 0) \x7b return null; \x7d\n".toList ++ "  \x7d\n\x7d\n".toList
      ∧ ∃ facts type, SourceFile.read .java "Stock.java" stockClass.print = .ok facts
        ∧ facts.types = [type] ∧ type.name = "Stock"
        ∧ type.properties.map (fun p => (p.name, p.type)) = [("items", "Map<String, List<a.Item>>")]
        ∧ type.methods.map Signature.ofFunction
          = [⟨"find", "Item[]", [("key", "String"), ("limit", "int")]⟩] := by
  refine ⟨by decide +kernel, ?_⟩
  obtain ⟨facts, type, hread, htypes, hname, hproperties, hmethods⟩ :=
    printed_class_is_read_back stockClass "Stock.java"
  have hfields : stockClass.fields = [("items", "Map<String, List<a.Item>>")] := by decide +kernel
  have hsignatures : stockClass.methods
      = [⟨"find", "Item[]", [("key", "String"), ("limit", "int")]⟩] := by decide +kernel
  have htext : stockClass.name.toString = "Stock" := by decide +kernel
  exact ⟨facts, type, hread, htypes, hname.trans htext, hproperties.trans hfields,
    hmethods.trans hsignatures⟩

end ServiceMap
