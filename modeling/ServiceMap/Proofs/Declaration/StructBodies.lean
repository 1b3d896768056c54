import ServiceMap.Proofs.Declaration.GoTypeHeads
import ServiceMap.Proofs.Declaration.Readers
import ServiceMap.Proofs.Declaration.StructLines
import ServiceMap.Proofs.Source.Enclosed

/-!
# Bodies of structs

The body of a struct is a list of lines. Each declares fields or embeds a type, or it opens a struct
without a name, whose body goes on over the next lines. The lines are read without regard to how deep
they are nested: the fields of the inner structs are reported among those of the outer one, and a tag
behind an inner struct is reported as a type of its own. What is reported is what the struct declares
itself only if its inner structs declare nothing and have no tags.
-/

namespace ServiceMap.Declaration

open Text Source Pattern Link

/-! ## Lines in print -/

/-- A tag behind a declaration. -/
structure Tag where
  gap : Gap
  content : List Char
  noBacktick : backtick ∉ content

/-- What stands around a declaration on its line. -/
structure Layout where
  indent : Gap
  tag : Option Tag
  trailing : Gap

/-- A type as it is written behind names, all on one line. -/
structure FieldType where
  text : List Char
  trimmed : IsTrimmed text
  noComma : ∀ c ∈ text.head?, c ≠ ','
  noBacktick : backtick ∉ text
  whole : Bracket.curly.IsWhole text

/-- A type that is embedded: a name that may be qualified, or a pointer to one. -/
structure EmbeddedType where
  pointer : Bool
  qualifier : Option TypeName
  name : TypeName

/-- What a line of a struct declares. -/
inductive Declared where
  | fields (names : NameList) (space : Space) (type : FieldType)
  | embedded (type : EmbeddedType)

/-- The line that opens a struct without a name, or a list of them or the like, as `front` says. -/
structure Opening where
  indent : Gap
  names : NameList
  space : Space
  front : List Char
  startsType : ∀ c ∈ front.head?, isBlank c = false ∧ c ≠ ','
  noBacktick : backtick ∉ front
  whole : Bracket.curly.IsWhole front
  gap : Gap
  trailing : Gap

def Tag.print (t : Tag) : List Char :=
  t.gap.text ++ backtick :: (t.content ++ [backtick])

def Layout.printTag (l : Layout) : List Char :=
  l.tag.elim [] Tag.print

/-- A declaration on its line. -/
def Layout.print (l : Layout) (declared : List Char) : List Char :=
  l.indent.text ++ declared ++ (l.printTag ++ l.trailing.text)

/-- The text of the tag, empty if there is none. -/
def Layout.tagText (l : Layout) : List Char :=
  l.tag.elim [] Tag.content

def EmbeddedType.path (t : EmbeddedType) : List Char :=
  t.qualifier.elim [] (fun q => q.text ++ ['.']) ++ t.name.text

def EmbeddedType.print (t : EmbeddedType) : List Char :=
  if t.pointer then '*' :: t.path else t.path

def Declared.print : Declared → List Char
  | fields names space type => names.print ++ (space.text ++ type.text)
  | embedded type => type.print

/-- The type that is reported for a struct without a name: what stands on its line. -/
def Opening.type (o : Opening) : List Char :=
  o.front ++ ("struct".toList ++ o.gap.text) ++ ['\x7b']

def Opening.print (o : Opening) : List Char :=
  Layout.print ⟨o.indent, none, o.trailing⟩ (o.names.print ++ (o.space.text ++ o.type))

/-! ## Bodies in print -/

/-- No line ends within a text. -/
def IsOneLine (s : List Char) : Prop :=
  ∀ c ∈ s, isLineBreak c = false

instance (s : List Char) : Decidable (IsOneLine s) :=
  List.decidableBAll _ s

/-- The lines of a struct, between which there may be blank ones. -/
inductive StructBody where
  | done
  | blank (gap : Gap) (oneLine : IsOneLine gap.text) (rest : StructBody)
  | line (declared : Declared) (layout : Layout) (oneLine : IsOneLine (layout.print declared.print))
      (rest : StructBody)
  | nested (opening : Opening) (oneLine : IsOneLine opening.print) (inner : StructBody)
      (closing : Layout) (oneLine' : IsOneLine (closing.print ['\x7d'])) (rest : StructBody)

namespace StructBody

/-- A body as it is written, up to its last line break. -/
def print : StructBody → List Char
  | done => []
  | blank gap _ rest => gap.text ++ '\n' :: rest.print
  | line declared layout _ rest => layout.print declared.print ++ '\n' :: rest.print
  | nested opening _ inner closing _ rest =>
    opening.print ++ '\n' :: (inner.print ++ (closing.print ['\x7d'] ++ '\n' :: rest.print))

end StructBody

/-! ## What is declared and what is reported -/

/-- The property for a name. -/
def fieldProperty (type tag : List Char) (name : TypeName) : Property :=
  ⟨name.toString, String.ofList type, tagDescription tag, tagAnnotations tag⟩

/-- The properties that a line is reported as. -/
def Declared.properties (tag : List Char) : Declared → List Property
  | fields names _ type => names.names.map (fieldProperty type.text tag)
  | embedded type => [⟨type.name.toString, String.ofList type.print, tagDescription tag,
      "embedded" :: tagAnnotations tag⟩]

/-- What a line declares: names, with the marks that they have. -/
def Declared.marked (tag : List Char) : Declared → List (String × List String)
  | fields names _ _ => names.names.map fun name => (name.toString, tagAnnotations tag)
  | embedded type => [(type.name.toString, "embedded" :: tagAnnotations tag)]

/-- The brace that ends a struct without a name is reported as a type if it has a tag. -/
def Layout.closingProperties (closing : Layout) : List Property :=
  closing.tag.elim [] fun tag =>
    [⟨"\x7d", "\x7d", tagDescription tag.content, "embedded" :: tagAnnotations tag.content⟩]

namespace StructBody

/-- The properties that a body is reported as. -/
def properties : StructBody → List Property
  | done => []
  | blank _ _ rest => rest.properties
  | line declared layout _ rest => declared.properties layout.tagText ++ rest.properties
  | nested opening _ inner closing _ rest =>
    opening.names.names.map (fieldProperty opening.type [])
      ++ (inner.properties ++ (closing.closingProperties ++ rest.properties))

/-- What a body declares itself: names, with the marks that they have. -/
def marked : StructBody → List (String × List String)
  | done => []
  | blank _ _ rest => rest.marked
  | line declared layout _ rest => declared.marked layout.tagText ++ rest.marked
  | nested opening _ _ closing _ rest =>
    (opening.names.names.map fun name => (name.toString, tagAnnotations closing.tagText))
      ++ rest.marked

/-- Each struct without a name declares nothing and has no tag. -/
def IsFlat : StructBody → Prop
  | done => True
  | blank _ _ rest => rest.IsFlat
  | line _ _ _ rest => rest.IsFlat
  | nested _ _ inner closing _ rest => inner.properties = [] ∧ closing.tag = none ∧ rest.IsFlat

/-- The name of a property with its marks. -/
def mark (p : Property) : String × List String :=
  (p.name, p.annotations)

end StructBody

theorem Declared.map_mark_properties (d : Declared) (tag : List Char) :
    (d.properties tag).map StructBody.mark = d.marked tag := by
  cases d with
  | fields names space type => rw [properties, List.map_map]; rfl
  | embedded type => rfl

namespace StructBody

/-- At least as much is reported as is declared. -/
theorem length_marked_le (body : StructBody) : body.marked.length ≤ body.properties.length := by
  induction body with
  | done => exact Nat.le_refl 0
  | blank gap _ rest ih => exact ih
  | line declared layout _ rest ih =>
      have hline := congrArg List.length (declared.map_mark_properties layout.tagText)
      rw [List.length_map] at hline
      rw [marked, properties, List.length_append, List.length_append]
      omega
  | nested opening _ inner closing _ rest _ ih =>
      rw [marked, properties]
      simp only [List.length_append, List.length_map]
      omega

/-- **Only flat structs are reported as declared.** -/
theorem map_mark_properties_iff (body : StructBody) :
    body.properties.map mark = body.marked ↔ body.IsFlat := by
  induction body with
  | done => exact iff_of_true rfl trivial
  | blank gap _ rest ih => exact ih
  | line declared layout _ rest ih =>
      rw [properties, marked, List.map_append, declared.map_mark_properties, List.append_cancel_left_eq,
        ih, IsFlat]
  | nested opening _ inner closing _ rest _ ih =>
      rw [properties, marked, IsFlat]
      constructor
      · intro h
        have hlength := congrArg List.length h
        have hle := rest.length_marked_le
        simp only [List.length_append, List.length_map] at hlength
        have hinner : inner.properties = [] := List.length_eq_zero_iff.mp (by omega)
        have hclosing : closing.closingProperties = [] := List.length_eq_zero_iff.mp (by omega)
        have htag : closing.tag = none := by
          rw [Layout.closingProperties] at hclosing
          cases htag : closing.tag with
          | none => rfl
          | some tag =>
              rw [htag] at hclosing
              exact nomatch hclosing
        refine ⟨hinner, htag, ih.mp ?_⟩
        rw [hinner, hclosing, List.map_append, List.nil_append, List.nil_append, List.map_map] at h
        exact (List.append_inj h (by simp)).2
      · rintro ⟨hinner, htag, hrest⟩
        rw [hinner, Layout.closingProperties, htag, Layout.tagText, htag, Option.elim_none,
          List.nil_append, List.nil_append, List.map_append, ih.mpr hrest, List.map_map]
        rfl

end StructBody

/-! ## Reading lines -/

theorem isTrimmed_names (names : NameList) (space : Space) {type : List Char} (h : IsTrimmed type) :
    IsTrimmed (names.print ++ (space.text ++ type)) := by
  have hfirst : IsTrimmed names.first.text := isTrimmed_word
    ⟨names.first.nonempty, fun c hc => isBlank_of_isWord (names.first.ofWords c hc)⟩
  have hwhole := hfirst.around (names.others.flatMap NextName.print ++ space.text) h
  rwa [← List.append_assoc, ← NameList.print, List.append_assoc] at hwhole

/-- Neither quotes nor braces. -/
def IsPlain (s : List Char) : Prop :=
  ∀ c ∈ s, isAnyQuote c = false ∧ c ≠ Bracket.curly.opener ∧ c ≠ Bracket.curly.closer

namespace IsPlain

variable {s t : List Char}

theorem of_isLabel (h : IsLabel s) : IsPlain s := by
  intro c hc
  obtain ⟨hquote, hopener, hcloser, -⟩ := plain_of_label h hc
  refine ⟨hquote, ?_, ?_⟩
  · rintro rfl
    exact absurd hopener (by decide)
  · rintro rfl
    exact absurd hcloser (by decide)

theorem of_word (h : ∀ c ∈ s, isWord c = true) : IsPlain s :=
  of_isLabel fun c hc => Or.inl (isDottedWord_of_isWord (h c hc))

theorem of_gap (gap : Gap) : IsPlain gap.text :=
  of_isLabel (IsGap.isLabel gap.ofBlanks)

theorem append (hs : IsPlain s) (ht : IsPlain t) : IsPlain (s ++ t) :=
  fun c hc => (List.mem_append.mp hc).elim (hs c) (ht c)

theorem cons {c : Char} (hc : isAnyQuote c = false ∧ c ≠ Bracket.curly.opener
    ∧ c ≠ Bracket.curly.closer) (hs : IsPlain s) : IsPlain (c :: s) :=
  List.forall_mem_cons.mpr ⟨hc, hs⟩

theorem passesOver (h : IsPlain s) : Bracket.curly.PassesOver s :=
  Bracket.passesOver_plain h

theorem backtick_not_mem (h : IsPlain s) : backtick ∉ s :=
  fun hmem => absurd (h backtick hmem).1 (by decide)

end IsPlain

/-- The word that opens a struct, up to its brace. -/
theorem isPlain_struct (gap : Gap) : IsPlain ("struct".toList ++ gap.text) :=
  (IsPlain.of_word (forall_mem_of_all (by decide))).append (.of_gap gap)

theorem NameList.isPlain (names : NameList) : IsPlain names.print := by
  refine (IsPlain.of_word names.first.ofWords).append fun c hc => ?_
  obtain ⟨n, -, hc⟩ := List.mem_flatMap.mp hc
  exact (IsPlain.of_gap n.before).append (.cons (by decide)
    ((IsPlain.of_gap n.after).append (.of_word n.name.ofWords))) c hc

theorem EmbeddedType.isTypeName (t : EmbeddedType) : IsTypeName t.path := by
  refine ⟨List.append_ne_nil_of_right_ne_nil _ t.name.nonempty, fun c hc => ?_⟩
  rcases List.mem_append.mp hc with hc | hc
  · cases hq : t.qualifier with
    | none =>
        rw [hq] at hc
        exact nomatch hc
    | some q =>
        rw [hq] at hc
        rcases List.mem_append.mp hc with hc | hc
        · exact isDottedWord_of_isWord (q.ofWords c hc)
        · rw [List.mem_singleton.mp hc]
          decide
  · exact isDottedWord_of_isWord (t.name.ofWords c hc)

theorem EmbeddedType.isLoneType (t : EmbeddedType) : IsLoneType t.print := by
  refine ⟨t.path, t.isTypeName, ?_⟩
  rw [print]
  cases t.pointer with
  | false => exact Or.inl rfl
  | true => exact Or.inr rfl

theorem EmbeddedType.isTrimmed (t : EmbeddedType) : IsTrimmed t.print :=
  isTrimmed_word ⟨t.isLoneType.ne_nil, t.isLoneType.not_blank⟩

theorem EmbeddedType.isPlain (t : EmbeddedType) : IsPlain t.print := by
  have hpath : IsPlain t.path := .of_isLabel fun c hc => Or.inl (t.isTypeName.ofWords c hc)
  rw [print]
  cases t.pointer with
  | false => exact hpath
  | true => exact hpath.cons (by decide)

/-- The name of an embedded type is its name in print without the mark of a pointer and the package. -/
theorem EmbeddedType.bareTypeName_print (t : EmbeddedType) : bareTypeName t.print = t.name.text := by
  have hstar : ∀ c ∈ t.path.head?, (c == '*') = false := by
    intro c hc
    rw [beq_eq_false_iff_ne]
    rintro rfl
    exact absurd (t.isTypeName.ofWords '*' (List.mem_of_head? hc)) (by decide)
  have hpath : dropLeft (· == '*') t.print = t.path := by
    rw [print, dropLeft]
    cases t.pointer with
    | false => exact dropWhile_eq_self hstar
    | true => exact dropWhile_eq_self hstar
  rw [bareTypeName, hpath, path]
  cases t.qualifier with
  | none => exact t.name.afterLast_text
  | some q =>
      have hqualified := t.name.afterLast_qualified q.text
      rwa [← List.singleton_append, ← List.append_assoc] at hqualified

namespace Layout

variable {declared : List Char}

/-- Blanks and tags are told from what is declared. -/
theorem declaration_print (l : Layout) (h : IsTrimmed declared) (hplain : backtick ∉ declared) :
    declaration (l.print declared) = declared ∧ Declaration.tagText (l.print declared) = l.tagText := by
  have hfront : backtick ∉ l.indent.text ++ declared :=
    fun hmem => (List.mem_append.mp hmem).elim (backtick_not_mem_of_blank l.indent.ofBlanks) hplain
  obtain ⟨huntagged, hfirst⟩ := untagged_append hfront (l.printTag ++ l.trailing.text)
  obtain ⟨hrest, hrest'⟩ :=
    untagged_append_of_not_mem (backtick_not_mem_of_blank l.trailing.ofBlanks) l.printTag
  rw [declaration, Declaration.tagText, print, huntagged, hfirst, hrest, hrest', printTag, tagText]
  cases l.tag with
  | none =>
      rw [Option.elim_none, Option.elim_none, untagged, List.nil_append,
        trim_between l.indent.ofBlanks l.trailing.ofBlanks, h.trim_eq]
      exact ⟨rfl, rfl⟩
  | some t =>
      obtain ⟨hgap, hgap'⟩ := untagged_append (backtick_not_mem_of_blank t.gap.ofBlanks)
        (backtick :: (t.content ++ backtick :: []))
      rw [Option.elim_some, Option.elim_some, Tag.print, hgap, hgap', untagged_tag t.noBacktick,
        firstTag?_tag t.noBacktick, untagged, List.append_nil,
        trim_between l.indent.ofBlanks (fun c hc => (List.mem_append.mp hc).elim
          (t.gap.ofBlanks c) (l.trailing.ofBlanks c)), h.trim_eq]
      exact ⟨rfl, rfl⟩

theorem goFields_names (l : Layout) {names : NameList} {space : Space} {type : List Char}
    (htrimmed : IsTrimmed type) (hcomma : ∀ c ∈ type.head?, c ≠ ',') (hplain : backtick ∉ type)
    (hline : IsOneLine (l.print (names.print ++ (space.text ++ type)))) :
    goFields (l.print (names.print ++ (space.text ++ type)))
      = names.names.map (fieldProperty type l.tagText) := by
  have hnames := names.isPlain.backtick_not_mem
  have hspace := backtick_not_mem_of_blank space.ofBlanks
  obtain ⟨hdeclaration, htag⟩ := l.declaration_print (isTrimmed_names names space htrimmed)
    (by simp [hnames, hspace, hplain])
  have hnewline : '\n' ∉ type := fun hmem => newline_not_mem hline (by simp [print, hmem])
  rw [goFields_of_names htrimmed hcomma hnewline hdeclaration, htag]
  rfl

end Layout

/-- What is declared on a line is read off it. -/
theorem Declared.goFields_print (d : Declared) (l : Layout) (hline : IsOneLine (l.print d.print)) :
    goFields (l.print d.print) = d.properties l.tagText := by
  cases d with
  | fields names space type =>
      exact l.goFields_names type.trimmed type.noComma type.noBacktick hline
  | embedded type =>
      obtain ⟨hdeclaration, htag⟩ := l.declaration_print type.isTrimmed type.isPlain.backtick_not_mem
      have hlone := type.isLoneType
      have hbare : ¬IsBare (l.print type.print) := fun hbare =>
        not_lone_of_isBare hbare (by rwa [hdeclaration])
      rw [print, goFields_of_word hbare hlone.ne_nil hlone.not_blank hdeclaration, htag,
        type.bareTypeName_print]
      rfl

theorem Opening.head_type (o : Opening) : ∀ c ∈ o.type.head?, isBlank c = false ∧ c ≠ ',' := by
  have hstart := o.startsType
  rw [type]
  cases hfront : o.front with
  | nil => exact fun c hc => Option.some.inj hc ▸ by decide
  | cons d front => exact fun c hc => hstart c (by rw [hfront]; exact hc)

theorem Opening.isTrimmed_type (o : Opening) : IsTrimmed o.type where
  nonempty := List.append_ne_nil_of_right_ne_nil _ (List.cons_ne_nil _ _)
  head := fun c hc => (o.head_type c hc).1
  last := by
    rw [type, List.getLast?_append]
    exact fun c hc => Option.some.inj hc ▸ by decide

theorem Opening.goFields_print (o : Opening) (hline : IsOneLine o.print) :
    goFields o.print = o.names.names.map (fieldProperty o.type []) := by
  refine Layout.goFields_names _ o.isTrimmed_type (fun c hc => (o.head_type c hc).2) ?_ hline
  have hbrace : backtick ∉ ['\x7b'] := by decide
  rw [type, List.mem_append, List.mem_append]
  exact fun hmem => hmem.elim (Or.rec o.noBacktick (isPlain_struct o.gap).backtick_not_mem) hbrace

/-- The brace that ends an inner struct declares nothing, unless it has a tag. -/
theorem Layout.goFields_closing (l : Layout) :
    goFields (l.print ['\x7d']) = l.closingProperties := by
  have htrim : ∀ s : List Char, IsGap s → trim (l.indent.text ++ ['\x7d'] ++ s) = ['\x7d'] := by
    intro s hs
    rw [trim_between l.indent.ofBlanks hs]
    decide
  cases htag : l.tag with
  | none =>
      rw [closingProperties, print, printTag, htag, Option.elim_none, Option.elim_none,
        List.nil_append]
      exact goFields_of_isBare (Or.inr (Or.inr (htrim _ l.trailing.ofBlanks)))
  | some tag =>
      have hblank : ∀ c ∈ ['\x7d'], isBlank c = false := List.forall_mem_singleton.mpr (by decide)
      have hbrace : IsTrimmed ['\x7d'] := isTrimmed_word ⟨List.cons_ne_nil _ _, hblank⟩
      obtain ⟨hdeclaration, htext⟩ := l.declaration_print hbrace (by decide)
      have hbare : ¬IsBare (l.print ['\x7d']) := by
        intro hbare
        -- a tag is in the line, and not in the brace
        have hmem : backtick ∈ l.print ['\x7d'] := by simp [print, printTag, htag, Tag.print]
        have htrim := mem_trim hmem (by decide)
        rw [← declaration_of_isBare hbare, hdeclaration] at htrim
        exact absurd htrim (by decide)
      rw [goFields_of_word hbare (List.cons_ne_nil _ _) hblank hdeclaration, htext,
        closingProperties, tagText, htag]
      rfl

/-! ## Reading bodies -/

theorem goProperties_append_newline {line : List Char} (h : IsOneLine line) (s : List Char) :
    goProperties (line ++ '\n' :: s) = goFields line ++ goProperties s := by
  rw [goProperties, lines_append_newline h, List.flatMap_cons]
  rfl

theorem goProperties_gap {s : List Char} (h : IsGap s) : goProperties s = [] :=
  List.flatMap_eq_nil_iff.mpr fun _ hline =>
    goFields_of_isBare (Or.inl (trim_gap fun c hc => h c (mem_of_mem_lines hline hc)))

/-- The lines of a body are read one after another, however deep they are nested. -/
theorem StructBody.goProperties_print (body : StructBody) (s : List Char) :
    goProperties (body.print ++ s) = body.properties ++ goProperties s := by
  induction body generalizing s with
  | done => rfl
  | blank gap hline rest ih =>
      rw [print, List.append_assoc, List.cons_append, goProperties_append_newline hline, ih,
        goFields_of_isBare (Or.inl (trim_gap gap.ofBlanks))]
      rfl
  | line declared layout hline rest ih =>
      rw [print, List.append_assoc, List.cons_append, goProperties_append_newline hline, ih,
        declared.goFields_print layout hline, properties, List.append_assoc]
  | nested opening hline inner closing hline' rest ihInner ih =>
      rw [print, List.append_assoc, List.cons_append, goProperties_append_newline hline,
        List.append_assoc, ihInner, List.append_assoc, List.cons_append,
        goProperties_append_newline hline', ih, opening.goFields_print hline,
        closing.goFields_closing, properties]
      simp only [List.append_assoc]

/-! ## Bodies are groups -/

theorem Layout.passesOver_printTag (l : Layout) : Bracket.curly.PassesOver l.printTag := by
  rw [printTag]
  cases l.tag with
  | none => exact IsPlain.passesOver fun _ hc => nomatch hc
  | some t => exact (IsPlain.of_gap t.gap).passesOver.append (Bracket.passesOver_raw t.noBacktick)

theorem Declared.passesOver_print (d : Declared) : Bracket.curly.PassesOver d.print := by
  cases d with
  | fields names space type =>
      exact names.isPlain.passesOver.append
        ((IsPlain.of_gap space.toGap).passesOver.append type.whole.passesOver)
  | embedded type => exact type.isPlain.passesOver

/-- An inner struct is a group behind the text before its brace. -/
theorem StructBody.print_nested (opening : Opening) (inner : List Char) (closing : Layout) :
    opening.print ++ '\n' :: (inner ++ closing.print ['\x7d'])
      = opening.indent.text ++ (opening.names.print ++ (opening.space.text
          ++ (opening.front ++ ("struct".toList ++ opening.gap.text))))
        ++ ('\x7b' :: ((opening.trailing.text ++ ['\n'] ++ inner ++ closing.indent.text) ++ ['\x7d'])
          ++ (closing.printTag ++ closing.trailing.text)) := by
  simp [Opening.print, Opening.type, Layout.print, Layout.printTag]

/-- No brace of a body is left open. -/
theorem StructBody.passesOver_print (body : StructBody) : Bracket.curly.PassesOver body.print := by
  have hnewline : IsPlain ['\n'] := IsPlain.of_isLabel (IsGap.isLabel (by decide))
  induction body with
  | done => exact IsPlain.passesOver fun _ hc => nomatch hc
  | blank gap _ rest ih => exact (IsPlain.of_gap gap).passesOver.append (hnewline.passesOver.append ih)
  | line declared layout _ rest ih =>
      have hfront := (IsPlain.of_gap layout.indent).passesOver.append declared.passesOver_print
      have hback := layout.passesOver_printTag.append (IsPlain.of_gap layout.trailing).passesOver
      exact (hfront.append hback).append (hnewline.passesOver.append ih)
  | nested opening _ inner closing _ rest ihInner ih =>
      have hfront := (IsPlain.of_gap opening.indent).passesOver.append
        (opening.names.isPlain.passesOver.append ((IsPlain.of_gap opening.space.toGap).passesOver.append
          (opening.whole.passesOver.append (isPlain_struct opening.gap).passesOver)))
      have hinside := ((((IsPlain.of_gap opening.trailing).append hnewline).passesOver.append
        ihInner).append (IsPlain.of_gap closing.indent).passesOver).enclosed
      have hback := closing.passesOver_printTag.append (IsPlain.of_gap closing.trailing).passesOver
      have hwhole := (hfront.append (hinside.append hback)).append (hnewline.passesOver.append ih)
      have hprint : (nested opening ‹_› inner closing ‹_› rest).print
          = opening.print ++ '\n' :: (inner.print ++ closing.print ['\x7d']) ++ '\n' :: rest.print := by
        simp [print]
      rw [hprint, print_nested]
      exact hwhole

/-! ## Structs in a file -/

/-- The inside of a struct whose body is in print. -/
theorem StructBody.group_print (body : StructBody) (gap : Gap) (head : GoTypeHead)
    (front back : List Char) :
    ∃ stop, group (front ++ (head.print ++ (body.print ++ gap.text ++ '\x7d' :: back)))
      (front.length + head.print.length - 1) = .ok (body.print ++ gap.text, stop) := by
  obtain ⟨init, hinit⟩ : ∃ init, head.print = init ++ ['\x7b'] :=
    ⟨"type".toList ++ (head.gap.text ++ (head.name.text ++ (head.space.text
      ++ (head.kind.toList ++ head.trailing.text)))), by simp [GoTypeHead.print, GoTypeHead.printNamed]⟩
  have hgroup := group_of_passesOver
    (body.passesOver_print.append (IsPlain.of_gap gap).passesOver) (front ++ init) back
  rw [List.append_assoc] at hgroup
  rw [hinit, List.append_assoc, List.singleton_append, List.length_append, List.length_singleton,
    ← Nat.add_assoc, Nat.add_sub_cancel, ← List.length_append]
  exact ⟨_, hgroup⟩

/-- **Structs are read without their depth.** A struct that is written down in a file is reported with
its name and line. Its properties are all those of its lines, inner structs included; they are what it
declares itself, in order and with its tags, if and only if its inner structs declare nothing and have
no tags. -/
theorem struct_is_reported_with_inner_fields {text front back : List Char} {head : GoTypeHead}
    {body : StructBody} {gap : Gap} (hkind : head.kind = "struct")
    (hfront : ∀ c ∈ front.getLast?, isWord c = false)
    (hmasked : maskComments Language.go.rawQuote text
      = front ++ (head.print ++ (body.print ++ gap.text ++ '\x7d' :: back))) :
    ∃ types, goTypes (.ofText Language.go.rawQuote text) = .ok types
      ∧ ∃ type ∈ types, type.name = head.name.toString
        ∧ type.lineNumber = (SourceText.ofText Language.go.rawQuote text).lineNumber front.length
        ∧ type.properties = body.properties
        ∧ (type.properties.map StructBody.mark = body.marked ↔ body.IsFlat) := by
  obtain ⟨types, htypes, type, htype, hname, hline, inside, stop, hinside, hproperties⟩ :=
    exists_type_of_head hfront hmasked
  obtain ⟨stop', hgroup⟩ := body.group_print gap head front back
  obtain rfl := (Prod.mk.inj (Except.ok.inj (hgroup.symm.trans hinside))).1
  rw [if_pos hkind, body.goProperties_print, goProperties_gap gap.ofBlanks, List.append_nil]
    at hproperties
  refine ⟨types, htypes, type, htype, hname, hline, hproperties, ?_⟩
  rw [hproperties]
  exact body.map_mark_properties_iff

/-! ## Pages with owners -/

/-- Some tabs. -/
def tabs (n : Nat) : Gap :=
  ⟨List.replicate n '\t', fun _ hc => (List.eq_of_mem_replicate hc) ▸ by decide⟩

/-- A line that declares one field of type `string`. -/
def stringField (name : TypeName) : Declared :=
  .fields ⟨name, []⟩ oneSpace ⟨"string".toList, isTrimmed_word ⟨by decide,
    fun c hc => isBlank_of_isWord (List.all_eq_true.mp (by decide) c hc)⟩,
    fun _ hc => Option.some.inj hc ▸ by decide, by decide, by decide⟩

/-- A line that opens a struct without a name. -/
def structField (name : TypeName) : Opening where
  indent := tabs 1
  names := ⟨name, []⟩
  space := oneSpace
  front := []
  startsType := fun _ hc => nomatch hc
  noBacktick := List.not_mem_nil
  whole := by decide
  gap := oneSpace.toGap
  trailing := noGap

/-- The head of both pages. -/
def pageHead : GoTypeHead :=
  ⟨oneSpace, .ofString "Page" (by decide) (by decide), oneSpace, "struct", by decide, oneSpace.toGap⟩

/-- A page that embeds a view, and whose owner has no fields. -/
def plainPage : StructBody :=
  .blank noGap (by decide)
  <| .line (.embedded ⟨true, some (.ofString "web" (by decide) (by decide)),
      .ofString "View" (by decide) (by decide)⟩)
    ⟨tabs 1, some ⟨oneSpace.toGap, "inline".toList, by decide⟩, noGap⟩ (by decide)
  <| .nested (structField (.ofString "Owner" (by decide) (by decide))) (by decide) .done
    ⟨tabs 1, none, noGap⟩ (by decide)
  <| .done

theorem plain_page_is_reported_as_declared :
    let text := ("package p\n\ntype Page struct \x7b\n\t*web.View `inline`\n"
      ++ "\tOwner struct \x7b\n\t\x7d\n\x7d\n").toList
    pageHead.kind = "struct" ∧ (∀ c ∈ "package p\n\n".toList.getLast?, isWord c = false)
      ∧ maskComments Language.go.rawQuote text
        = "package p\n\n".toList
          ++ (pageHead.print ++ (plainPage.print ++ noGap.text ++ ['\x7d', '\n']))
      ∧ ∃ types, goTypes (.ofText Language.go.rawQuote text) = .ok types
        ∧ ∃ type ∈ types, type.name = "Page" ∧ type.lineNumber = 3
          ∧ type.properties.map StructBody.mark
            = [("View", ["embedded", "inline"]), ("Owner", [])] := by
  intro text
  have hfront : ∀ c ∈ "package p\n\n".toList.getLast?, isWord c = false :=
    forall_getLast?_of_eq '\n' ⟨by decide, by decide⟩
  have hmasked : maskComments Language.go.rawQuote text
      = "package p\n\n".toList
        ++ (pageHead.print ++ (plainPage.print ++ noGap.text ++ ['\x7d', '\n'])) := by
    decide +kernel
  obtain ⟨types, htypes, type, htype, hname, hline, -, hmarks⟩ :=
    struct_is_reported_with_inner_fields rfl hfront hmasked
  refine ⟨rfl, hfront, hmasked, types, htypes, type, htype, hname, ?_, hmarks.mpr ⟨rfl, rfl, trivial⟩⟩
  rw [hline]
  decide +kernel

/-- A page whose owner has a name and a tag. -/
def ownedPage : StructBody :=
  .blank noGap (by decide)
  <| .line (stringField (.ofString "Title" (by decide) (by decide))) ⟨tabs 1, none, noGap⟩ (by decide)
  <| .nested (structField (.ofString "Owner" (by decide) (by decide))) (by decide)
    (.line (stringField (.ofString "Name" (by decide) (by decide))) ⟨tabs 2, none, noGap⟩ (by decide)
      .done)
    ⟨tabs 1, some ⟨oneSpace.toGap, "json:\"owner\"".toList, by decide⟩, noGap⟩ (by decide)
  <| .done

/-- The owner's name is reported as a field of the page, and the owner's tag as a type. -/
theorem inner_field_is_reported_as_outer :
    let text := ("package p\n\ntype Page struct \x7b\n\tTitle string\n\tOwner struct \x7b\n"
      ++ "\t\tName string\n\t\x7d `json:\"owner\"`\n\x7d\n").toList
    maskComments Language.go.rawQuote text
        = "package p\n\n".toList ++ (pageHead.print ++ (ownedPage.print ++ ['\x7d', '\n']))
      ∧ ownedPage.marked = [("Title", []), ("Owner", ["json:\"owner\""])]
      ∧ (goTypes (.ofText Language.go.rawQuote text)).toOption.map
          (List.map fun type => type.properties.map StructBody.mark)
        = some [[("Title", []), ("Owner", []), ("Name", []),
          ("\x7d", ["embedded", "json:\"owner\""])]] := by
  refine ⟨?_, ?_, ?_⟩ <;> decide +kernel

end ServiceMap.Declaration
