import ServiceMap.Proofs.Declaration.GoTypeHeads
import ServiceMap.Proofs.Declaration.StructLines
import ServiceMap.Proofs.Declaration.Readers

/-!
# Embedded types

A struct's embedded types are read twice: as properties that are marked, and as references of its file
to other types. Both readings take one line after the other. What the references name is marked, with
the same name; and everything that is marked is named by a reference, but for types with arguments and
other declarations that are neither fields nor a name alone, and for fields whose tag is the mark.
-/

namespace ServiceMap

open Text Source Declaration Pattern Link

namespace Declaration

/-- The names of the properties that are marked as embedded. -/
def embeddedNames (properties : List Property) : List String :=
  (properties.filter fun p => p.annotations.contains "embedded").map Property.name

/-- A line that declares nothing, or fields that are not tagged as embedded, or a type without
arguments. -/
def IsPlainLine (line : List Char) : Prop :=
  IsBare line ∨ declaration line = []
    ∨ (NamesFields (declaration line) ∧ tagText line ≠ "embedded".toList)
    ∨ IsLoneType (declaration line)

theorem embeddedNames_append (first second : List Property) :
    embeddedNames (first ++ second) = embeddedNames first ++ embeddedNames second := by
  rw [embeddedNames, List.filter_append, List.map_append]
  rfl

theorem embeddedNames_goProperties (body : List Char) :
    embeddedNames (goProperties body)
      = (lines body).flatMap fun line => embeddedNames (goFields line) := by
  rw [goProperties]
  induction lines body with
  | nil => rfl
  | cons line rest ih => rw [List.flatMap_cons, embeddedNames_append, ih, List.flatMap_cons]

/-! ## One line -/

/-- The name of the type that the references of a line name, if there is one. -/
def referredNames (line : List Char) : List String :=
  ((embeddedName? line).map String.ofList).toList

theorem contains_tagAnnotations (tag : List Char) :
    (tagAnnotations tag).contains "embedded" = true ↔ tag = "embedded".toList := by
  rw [tagAnnotations]
  split
  · rename_i hempty
    rw [List.isEmpty_iff.mp hempty]
    decide
  · rw [List.contains_iff_mem, List.mem_singleton]
    constructor
    · rintro h
      rw [h, String.toList_ofList]
    · rintro rfl
      rfl

section Line

variable {line : List Char}

theorem referredNames_of_not_lone (h : ¬IsLoneType (declaration line)) : referredNames line = [] := by
  rw [referredNames, embeddedName?_eq, if_neg (mt isSome_loneType.mp h)]
  rfl

theorem referredNames_of_lone (h : IsLoneType (declaration line)) :
    referredNames line = [String.ofList (bareTypeName (declaration line))] := by
  rw [referredNames, embeddedName?_eq, if_pos (isSome_loneType.mpr h)]
  rfl

/-- The fields of a line are marked if their tag is the mark. -/
theorem embeddedNames_of_names (hbare : ¬IsBare line) (hline : '\n' ∉ declaration line)
    (hnames : NamesFields (declaration line)) :
    embeddedNames (goFields line) = [] ↔ tagText line ≠ "embedded".toList := by
  obtain ⟨m, hm⟩ := Option.isSome_iff_exists.mp ((isSome_fieldLine hline).mpr hnames)
  rw [goFields_eq, if_neg hbare, hm, embeddedNames, List.map_eq_nil_iff, List.filter_eq_nil_iff,
    ne_eq, ← contains_tagAnnotations]
  refine ⟨fun h => ?_, fun h p hp => ?_⟩
  · obtain ⟨name, hname⟩ := List.exists_mem_of_ne_nil _ (splitOn_ne_nil (· == ',') (m.group 1))
    exact h _ (List.mem_map.mpr ⟨name, hname, rfl⟩)
  · obtain ⟨name, -, rfl⟩ := List.mem_map.mp hp
    exact h

/-- **One line, read twice.** What the references of a line name is marked; and what is marked is named
if and only if the line is plain. -/
theorem referredNames_sublist (hline : '\n' ∉ line) :
    (referredNames line).Sublist (embeddedNames (goFields line))
      ∧ (embeddedNames (goFields line) = referredNames line ↔ IsPlainLine line) := by
  have hdeclaration : '\n' ∉ declaration line := mt mem_of_mem_declaration hline
  by_cases hbare : IsBare line
  · have hnone := referredNames_of_not_lone (not_lone_of_isBare hbare)
    rw [hnone, goFields_of_isBare hbare]
    exact ⟨List.nil_sublist _, iff_of_true rfl (Or.inl hbare)⟩
  by_cases hnames : NamesFields (declaration line)
  · have hlone : ¬IsLoneType (declaration line) := fun h => not_namesFields h.not_blank hnames
    have hne : declaration line ≠ [] := by
      obtain ⟨names, space, type, hne, hsplit⟩ := hnames
      rw [hsplit]
      exact List.append_ne_nil_of_right_ne_nil _ (List.append_ne_nil_of_right_ne_nil _ hne)
    rw [referredNames_of_not_lone hlone, embeddedNames_of_names hbare hdeclaration hnames]
    refine ⟨List.nil_sublist _, fun h => Or.inr (Or.inr (Or.inl ⟨hnames, h⟩)), ?_⟩
    rintro (h | h | ⟨-, h⟩ | h)
    · exact absurd h hbare
    · exact absurd h hne
    · exact h
    · exact absurd h hlone
  by_cases hne : declaration line = []
  · rw [referredNames_of_not_lone fun h => h.ne_nil hne, goFields_of_nil hbare hne]
    exact ⟨List.nil_sublist _, iff_of_true rfl (Or.inr (Or.inl hne))⟩
  have hfields := goFields_of_type hbare hdeclaration hnames hne
  by_cases hlone : IsLoneType (declaration line)
  · have hword : ((declaration line).takeWhile fun c => !isBlank c) = declaration line :=
      List.takeWhile_eq_self_iff.mpr fun c hc => by simp [hlone.not_blank c hc]
    rw [hword] at hfields
    rw [referredNames_of_lone hlone, hfields]
    exact ⟨List.Sublist.refl _, iff_of_true rfl (Or.inr (Or.inr (Or.inr hlone)))⟩
  · rw [referredNames_of_not_lone hlone, hfields]
    refine ⟨List.nil_sublist _, iff_of_false (List.cons_ne_nil _ _) ?_⟩
    rintro (h | h | ⟨h, -⟩ | h)
    · exact hbare h
    · exact hne h
    · exact hnames h
    · exact hlone h

end Line

/-! ## One body -/

/-- Two lists that are parts of two others make up the same list only if each is the whole. -/
theorem append_eq_append_of_sublist {α : Type} {a b c d : List α} (hac : a.Sublist c)
    (hbd : b.Sublist d) : c ++ d = a ++ b ↔ c = a ∧ d = b := by
  refine ⟨fun h => ?_, fun ⟨hc, hd⟩ => by rw [hc, hd]⟩
  have hlength := congrArg List.length h
  rw [List.length_append, List.length_append] at hlength
  have hle := hac.length_le
  have hle' := hbd.length_le
  exact ⟨(hac.eq_of_length_le (by omega)).symm, (hbd.eq_of_length_le (by omega)).symm⟩

/-- The names of the types that the references of a struct with this body name. -/
def referredIn (body : List Char) : List String :=
  (lines body).flatMap referredNames

/-- **One body, read twice.** -/
theorem referredIn_sublist (body : List Char) :
    (referredIn body).Sublist (embeddedNames (goProperties body))
      ∧ (embeddedNames (goProperties body) = referredIn body
        ↔ ∀ line ∈ lines body, IsPlainLine line) := by
  rw [embeddedNames_goProperties, referredIn]
  have hlines : ∀ line ∈ lines body, '\n' ∉ line := fun line hline =>
    newline_not_mem (isLineBreak_of_mem_lines hline)
  generalize lines body = all at hlines
  induction all with
  | nil => exact ⟨List.Sublist.refl _, iff_of_true rfl fun _ h => nomatch h⟩
  | cons line rest ih =>
      obtain ⟨hsub, hiff⟩ := referredNames_sublist (hlines line List.mem_cons_self)
      obtain ⟨hsub', hiff'⟩ := ih fun other hother => hlines other (List.mem_cons_of_mem line hother)
      rw [List.flatMap_cons, List.flatMap_cons, append_eq_append_of_sublist hsub hsub', hiff, hiff',
        List.forall_mem_cons]
      exact ⟨hsub.append hsub', Iff.rfl⟩

/-! ## One file -/

/-- The reference that a type's marked property stands for. -/
def embeddingUse (type name : String) : SymbolUse :=
  ⟨.references, name.toList, ("Struct embedding: " ++ type ++ " embeds " ++ name).toList⟩

/-- The references that a type's marked properties stand for. -/
def typeUses (type : TypeDecl) : List SymbolUse :=
  (embeddedNames type.properties).map (embeddingUse type.name)

/-- Each line of the body that a head opens is plain. -/
def HasPlainBody (masked : List Char) (head : Match) : Prop :=
  ∀ body stop, group masked (head.stop - 1) = .ok (body, stop) → ∀ line ∈ lines body, IsPlainLine line

/-- Each line of each struct is plain. -/
def HasPlainStructs (masked : List Char) : Prop :=
  ∀ head ∈ goTypeHead.findAll masked, head.group 2 = "struct".toList → HasPlainBody masked head

theorem embeddings_eq_ok {masked body : List Char} {m : Match} {stop : Nat}
    (h : group masked (m.stop - 1) = .ok (body, stop)) :
    embeddings masked m
      = .ok ((referredIn body).map (embeddingUse (String.ofList (m.group 1)))) := by
  rw [embeddings, h, referredIn, List.map_flatMap]
  refine congrArg Except.ok ?_
  rw [List.map_filterMap, List.filterMap_eq_flatMap_toList]
  refine List.flatMap_congr fun line _ => ?_
  rw [referredNames]
  cases embeddedName? line with
  | none => rfl
  | some name => simp [embeddingUse]

theorem map_embeddingUse_inj {type : String} {names names' : List String} :
    names.map (embeddingUse type) = names'.map (embeddingUse type) ↔ names = names' := by
  refine (List.map_injective_iff.mpr fun a b h => ?_).eq_iff
  exact String.toList_inj.mp (SymbolUse.mk.inj h).2.1

/-- **One struct, read twice.** -/
theorem uses_of_struct {source : SourceText} {m head : Match} {type : TypeDecl}
    (htype : goType source head = .ok type) (hkind : head.group 2 = "struct".toList)
    (hsame : IsSameHead m head) :
    ∃ uses, embeddings source.masked m = .ok uses ∧ uses.Sublist (typeUses type)
      ∧ (typeUses type = uses ↔ HasPlainBody source.masked head) := by
  obtain ⟨body, stop, hbody, hname, -, hproperties⟩ := goType_eq_ok htype
  rw [hkind, if_pos (by rfl)] at hproperties
  obtain ⟨hsub, hiff⟩ := referredIn_sublist body
  have huse : typeUses type
      = (embeddedNames (goProperties body)).map (embeddingUse (String.ofList (m.group 1))) := by
    rw [typeUses, hproperties, hname, hsame.name]
  have hplain : (∀ line ∈ lines body, IsPlainLine line) ↔ HasPlainBody source.masked head := by
    refine ⟨fun h body' stop' hbody' => ?_, fun h => h body stop hbody⟩
    obtain rfl := (Prod.mk.inj (Except.ok.inj (hbody.symm.trans hbody'))).1
    exact h
  refine ⟨_, embeddings_eq_ok (by rw [hsame.stop]; exact hbody), ?_⟩
  rw [huse, map_embeddingUse_inj, hiff, hplain]
  exact ⟨hsub.map _, Iff.rfl⟩

/-- A type of another kind has no properties. -/
theorem typeUses_eq_nil {source : SourceText} {head : Match} {type : TypeDecl}
    (htype : goType source head = .ok type)
    (hkind : (head.group 2 == "struct".toList) = false) : typeUses type = [] := by
  obtain ⟨body, stop, -, -, -, hproperties⟩ := goType_eq_ok htype
  rw [hkind, if_neg Bool.false_ne_true] at hproperties
  rw [typeUses, hproperties]
  rfl

/-- The heads of structs among all heads, one after another. -/
theorem uses_of_heads {source : SourceText} {heads : List Match} :
    ∀ {structs : List Match} {types : List TypeDecl},
      List.Forall₂ IsSameHead structs (heads.filter fun m => m.group 2 == "struct".toList) →
      heads.mapM (goType source) = .ok types →
      ∃ uses, structs.mapM (embeddings source.masked) = .ok uses
        ∧ uses.flatten.Sublist (types.flatMap typeUses)
        ∧ (types.flatMap typeUses = uses.flatten
          ↔ ∀ head ∈ heads, head.group 2 = "struct".toList → HasPlainBody source.masked head) := by
  induction heads with
  | nil =>
      intro structs types hstructs htypes
      obtain rfl := Except.ok.inj htypes
      cases hstructs
      exact ⟨[], rfl, List.Sublist.refl _, iff_of_true rfl fun _ h => nomatch h⟩
  | cons head heads ih =>
      intro structs types hstructs htypes
      rw [List.mapM_cons] at htypes
      obtain ⟨type, htype, htypes⟩ := except_bind_eq_ok htypes
      obtain ⟨types, hrest, htypes⟩ := except_bind_eq_ok htypes
      obtain rfl := Except.ok.inj htypes
      by_cases hkind : head.group 2 = "struct".toList
      · rw [List.filter_cons_of_pos (by rw [hkind]; rfl)] at hstructs
        obtain ⟨m, structs, hsame, hothers, rfl⟩ := List.forall₂_cons_right_iff.mp hstructs
        obtain ⟨first, hfirst, hsub, hiff⟩ := uses_of_struct htype hkind hsame
        obtain ⟨uses, huses, hsub', hiff'⟩ := ih hothers hrest
        refine ⟨first :: uses, by rw [List.mapM_cons, hfirst, huses]; rfl, ?_⟩
        rw [List.flatMap_cons, List.flatten_cons, append_eq_append_of_sublist hsub hsub', hiff, hiff',
          List.forall_mem_cons]
        exact ⟨hsub.append hsub', and_congr_left' ⟨fun h _ => h, fun h => h hkind⟩⟩
      · have hskip : (head.group 2 == "struct".toList) = false := beq_eq_false_iff_ne.mpr hkind
        rw [List.filter_cons_of_neg (by rw [hskip]; exact Bool.false_ne_true)] at hstructs
        obtain ⟨uses, huses, hsub, hiff⟩ := ih hstructs hrest
        refine ⟨uses, huses, ?_⟩
        rw [List.flatMap_cons, typeUses_eq_nil htype hskip, List.nil_append, hiff,
          List.forall_mem_cons]
        exact ⟨hsub, ⟨fun h => ⟨fun hhead => absurd hhead hkind, h⟩, And.right⟩⟩

theorem flatMap_attachMethods (functions : List GoFunction) (seen : List String)
    (types : List TypeDecl) :
    (attachMethods functions seen types).flatMap typeUses = types.flatMap typeUses := by
  induction types generalizing seen with
  | nil => rfl
  | cons type types ih => exact congrArg (typeUses type ++ ·) (ih _)

/-- The references of a source are among those that its types' marked properties stand for. -/
theorem exists_uses (source : SourceText) (hlines : source.HasLines) :
    ∃ types uses, goTypes source = .ok types ∧ symbolUses .go source.masked = .ok uses
      ∧ uses.Sublist (types.flatMap typeUses)
      ∧ (types.flatMap typeUses = uses ↔ HasPlainStructs source.masked) := by
  obtain ⟨types, htypes⟩ := neverFails_iff.mp (goTypes_neverFails hlines)
  obtain ⟨found, hfound, hrest⟩ := except_bind_eq_ok htypes
  obtain ⟨functions, -, hrest⟩ := except_bind_eq_ok hrest
  obtain rfl := Except.ok.inj hrest
  obtain ⟨uses, huses, hsub, hiff⟩ :=
    uses_of_heads (selects_structHead.findAll keepsApart_structHead source.masked) hfound
  refine ⟨_, uses.flatten, htypes, ?_, ?_, ?_⟩
  · rw [symbolUses, huses]
    rfl
  · rwa [flatMap_attachMethods]
  · rwa [flatMap_attachMethods]

end Declaration

namespace Link

/-- The edges that the marked properties of types stand for, one for each whose name is declared. -/
def embeddingEdges (table : FileTable) (file : String) (types : List TypeDecl) : List Edge :=
  types.flatMap fun type => (embeddedNames type.properties).filterMap fun name =>
    (declaringFile? table name).map fun target =>
      ⟨file, target, .references, "Struct embedding: " ++ type.name ++ " embeds " ++ name⟩

theorem filterMap_typeUses (table : FileTable) (file : String) (types : List TypeDecl) :
    (types.flatMap typeUses).filterMap ((Extractor.ofTable table).symbolEdge? file)
      = embeddingEdges table file types := by
  rw [List.filterMap_flatMap, embeddingEdges]
  refine List.flatMap_congr fun type _ => ?_
  rw [typeUses, List.filterMap_map]
  refine List.filterMap_congr fun name _ => ?_
  show (SymbolIndex.find? (SymbolIndex.ofTable table) (String.ofList name.toList)).map _ = _
  rw [String.ofList_toList, SymbolIndex.find?_ofTable]
  refine congrArg (fun f => Option.map f _) (funext fun target => ?_)
  show Edge.mk _ _ _ (String.ofList (String.toList _)) = _
  rw [String.ofList_toList]
  rfl

/-- All references of a Go source are embeddings. -/
theorem kind_of_mem_typeUses {use : SymbolUse} {types : List TypeDecl}
    (h : use ∈ types.flatMap typeUses) : use.kind = .references := by
  obtain ⟨type, -, h⟩ := List.mem_flatMap.mp h
  obtain ⟨name, -, rfl⟩ := List.mem_map.mp h
  rfl

/-- **Embedded types are read twice.** For each body of a struct, the marked properties are in their
order what the references name if and only if each line of the body is plain. In each file the
references lead along some of the edges that the marked properties of its types stand for; along all
of them, in their order, if each line of each struct is plain. -/
theorem references_are_embeddings {tree : Tree} {workingDirectory : Path} {table : FileTable}
    {x : Extractor} (hx : x.IsFor tree workingDirectory table) {file : String}
    (hfile : (Path.ofString file).hasNul = false) (text : List Char) :
    (∀ body : List Char, embeddedNames (goProperties body) = referredIn body
        ↔ ∀ line ∈ lines body, IsPlainLine line)
      ∧ ∃ types scan y, goTypes (.ofText Language.go.rawQuote text) = .ok types
        ∧ x.extract tree workingDirectory file text .go = .ok (scan, y)
        ∧ (scan.edges.filter (·.kind == .references)).Sublist (embeddingEdges table file types)
        ∧ (HasPlainStructs (maskComments Language.go.rawQuote text) →
          scan.edges.filter (·.kind == .references) = embeddingEdges table file types) := by
  refine ⟨fun body => (referredIn_sublist body).2, ?_⟩
  obtain ⟨types, uses, htypes, huses, hsub, hiff⟩ :=
    exists_uses (.ofText Language.go.rawQuote text) (hasLines_ofText Language.go.rawQuote text)
  obtain ⟨scan, y, hscan, hedges⟩ := Extractor.edges_of_symbolUses hx hfile huses
  have hall : uses.filter (·.kind == .references) = uses :=
    List.filter_eq_self.mpr fun use huse => by rw [kind_of_mem_typeUses (hsub.mem huse)]; rfl
  refine ⟨types, scan, y, htypes, hscan, ?_, fun hplain => ?_⟩
  · rw [hedges .references (by decide), hall, ← filterMap_typeUses]
    exact hsub.filterMap _
  · rw [hedges .references (by decide), hall, ← filterMap_typeUses, hiff.mpr hplain]

/-! ## Structs that embed a list -/

/-- A table that declares a list. -/
def declaredLists : FileTable :=
  [⟨"/w/list.go", .go, [], [⟨"List", "Struct: List", 1, [], [], []⟩], [], none⟩]

/-- A struct with two fields and an embedded pointer. -/
def listBox : List Char :=
  "package p\n\ntype Box struct \x7b\n\tWide, high int\n\t*List `json:\"list\"`\n\x7d\n".toList

theorem box_embeds_list :
    (Path.ofString "/w/box.go").hasNul = false
      ∧ HasPlainStructs (maskComments Language.go.rawQuote listBox)
      ∧ ∃ types scan y, goTypes (.ofText Language.go.rawQuote listBox) = .ok types
        ∧ (Extractor.ofTable declaredLists).extract (.dir []) ⟨1, ["w"]⟩ "/w/box.go" listBox .go
          = .ok (scan, y)
        ∧ scan.edges.filter (·.kind == .references) = embeddingEdges declaredLists "/w/box.go" types
        ∧ embeddingEdges declaredLists "/w/box.go" types
          = [⟨"/w/box.go", "/w/list.go", .references, "Struct embedding: Box embeds List"⟩] := by
  have hfile : (Path.ofString "/w/box.go").hasNul = false := by decide
  have hplain : HasPlainStructs (maskComments Language.go.rawQuote listBox) := by
    have hbodies : ∀ m ∈ goTypeHead.findAll (maskComments Language.go.rawQuote listBox),
        (group (maskComments Language.go.rawQuote listBox) (m.stop - 1)).toOption.map
            (fun found => lines found.1)
          = some ["".toList, "\tWide, high int".toList, "\t*List `json:\"list\"`".toList] := by
      decide +kernel
    intro head hhead _ body stop hbody
    have hlines := hbodies head hhead
    rw [hbody] at hlines
    rw [show lines body = _ from Option.some.inj hlines, List.forall_mem_cons,
      List.forall_mem_cons, List.forall_mem_singleton]
    refine ⟨Or.inl (by decide), Or.inr (Or.inr (Or.inl ⟨?_, by decide⟩)),
      Or.inr (Or.inr (Or.inr ?_))⟩
    · rw [show declaration "\tWide, high int".toList = "Wide, high int".toList by decide +kernel]
      exact (isSome_fieldLine (by decide)).mp (by decide +kernel)
    · rw [show declaration "\t*List `json:\"list\"`".toList = "*List".toList by decide +kernel]
      exact isSome_loneType.mp (by decide +kernel)
  obtain ⟨-, types, scan, y, htypes, hscan, -, hedges⟩ :=
    references_are_embeddings (Extractor.isFor_ofTable declaredLists) hfile listBox
  have hembeddings : (goTypes (.ofText Language.go.rawQuote listBox)).toOption.map
      (embeddingEdges declaredLists "/w/box.go")
        = some [⟨"/w/box.go", "/w/list.go", .references, "Struct embedding: Box embeds List"⟩] := by
    decide +kernel
  rw [htypes] at hembeddings
  exact ⟨hfile, hplain, types, scan, y, htypes, hscan, hedges hplain, Option.some.inj hembeddings⟩

/-- A struct that embeds a pointer whose tag is a string between quotes. -/
def quotedTag : List Char :=
  "package p\n\ntype Box struct \x7b\n\t*List \"kept\"\n\x7d\n".toList

/-- Types with arguments and pointers with other tags are marked, and no reference names them. -/
theorem marked_types_without_references :
    embeddedNames (goProperties "\n\tMap[int]\n\t*List \"kept\"\n".toList) = ["Map[int]", "List"]
      ∧ referredIn "\n\tMap[int]\n\t*List \"kept\"\n".toList = []
      ∧ (goTypes (.ofText Language.go.rawQuote quotedTag)).toOption.map
          (embeddingEdges declaredLists "/w/box.go")
        = some [⟨"/w/box.go", "/w/list.go", .references, "Struct embedding: Box embeds List"⟩]
      ∧ ((Extractor.ofTable declaredLists).extract (.dir []) ⟨1, ["w"]⟩ "/w/box.go" quotedTag
          .go).toOption.map (fun found => found.1.edges) = some [] := by
  refine ⟨?_, ?_, ?_, ?_⟩ <;> decide +kernel

end Link

end ServiceMap
