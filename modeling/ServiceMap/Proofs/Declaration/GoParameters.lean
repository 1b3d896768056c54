import Mathlib.Data.List.TakeWhile
import ServiceMap.Declaration.GoFunction
import ServiceMap.Proofs.Source.Stretches

/-!
# Parameters of Go functions

Parameters come in groups: names, and one type for all of them. Inside its brackets a type may hold
commas, so the groups of a list are told apart by the brackets that are open. The arrow of a directed
channel counts among these as a bracket that nothing closes. From the first such arrow on, the rest of
a list is one type.
-/

namespace ServiceMap.Declaration

open ServiceMap.Text ServiceMap.Source

/-! ## Types in print -/

/-- The parts of a type in print. -/
inductive GoPhrase where
  /-- A type, without blanks at its ends. -/
  | type
  /-- A type that may have blanks at its ends. -/
  | padded
  /-- Parameters in parentheses, and results or none. -/
  | signature
  /-- Types after commas, with names in front of them or without. -/
  | list
  /-- A field of a structure, a method of an interface, or an embedded type. -/
  | member
  /-- Members after semicolons. -/
  | members

/-- A non-empty name, which may be qualified. -/
structure IsTypeName (s : List Char) : Prop where
  nonempty : s ≠ []
  ofWords : ∀ c ∈ s, isDottedWord c = true

/-- The texts of each kind. -/
inductive IsGo : GoPhrase → List Char → Prop where
  | name {name : List Char} (ofName : IsTypeName name) : IsGo .type name
  | generic {name gap arguments : List Char} (ofName : IsTypeName name) (ofGap : IsGap gap)
      (ofList : IsGo .list arguments) : IsGo .type (name ++ gap ++ '[' :: (arguments ++ [']']))
  | pointer {gap t : List Char} (ofGap : IsGap gap) (ofType : IsGo .type t) :
      IsGo .type ('*' :: (gap ++ t))
  | parentheses {inner : List Char} (ofType : IsGo .padded inner) :
      IsGo .type ('(' :: (inner ++ [')']))
  | slice {length gap t : List Char} (ofLength : IsLabel length) (ofGap : IsGap gap)
      (ofType : IsGo .type t) : IsGo .type ('[' :: (length ++ [']']) ++ gap ++ t)
  | map {gap key space t : List Char} (ofGap : IsGap gap) (ofKey : IsGo .padded key)
      (ofSpace : IsGap space) (ofType : IsGo .type t) :
      IsGo .type ("map".toList ++ gap ++ '[' :: (key ++ [']']) ++ space ++ t)
  | function {gap s : List Char} (ofGap : IsGap gap) (ofSignature : IsGo .signature s) :
      IsGo .type ("func".toList ++ gap ++ s)
  | channel {gap t : List Char} (ofGap : IsGap gap) (ofType : IsGo .type t) :
      IsGo .type ("chan".toList ++ gap ++ t)
  | receiveOnly {gap space t : List Char} (ofGap : IsGap gap) (ofSpace : IsGap space)
      (ofType : IsGo .type t) : IsGo .type ("<-".toList ++ gap ++ "chan".toList ++ space ++ t)
  | sendOnly {gap space t : List Char} (ofGap : IsGap gap) (ofSpace : IsGap space)
      (ofType : IsGo .type t) : IsGo .type ("chan".toList ++ gap ++ "<-".toList ++ space ++ t)
  | struct {gap inner : List Char} (ofGap : IsGap gap) (ofMembers : IsGo .members inner) :
      IsGo .type ("struct".toList ++ gap ++ '\x7b' :: (inner ++ ['\x7d']))
  | interface {gap inner : List Char} (ofGap : IsGap gap) (ofMembers : IsGo .members inner) :
      IsGo .type ("interface".toList ++ gap ++ '\x7b' :: (inner ++ ['\x7d']))
  | padded {front t back : List Char} (ofFront : IsGap front) (ofType : IsGo .type t)
      (ofBack : IsGap back) : IsGo .padded (front ++ t ++ back)
  | noResult {list : List Char} (ofList : IsGo .list list) :
      IsGo .signature ('(' :: (list ++ [')']))
  | result {list gap t : List Char} (ofList : IsGo .list list) (ofGap : IsGap gap)
      (ofType : IsGo .type t) : IsGo .signature ('(' :: (list ++ [')']) ++ gap ++ t)
  | results {list gap types : List Char} (ofList : IsGo .list list) (ofGap : IsGap gap)
      (ofTypes : IsGo .list types) :
      IsGo .signature ('(' :: (list ++ [')']) ++ gap ++ '(' :: (types ++ [')']))
  | noTypes {gap : List Char} (ofGap : IsGap gap) : IsGo .list gap
  | lastType {label t : List Char} (ofLabel : IsLabel label) (ofType : IsGo .padded t) :
      IsGo .list (label ++ t)
  | moreTypes {label t rest : List Char} (ofLabel : IsLabel label) (ofType : IsGo .padded t)
      (ofRest : IsGo .list rest) : IsGo .list (label ++ t ++ [','] ++ rest)
  | field {label t : List Char} (ofLabel : IsLabel label) (ofType : IsGo .padded t) :
      IsGo .member (label ++ t)
  | fields {label rest : List Char} (ofLabel : IsLabel label) (ofRest : IsGo .member rest) :
      IsGo .member (label ++ [','] ++ rest)
  | method {label s gap : List Char} (ofLabel : IsLabel label) (ofSignature : IsGo .signature s)
      (ofGap : IsGap gap) : IsGo .member (label ++ s ++ gap)
  | noMembers {gap : List Char} (ofGap : IsGap gap) : IsGo .members gap
  | lastMember {m : List Char} (ofMember : IsGo .member m) : IsGo .members m
  | moreMembers {m rest : List Char} (ofMember : IsGo .member m) (ofRest : IsGo .members rest) :
      IsGo .members (m ++ [';'] ++ rest)

/-! ## Parameters in print -/

/-- Parameters with one type. -/
structure ParameterGroup where
  others : List (List Char)
  last : List Char
  type : List Char

namespace ParameterGroup

/-- The names of a group, in their order. -/
def names (g : ParameterGroup) : List (List Char) :=
  g.others ++ [g.last]

/-- The parts of a list that a group is written as: the type stands after the last name. -/
def parts (g : ParameterGroup) : List (List Char) :=
  g.others ++ [g.last ++ ' ' :: g.type]

/-- One parameter for each name, with the type of the group. -/
def parameters (g : ParameterGroup) : List Parameter :=
  g.names.map fun name =>
    ⟨String.ofList name, String.ofList g.type, "body", true, "Parameter: " ++ String.ofList name⟩

/-- A group whose names are words and whose type has no blanks at its ends. -/
structure IsReadable (g : ParameterGroup) : Prop where
  named : ∀ name ∈ g.names, name ≠ [] ∧ ∀ c ∈ name, isWord c = true
  trimmed : IsTrimmed g.type

end ParameterGroup

/-- Parameters with one type of the language. -/
structure GoGroup extends ParameterGroup where
  named : ∀ name ∈ toParameterGroup.names, name ≠ [] ∧ ∀ c ∈ name, isWord c = true
  ofType : IsGo .type type

/-- A list of parameters as it is written down. -/
def printGroups (groups : List ParameterGroup) : List Char :=
  printList (groups.flatMap ParameterGroup.parts)

/-- The groups that a list is read as: the first type with an arrow takes in what follows. -/
def merged : List ParameterGroup → List ParameterGroup
  | [] => []
  | [g] => [g]
  | g :: next :: rest =>
    if '<' ∈ g.type then [{ g with type := g.type ++ ([',', ' '] ++ printGroups (next :: rest)) }]
    else g :: merged (next :: rest)

/-! ## What arrows leave open -/

/-- A text that stays whole inside `low` brackets and leaves none open, unless it has arrows. -/
def IsKept (low : Nat) (s : List Char) : Prop :=
  ∃ more, StaysWhole ',' low more s ∧ (more = 0 ↔ '<' ∉ s)

section Kept

variable {low : Nat} {s t : List Char}

theorem IsKept.append (hs : IsKept low s) (ht : IsKept low t) : IsKept low (s ++ t) := by
  obtain ⟨more, hwhole, harrow⟩ := hs
  obtain ⟨more', hwhole', harrow'⟩ := ht
  refine ⟨more + more', hwhole.append hwhole' (Nat.le_add_right low more), ?_⟩
  rw [Nat.add_eq_zero_iff, harrow, harrow', List.mem_append, not_or]

theorem IsKept.inside (h : IsKept 0 s) : IsKept 1 s :=
  let ⟨more, hwhole, harrow⟩ := h
  ⟨more, hwhole.mono (Nat.zero_le 1), harrow⟩

theorem IsKept.group (b : Bracket) (hb : b ≠ .angle) (h : IsKept 1 s) :
    IsKept 0 (b.opener :: (s ++ [b.closer])) := by
  obtain ⟨more, hwhole, harrow⟩ := h
  have hopener : '<' ≠ b.opener := by revert hb; cases b <;> decide
  have hcloser : '<' ≠ b.closer := by cases b <;> decide
  refine ⟨more, hwhole.group b, ?_⟩
  rw [harrow, List.mem_cons, List.mem_append, List.mem_singleton, not_or, not_or]
  exact ⟨fun hs => ⟨hopener, hs, hcloser⟩, fun hs => hs.2.1⟩

theorem isKept_plain (h : ∀ c ∈ s, isQuote c = false ∧ isOpener c = false ∧ isCloser c = false
    ∧ c ≠ ',') : IsKept 0 s :=
  ⟨0, staysWhole_plain h, iff_of_true rfl fun harrow =>
    Bool.false_ne_true ((h '<' harrow).2.1.symm.trans (Bracket.isOpener_opener .angle))⟩

theorem isKept_comma : IsKept 1 [','] :=
  ⟨0, staysWhole_separator (by decide) (by decide) (by decide), by decide⟩

theorem isKept_space : IsKept 0 [' '] :=
  isKept_plain (forall_mem_of_all (by decide))

theorem isKept_separator : IsKept 1 [',', ' '] :=
  isKept_comma.append isKept_space.inside

/-- An arrow leaves a bracket open. -/
theorem isKept_arrow : IsKept 0 "<-".toList := by
  refine ⟨1, fun depth t _ => ?_, by decide⟩
  have hdash : StaysWhole ',' 0 0 ['-'] := staysWhole_plain (forall_mem_of_all (by decide))
  show pieces ',' depth (Bracket.angle.opener :: (['-'] ++ t)) = _
  rw [pieces_opener, hdash _ _ (Nat.zero_le _), prepend_prepend]
  rfl

end Kept

section Labels

variable {s : List Char}

theorem isKept_label (h : IsLabel s) : IsKept 0 s :=
  isKept_plain fun _ hc =>
    let ⟨hquote, hrest⟩ := plain_of_label h hc
    ⟨isQuote_of_not_isAnyQuote hquote, hrest⟩

theorem isKept_gap (h : IsGap s) : IsKept 0 s :=
  isKept_label h.isLabel

theorem IsKept.across {gap t : List Char} (hs : IsKept 0 s) (hgap : IsGap gap) (ht : IsKept 0 t) :
    IsKept 0 (s ++ gap ++ t) :=
  (hs.append (isKept_gap hgap)).append ht

theorem IsTypeName.isKept (h : IsTypeName s) : IsKept 0 s :=
  isKept_label fun c hc => Or.inl (h.ofWords c hc)

theorem IsTypeName.isTrimmed (h : IsTypeName s) : IsTrimmed s where
  nonempty := h.nonempty
  head := fun c hc => isBlank_of_isDottedWord (h.ofWords c (List.mem_of_head? hc))
  last := fun c hc => isBlank_of_isDottedWord (h.ofWords c (List.mem_of_getLast? hc))

end Labels

/-- The number of brackets around a phrase from which on it stays whole: a list has commas of its
own. -/
def GoPhrase.low : GoPhrase → Nat
  | type | padded | signature => 0
  | list | member | members => 1

theorem IsGo.isKept {phrase : GoPhrase} {s : List Char} (h : IsGo phrase s) :
    IsKept phrase.low s := by
  have hmap : IsKept 0 "map".toList := isKept_plain (forall_mem_of_all (by decide))
  have hfunc : IsKept 0 "func".toList := isKept_plain (forall_mem_of_all (by decide))
  have hchan : IsKept 0 "chan".toList := isKept_plain (forall_mem_of_all (by decide))
  have hstruct : IsKept 0 "struct".toList := isKept_plain (forall_mem_of_all (by decide))
  have hinterface : IsKept 0 "interface".toList := isKept_plain (forall_mem_of_all (by decide))
  have hround : ∀ {s}, IsKept 1 s → IsKept 0 ('(' :: (s ++ [')'])) := IsKept.group .round (by decide)
  have hsquare : ∀ {s}, IsKept 1 s → IsKept 0 ('[' :: (s ++ [']'])) :=
    IsKept.group .square (by decide)
  have hcurly : ∀ {s}, IsKept 1 s → IsKept 0 ('\x7b' :: (s ++ ['\x7d'])) :=
    IsKept.group .curly (by decide)
  induction h with
  | name ofName => exact ofName.isKept
  | generic ofName ofGap _ ih => exact ofName.isKept.across ofGap (hsquare ih)
  | pointer ofGap _ ih =>
      have hstar : IsKept 0 ['*'] := isKept_plain (forall_mem_of_all (by decide))
      exact hstar.across ofGap ih
  | parentheses _ ih => exact hround ih.inside
  | slice ofLength ofGap _ ih => exact (hsquare (isKept_label ofLength).inside).across ofGap ih
  | map ofGap _ ofSpace _ ihkey ih =>
      exact (hmap.across ofGap (hsquare ihkey.inside)).across ofSpace ih
  | function ofGap _ ih => exact hfunc.across ofGap ih
  | channel ofGap _ ih => exact hchan.across ofGap ih
  | receiveOnly ofGap ofSpace _ ih => exact (isKept_arrow.across ofGap hchan).across ofSpace ih
  | sendOnly ofGap ofSpace _ ih => exact (hchan.across ofGap isKept_arrow).across ofSpace ih
  | struct ofGap _ ih => exact hstruct.across ofGap (hcurly ih)
  | interface ofGap _ ih => exact hinterface.across ofGap (hcurly ih)
  | padded ofFront _ ofBack ih => exact ((isKept_gap ofFront).append ih).append (isKept_gap ofBack)
  | noResult _ ih => exact hround ih
  | result _ ofGap _ ihlist ih => exact (hround ihlist).across ofGap ih
  | results _ ofGap _ ihlist ih => exact (hround ihlist).across ofGap (hround ih)
  | noTypes ofGap => exact (isKept_gap ofGap).inside
  | lastType ofLabel _ ih => exact ((isKept_label ofLabel).append ih).inside
  | moreTypes ofLabel _ _ ih ihrest =>
      exact (((isKept_label ofLabel).append ih).inside.append isKept_comma).append ihrest
  | field ofLabel _ ih => exact ((isKept_label ofLabel).append ih).inside
  | fields ofLabel _ ih => exact ((isKept_label ofLabel).inside.append isKept_comma).append ih
  | method ofLabel _ ofGap ih => exact (((isKept_label ofLabel).append ih).append (isKept_gap ofGap)).inside
  | noMembers ofGap => exact (isKept_gap ofGap).inside
  | lastMember _ ih => exact ih
  | moreMembers _ _ ih ihrest =>
      have hsemicolon : IsKept 0 [';'] := isKept_plain (forall_mem_of_all (by decide))
      exact (ih.append hsemicolon.inside).append ihrest

/-! ## The ends of a type -/

/-- The phrases that neither start nor end with blanks. -/
def GoPhrase.IsTight : GoPhrase → Prop
  | type | signature => True
  | padded | list | member | members => False

theorem IsGo.isTrimmed_of_isTight {phrase : GoPhrase} {s : List Char} (h : IsGo phrase s) :
    phrase.IsTight → IsTrimmed s := by
  have henclosed : ∀ (b : Bracket) (s : List Char), IsTrimmed (b.opener :: (s ++ [b.closer])) :=
    fun b s => isTrimmed_enclosed s (by cases b <;> decide) (by cases b <;> decide)
  have hround : ∀ s, IsTrimmed ('(' :: (s ++ [')'])) := henclosed .round
  have hsquare : ∀ s, IsTrimmed ('[' :: (s ++ [']'])) := henclosed .square
  have hcurly : ∀ s, IsTrimmed ('\x7b' :: (s ++ ['\x7d'])) := henclosed .curly
  have harrow : IsTrimmed "<-".toList := isTrimmed_word ⟨by decide, forall_mem_of_all (by decide)⟩
  have hchan : IsTrimmed "chan".toList := isTrimmed_word ⟨by decide, forall_mem_of_all (by decide)⟩
  have hmap : IsTrimmed "map".toList := isTrimmed_word ⟨by decide, forall_mem_of_all (by decide)⟩
  have hfunc : IsTrimmed "func".toList := isTrimmed_word ⟨by decide, forall_mem_of_all (by decide)⟩
  have hstruct : IsTrimmed "struct".toList :=
    isTrimmed_word ⟨by decide, forall_mem_of_all (by decide)⟩
  have hinterface : IsTrimmed "interface".toList :=
    isTrimmed_word ⟨by decide, forall_mem_of_all (by decide)⟩
  induction h with
  | name ofName => exact fun _ => ofName.isTrimmed
  | generic ofName => exact fun _ => ofName.isTrimmed.around _ (hsquare _)
  | pointer _ _ ih =>
      have hstar : IsTrimmed ['*'] := isTrimmed_word ⟨by decide, forall_mem_of_all (by decide)⟩
      exact fun _ => hstar.around _ (ih trivial)
  | parentheses => exact fun _ => hround _
  | slice _ _ _ ih => exact fun _ => (hsquare _).around _ (ih trivial)
  | map _ _ _ _ _ ih => exact fun _ => (hmap.around _ (hsquare _)).around _ (ih trivial)
  | function _ _ ih => exact fun _ => hfunc.around _ (ih trivial)
  | channel _ _ ih => exact fun _ => hchan.around _ (ih trivial)
  | receiveOnly _ _ _ ih => exact fun _ => (harrow.around _ hchan).around _ (ih trivial)
  | sendOnly _ _ _ ih => exact fun _ => (hchan.around _ harrow).around _ (ih trivial)
  | struct => exact fun _ => hstruct.around _ (hcurly _)
  | interface => exact fun _ => hinterface.around _ (hcurly _)
  | noResult => exact fun _ => hround _
  | result _ _ _ _ ih => exact fun _ => (hround _).around _ (ih trivial)
  | results => exact fun _ => (hround _).around _ (hround _)
  | padded | noTypes | lastType | moreTypes | field | fields | method | noMembers | lastMember
  | moreMembers => exact False.elim

theorem GoGroup.isReadable (g : GoGroup) : g.IsReadable :=
  ⟨g.named, g.ofType.isTrimmed_of_isTight trivial⟩

/-! ## Parts of a list of groups -/

theorem isTrimmed_of_isWord {s : List Char} (h : s ≠ [] ∧ ∀ c ∈ s, isWord c = true) : IsTrimmed s :=
  isTrimmed_word ⟨h.1, fun c hc => isBlank_of_isWord (h.2 c hc)⟩

theorem isKept_of_isWord {s : List Char} (h : ∀ c ∈ s, isWord c = true) : IsKept 0 s :=
  isKept_label fun c hc => Or.inl (isDottedWord_of_isWord (h c hc))

/-- Without arrows, all brackets of a text are closed. -/
theorem IsKept.staysWhole {s : List Char} (h : IsKept 0 s) (harrow : '<' ∉ s) :
    StaysWhole ',' 0 0 s := by
  obtain ⟨more, hwhole, hmore⟩ := h
  rwa [hmore.mpr harrow] at hwhole

theorem arrow_notMem_of_isWord {s : List Char} (h : ∀ c ∈ s, isWord c = true) : '<' ∉ s :=
  fun harrow => absurd (h '<' harrow) (by decide)

namespace ParameterGroup

/-- A group that is one with its type in print. -/
structure IsPrintable (g : ParameterGroup) : Prop extends g.IsReadable where
  kept : IsKept 0 g.type

variable {g : ParameterGroup}

theorem parts_ne_nil (g : ParameterGroup) : g.parts ≠ [] :=
  List.append_ne_nil_of_right_ne_nil _ (List.cons_ne_nil _ _)

theorem flatMap_parts_ne_nil {groups : List ParameterGroup} (h : groups ≠ []) :
    groups.flatMap parts ≠ [] := by
  obtain ⟨g, groups, rfl⟩ := List.exists_cons_of_ne_nil h
  exact List.append_ne_nil_of_left_ne_nil g.parts_ne_nil _

namespace IsPrintable

variable (h : g.IsPrintable)
include h

theorem named_last : g.last ≠ [] ∧ ∀ c ∈ g.last, isWord c = true :=
  h.named g.last (List.mem_append_right _ (List.mem_singleton.mpr rfl))

theorem isKept_last : IsKept 0 (g.last ++ ' ' :: g.type) :=
  (isKept_of_isWord h.named_last.2).append (isKept_space.append h.kept)

theorem isTrimmed_last : IsTrimmed (g.last ++ ' ' :: g.type) := by
  have haround := (isTrimmed_of_isWord h.named_last).around [' '] h.trimmed
  rwa [List.append_assoc] at haround

theorem mem_last_iff : '<' ∈ g.last ++ ' ' :: g.type ↔ '<' ∈ g.type := by
  rw [List.mem_append, List.mem_cons]
  refine ⟨?_, fun harrow => Or.inr (Or.inr harrow)⟩
  rintro (hlast | hspace | htype)
  · exact absurd hlast (arrow_notMem_of_isWord h.named_last.2)
  · exact absurd hspace (by decide)
  · exact htype

theorem isKept_part {s : List Char} (hs : s ∈ g.parts) : IsKept 0 s ∧ IsTrimmed s := by
  rcases List.mem_append.mp hs with hs | hs
  · have hnamed := h.named s (List.mem_append_left _ hs)
    exact ⟨isKept_of_isWord hnamed.2, isTrimmed_of_isWord hnamed⟩
  · rw [List.mem_singleton.mp hs]
    exact ⟨h.isKept_last, h.isTrimmed_last⟩

theorem staysWhole_others {s : List Char} (hs : s ∈ g.others) :
    StaysWhole ',' 0 0 s ∧ IsTrimmed s := by
  obtain ⟨hne, hword⟩ := h.named s (List.mem_append_left _ hs)
  exact ⟨(isKept_of_isWord hword).staysWhole (arrow_notMem_of_isWord hword),
    isTrimmed_of_isWord ⟨hne, hword⟩⟩

end IsPrintable

end ParameterGroup

/-- Inside a bracket a list is whole, and it has no blanks at its ends. -/
theorem isKept_printList {list : List (List Char)} (hne : list ≠ [])
    (h : ∀ s ∈ list, IsKept 0 s ∧ IsTrimmed s) :
    IsKept 1 (printList list) ∧ IsTrimmed (printList list) := by
  induction list with
  | nil => exact absurd rfl hne
  | cons s list ih =>
      obtain ⟨hkept, htrimmed⟩ := h s List.mem_cons_self
      by_cases hlist : list = []
      · subst hlist
        exact ⟨hkept.inside, htrimmed⟩
      · obtain ⟨hrest, hrest'⟩ := ih hlist fun t ht => h t (List.mem_cons_of_mem s ht)
        rw [printList_cons s hlist]
        refine ⟨hkept.inside.append (isKept_separator.append hrest), ?_⟩
        rw [← List.append_assoc]
        exact htrimmed.around _ hrest'

/-- The parts of a printed list are those of the groups that it is read as. -/
theorem parts_printGroups {groups : List ParameterGroup} (h : ∀ g ∈ groups, g.IsPrintable) :
    ∀ {init : List (List Char)}, (∀ s ∈ init, StaysWhole ',' 0 0 s ∧ IsTrimmed s) →
      parts (printList (init ++ groups.flatMap ParameterGroup.parts))
        = init ++ (merged groups).flatMap ParameterGroup.parts := by
  induction groups using merged.induct with
  | case1 =>
      intro init hinit
      rw [List.flatMap_nil, List.append_nil, parts_printList hinit, merged, List.flatMap_nil,
        List.append_nil]
  | case2 g =>
      intro init hinit
      have hg := h g (List.mem_singleton.mpr rfl)
      obtain ⟨more, hwhole, -⟩ := hg.isKept_last
      rw [merged, List.flatMap_singleton, ParameterGroup.parts, ← List.append_assoc]
      refine parts_printList_append hwhole hg.isTrimmed_last fun s hs => ?_
      exact (List.mem_append.mp hs).elim (hinit s) hg.staysWhole_others
  | case3 g next rest harrow =>
      intro init hinit
      have hg := h g List.mem_cons_self
      have hne := ParameterGroup.flatMap_parts_ne_nil (List.cons_ne_nil next rest)
      obtain ⟨hrest, hends⟩ := isKept_printList hne fun s hs => by
        obtain ⟨other, hother, hs⟩ := List.mem_flatMap.mp hs
        exact (h other (List.mem_cons_of_mem g hother)).isKept_part hs
      -- the rest is inside the bracket that the arrow leaves open
      obtain ⟨more, hwhole, hmore⟩ := hg.isKept_last
      have hopen : more ≠ 0 := fun hzero => hmore.mp hzero (hg.mem_last_iff.mpr harrow)
      obtain ⟨more', hwhole', -⟩ := isKept_separator.append hrest
      have hlast := hwhole.append hwhole' (by omega)
      have hinit' : ∀ s ∈ init ++ g.others, StaysWhole ',' 0 0 s ∧ IsTrimmed s :=
        fun s hs => (List.mem_append.mp hs).elim (hinit s) hg.staysWhole_others
      have htrimmed := hg.isTrimmed_last.around [',', ' '] hends
      rw [List.append_assoc] at htrimmed
      rw [List.flatMap_cons, ParameterGroup.parts, List.append_assoc, ← List.append_assoc,
        List.singleton_append, printList_append_cons _ _ hne,
        parts_printList_append hlast htrimmed hinit', merged, if_pos harrow,
        List.flatMap_singleton, ParameterGroup.parts, List.append_assoc]
      simp [printGroups]
  | case4 g next rest harrow ih =>
      intro init hinit
      have hg := h g List.mem_cons_self
      have hparts : ∀ s ∈ init ++ g.parts, StaysWhole ',' 0 0 s ∧ IsTrimmed s := by
        intro s hs
        rw [ParameterGroup.parts, ← List.append_assoc] at hs
        rcases List.mem_append.mp hs with hs | hs
        · exact (List.mem_append.mp hs).elim (hinit s) hg.staysWhole_others
        · rw [List.mem_singleton.mp hs]
          exact ⟨hg.isKept_last.staysWhole (mt hg.mem_last_iff.mp harrow), hg.isTrimmed_last⟩
      rw [List.flatMap_cons, ← List.append_assoc,
        ih (fun other hother => h other (List.mem_cons_of_mem g hother)) hparts, merged,
        if_neg harrow, List.flatMap_cons, List.append_assoc]

theorem merged_isReadable {groups : List ParameterGroup} (h : ∀ g ∈ groups, g.IsPrintable) :
    ∀ g ∈ merged groups, g.IsReadable := by
  induction groups using merged.induct with
  | case1 => exact fun g hg => absurd hg List.not_mem_nil
  | case2 g => exact fun other hother => (h other hother).toIsReadable
  | case3 g next rest harrow =>
      intro other hother
      have hg := h g List.mem_cons_self
      obtain ⟨-, hends⟩ := isKept_printList (ParameterGroup.flatMap_parts_ne_nil
        (List.cons_ne_nil next rest)) fun s hs => by
          obtain ⟨member, hmember, hs⟩ := List.mem_flatMap.mp hs
          exact (h member (List.mem_cons_of_mem g hmember)).isKept_part hs
      have htrimmed := hg.trimmed.around [',', ' '] hends
      rw [List.append_assoc] at htrimmed
      rw [merged, if_pos harrow] at hother
      rw [List.mem_singleton.mp hother]
      exact ⟨hg.named, htrimmed⟩
  | case4 g next rest harrow ih =>
      intro other hother
      rw [merged, if_neg harrow] at hother
      rcases List.mem_cons.mp hother with rfl | hother
      · exact (h other List.mem_cons_self).toIsReadable
      · exact ih (fun member hmember => h member (List.mem_cons_of_mem g hmember)) other hother

/-! ## Reading the parts -/

theorem firstWord_of_word {name : List Char} (h : ∀ c ∈ name, isWord c = true) :
    firstWord name = (name, []) := by
  have htake : (name.takeWhile fun c => !isBlank c) = name :=
    List.takeWhile_eq_self_iff.mpr fun c hc => by rw [isBlank_of_isWord (h c hc)]; rfl
  rw [firstWord]
  simp only [htake, List.drop_length]
  rfl

theorem firstWord_of_typed {name type : List Char} (h : ∀ c ∈ name, isWord c = true)
    (htype : IsTrimmed type) : firstWord (name ++ ' ' :: type) = (name, type) := by
  have htake : ((name ++ ' ' :: type).takeWhile fun c => !isBlank c) = name := by
    rw [List.takeWhile_append_of_pos fun c hc => by rw [isBlank_of_isWord (h c hc)]; rfl,
      List.takeWhile_cons_of_neg (by decide), List.append_nil]
  rw [firstWord]
  simp only [htake, List.drop_left]
  rw [trimLeft, dropLeft, List.dropWhile_cons_of_pos (by decide), dropWhile_eq_self htype.head]

namespace ParameterGroup

/-- The names before the last one wait for the type. -/
theorem goParametersFrom_parts {type : List Char} (htype : IsTrimmed type) {last : List Char}
    (hlast : ∀ c ∈ last, isWord c = true) (rest : List (List Char)) {others : List (List Char)} :
    ∀ {waiting : List (List Char)}, (∀ name ∈ others, ∀ c ∈ name, isWord c = true) →
      goParametersFrom waiting (others ++ (last ++ ' ' :: type) :: rest)
        = (waiting ++ others ++ [last]).map (goParameter · type) ++ goParametersFrom [] rest := by
  induction others with
  | nil =>
      intro waiting _
      have hne : ¬type.isEmpty = true := by
        rw [List.isEmpty_iff]
        exact htype.nonempty
      rw [List.nil_append, List.append_nil, goParametersFrom, firstWord_of_typed hlast htype]
      exact if_neg hne
  | cons name others ih =>
      intro waiting h
      have hrest := @ih (waiting ++ [name])
        fun other hother => h other (List.mem_cons_of_mem name hother)
      rw [List.cons_append, goParametersFrom, firstWord_of_word (h name List.mem_cons_self)]
      show goParametersFrom (waiting ++ [name]) _ = _
      rw [hrest, List.append_assoc waiting, List.singleton_append]

theorem IsReadable.goParametersFrom_append {g : ParameterGroup} (h : g.IsReadable)
    (rest : List (List Char)) :
    goParametersFrom [] (g.parts ++ rest) = g.parameters ++ goParametersFrom [] rest := by
  have hlast := h.named g.last (List.mem_append_right _ (List.mem_singleton.mpr rfl))
  have hparameter : ∀ name ∈ g.names, goParameter name g.type
      = ⟨String.ofList name, String.ofList g.type, "body", true,
          "Parameter: " ++ String.ofList name⟩ := by
    intro name hname
    have hne : ¬name.isEmpty = true := by
      rw [List.isEmpty_iff]
      exact (h.named name hname).1
    rw [goParameter, h.trimmed.trim_eq]
    simp only [if_neg hne]
  rw [parts, List.append_assoc, List.singleton_append,
    goParametersFrom_parts h.trimmed hlast.2 rest
      fun name hname => (h.named name (List.mem_append_left _ hname)).2,
    List.nil_append, parameters]
  exact congrArg (· ++ _) (List.map_congr_left hparameter)

theorem goParametersFrom_flatMap_parts {groups : List ParameterGroup}
    (h : ∀ g ∈ groups, g.IsReadable) :
    goParametersFrom [] (groups.flatMap parts) = groups.flatMap parameters := by
  induction groups with
  | nil => rfl
  | cons g groups ih =>
      rw [List.flatMap_cons, (h g List.mem_cons_self).goParametersFrom_append,
        ih fun other hother => h other (List.mem_cons_of_mem g hother), List.flatMap_cons]

end ParameterGroup

/-! ## Which lists are read as they are written -/

theorem ParameterGroup.length_parameters (g : ParameterGroup) :
    g.parameters.length = g.others.length + 1 := by
  rw [parameters, List.length_map, names, List.length_append, List.length_singleton]

theorem merged_of_no_arrow {groups : List ParameterGroup}
    (h : ∀ g ∈ groups.dropLast, '<' ∉ g.type) : merged groups = groups := by
  induction groups using merged.induct with
  | case1 => rfl
  | case2 g => rfl
  | case3 g next rest harrow => exact absurd harrow (h g List.mem_cons_self)
  | case4 g next rest harrow ih =>
      rw [merged, if_neg harrow, ih fun other hother => h other (List.mem_cons_of_mem g hother)]

/-- The parameters of the groups that are taken into a type are missing. -/
theorem no_arrow_of_length {groups : List ParameterGroup}
    (h : ((merged groups).flatMap ParameterGroup.parameters).length
      = (groups.flatMap ParameterGroup.parameters).length) :
    ∀ g ∈ groups.dropLast, '<' ∉ g.type := by
  induction groups using merged.induct with
  | case1 => exact fun g hg => absurd hg List.not_mem_nil
  | case2 g => exact fun g hg => absurd hg List.not_mem_nil
  | case3 g next rest harrow =>
      rw [merged, if_pos harrow] at h
      simp only [List.flatMap_cons, List.flatMap_nil, List.length_append, List.length_nil,
        ParameterGroup.length_parameters] at h
      omega
  | case4 g next rest harrow ih =>
      intro other hother
      rw [merged, if_neg harrow, List.flatMap_cons, List.flatMap_cons, List.length_append,
        List.length_append] at h
      rcases List.mem_cons.mp hother with rfl | hother
      · exact harrow
      · exact ih (Nat.add_left_cancel h) other hother

theorem GoGroup.isPrintable (g : GoGroup) : g.IsPrintable :=
  ⟨g.isReadable, g.ofType.isKept⟩

/-- **Parameters are read name by name, except behind the arrow of a channel.** In a list of groups of
names with one type for each, a type with an arrow takes in the groups after it. So each name is a
parameter with the type of its group exactly if only the last group has a type with an arrow. -/
theorem goParameters_printGroups (groups : List GoGroup) :
    let list := groups.map GoGroup.toParameterGroup
    goParameters (printGroups list) = (merged list).flatMap ParameterGroup.parameters
      ∧ (goParameters (printGroups list) = list.flatMap ParameterGroup.parameters
        ↔ ∀ g ∈ list.dropLast, '<' ∉ g.type) := by
  intro list
  have hprintable : ∀ g ∈ list, g.IsPrintable := by
    intro g hg
    obtain ⟨group, -, rfl⟩ := List.mem_map.mp hg
    exact group.isPrintable
  have hread : goParameters (printGroups list)
      = (merged list).flatMap ParameterGroup.parameters := by
    have hparts := @parts_printGroups _ hprintable [] fun s hs => absurd hs List.not_mem_nil
    rw [List.nil_append, List.nil_append] at hparts
    rw [goParameters, printGroups, hparts,
      ParameterGroup.goParametersFrom_flatMap_parts (merged_isReadable hprintable)]
  refine ⟨hread, ?_⟩
  rw [hread]
  constructor
  · exact fun h => no_arrow_of_length (congrArg List.length h)
  · exact fun h => by rw [merged_of_no_arrow h]

/-- A channel to receive from, and a number. -/
def drainGroups : List GoGroup := [
  { others := []
    last := "in".toList
    type := "<-chan int".toList
    named := List.forall_mem_singleton.mpr ⟨by decide, forall_mem_of_all (by decide)⟩
    ofType := @IsGo.receiveOnly [] " ".toList "int".toList (by decide) (by decide)
      (.name ⟨by decide, forall_mem_of_all (by decide)⟩) },
  { others := []
    last := "n".toList
    type := "int".toList
    named := List.forall_mem_singleton.mpr ⟨by decide, forall_mem_of_all (by decide)⟩
    ofType := .name ⟨by decide, forall_mem_of_all (by decide)⟩ }]

/-- The comma behind an arrow does not separate. -/
theorem arrow_takes_in_the_next_parameter :
    printGroups (drainGroups.map GoGroup.toParameterGroup) = "in <-chan int, n int".toList
      ∧ goParameters "in <-chan int, n int".toList
        ≠ [⟨"in", "<-chan int", "body", true, "Parameter: in"⟩,
          ⟨"n", "int", "body", true, "Parameter: n"⟩] := by
  decide +kernel

end ServiceMap.Declaration
