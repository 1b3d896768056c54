import Mathlib.Data.List.Flatten
import ServiceMap.Proofs.Declaration.FieldTags
import ServiceMap.Proofs.Declaration.GoParameters
import ServiceMap.Proofs.Link.Headers
import ServiceMap.Proofs.Pattern.FirstWay

/-!
# Lines of structs

A line of a struct's body names fields and their type, or it names a type alone. Without its tags and
the blanks at its ends it is a declaration. One pattern describes declarations of fields: names with
commas between them, blanks, and a type; another one describes a type alone: a name that may be
qualified, and a mark if it is a pointer.
-/

namespace ServiceMap

namespace Text

/-! ## Lines of a text -/

theorem lines_cons {c : Char} (hc : isLineBreak c = false) (s : List Char) :
    lines (c :: s) = match lines s with
      | [] => [[c]]
      | line :: rest => (c :: line) :: rest := by
  rw [lines]
  · exact if_neg (by simp [hc])
  · rintro s rfl
    exact absurd hc (by decide)

/-- The first line ends where the first break is. -/
theorem lines_append_newline {line : List Char} (hline : ∀ c ∈ line, isLineBreak c = false)
    (s : List Char) : lines (line ++ '\n' :: s) = line :: lines s := by
  induction line with
  | nil =>
      rw [List.nil_append, lines]
      · rfl
      · exact fun _ h => absurd h (by decide)
  | cons c line ih =>
      rw [List.cons_append, lines_cons (hline c List.mem_cons_self),
        ih fun d hd => hline d (List.mem_cons_of_mem c hd)]

/-- There is no break within a line. -/
theorem isLineBreak_of_mem_lines {s line : List Char} (h : line ∈ lines s) :
    ∀ c ∈ line, isLineBreak c = false := by
  fun_induction lines s generalizing line with
  | case1 => exact absurd h List.not_mem_nil
  | case2 s ih =>
      rcases List.mem_cons.mp h with rfl | h
      · exact fun c hc => absurd hc List.not_mem_nil
      · exact ih h
  | case3 c s _ hc ih =>
      rcases List.mem_cons.mp h with rfl | h
      · exact fun c hc => absurd hc List.not_mem_nil
      · exact ih h
  | case4 c s _ hc hnil ih =>
      rw [List.mem_singleton.mp h]
      exact fun d hd => List.mem_singleton.mp hd ▸ Bool.eq_false_iff.mpr hc
  | case5 c s _ hc first rest hlines ih =>
      rw [hlines] at ih
      rcases List.mem_cons.mp h with rfl | h
      · intro d hd
        rcases List.mem_cons.mp hd with rfl | hd
        · exact Bool.eq_false_iff.mpr hc
        · exact ih List.mem_cons_self d hd
      · exact ih (List.mem_cons_of_mem first h)

theorem mem_of_mem_lines {s line : List Char} (h : line ∈ lines s) {c : Char} (hc : c ∈ line) :
    c ∈ s := by
  fun_induction lines s generalizing line with
  | case1 => exact absurd h List.not_mem_nil
  | case2 s ih =>
      rcases List.mem_cons.mp h with rfl | h
      · exact absurd hc List.not_mem_nil
      · exact List.mem_cons_of_mem _ (List.mem_cons_of_mem _ (ih h hc))
  | case3 d s _ hd ih =>
      rcases List.mem_cons.mp h with rfl | h
      · exact absurd hc List.not_mem_nil
      · exact List.mem_cons_of_mem d (ih h hc)
  | case4 d s _ hd hnil ih =>
      rw [List.mem_singleton.mp h] at hc
      exact List.mem_singleton.mp hc ▸ List.mem_cons_self
  | case5 d s _ hd first rest hlines ih =>
      rw [hlines] at ih
      rcases List.mem_cons.mp h with rfl | h
      · rcases List.mem_cons.mp hc with rfl | hc
        · exact List.mem_cons_self
        · exact List.mem_cons_of_mem d (ih List.mem_cons_self hc)
      · exact List.mem_cons_of_mem d (ih (List.mem_cons_of_mem first h) hc)

theorem newline_not_mem {s : List Char} (h : ∀ c ∈ s, isLineBreak c = false) : '\n' ∉ s :=
  fun hmem => absurd (h _ hmem) (by decide)

end Text

namespace Declaration

open Text Source Pattern Link

/-! ## Lists of names -/

/-- A further name of a list, with the comma before it. -/
structure NextName where
  before : Gap
  after : Gap
  name : TypeName

/-- Names with commas between them. -/
structure NameList where
  first : TypeName
  others : List NextName

def NextName.print (n : NextName) : List Char :=
  n.before.text ++ ',' :: (n.after.text ++ n.name.text)

def NameList.print (l : NameList) : List Char :=
  l.first.text ++ l.others.flatMap NextName.print

/-- The names of a list, in its order. -/
def NameList.names (l : NameList) : List TypeName :=
  l.first :: l.others.map NextName.name

theorem NextName.print_ne_nil (n : NextName) : n.print ≠ [] :=
  List.append_ne_nil_of_right_ne_nil _ (List.cons_ne_nil _ _)

/-- No name goes on where a further name begins. -/
theorem NextName.print_head (n : NextName) (t : List Char) :
    ∀ c ∈ (n.print ++ t).head?, isWord c = false := by
  rw [NextName.print, List.append_assoc]
  exact fun c hc => isWord_eq_false (n.before.head_append (forall_head?_cons (by decide) _) c hc)

theorem others_head (others : List NextName) {t : List Char}
    (ht : ∀ c ∈ t.head?, isWord c = false) :
    ∀ c ∈ (others.flatMap NextName.print ++ t).head?, isWord c = false := by
  cases others with
  | nil => exact ht
  | cons n others =>
      rw [List.flatMap_cons, List.append_assoc]
      exact n.print_head _

theorem splitOn_padded_name (front back : Gap) (name : TypeName) :
    (splitOn (· == ',') (front.text ++ name.text ++ back.text)).map trim = [name.text] := by
  have hplain : ∀ c ∈ front.text ++ name.text ++ back.text, (c == ',') = false := by
    intro c hc
    rw [beq_eq_false_iff_ne]
    rintro rfl
    rcases List.mem_append.mp hc with hc | hc
    · rcases List.mem_append.mp hc with hc | hc
      · exact absurd (front.ofBlanks _ hc) (by decide)
      · exact absurd (name.ofWords _ hc) (by decide)
    · exact absurd (back.ofBlanks _ hc) (by decide)
  have htrim : trim name.text = name.text :=
    (isTrimmed_word ⟨name.nonempty, fun c hc => isBlank_of_isWord (name.ofWords c hc)⟩).trim_eq
  rw [splitOn_of_all_not hplain, List.map_singleton, trim_between front.ofBlanks back.ofBlanks, htrim]

theorem map_trim_splitOn_names (others : List NextName) :
    ∀ (front : Gap) (first : TypeName),
      (splitOn (· == ',') (front.text ++ first.text ++ others.flatMap NextName.print)).map trim
        = first.text :: others.map fun n => n.name.text := by
  induction others with
  | nil =>
      intro front first
      have hname := splitOn_padded_name front noGap first
      rw [noGap] at hname
      exact hname
  | cons n others ih =>
      intro front first
      have htext : front.text ++ first.text ++ (n :: others).flatMap NextName.print
          = (front.text ++ first.text ++ n.before.text)
            ++ ',' :: (n.after.text ++ n.name.text ++ others.flatMap NextName.print) := by
        simp [NextName.print]
      rw [htext, splitOn_append_separator (by decide), List.map_append, splitOn_padded_name, ih]
      rfl

/-- The names of a list without the blanks around them. -/
theorem NameList.map_trim_splitOn (l : NameList) :
    (splitOn (· == ',') l.print).map trim = l.names.map TypeName.text := by
  have hnames := map_trim_splitOn_names l.others noGap l.first
  rw [noGap, List.nil_append] at hnames
  rw [print, hnames, names, List.map_cons, List.map_map]
  rfl

/-! ## Declarations of fields -/

/-- The pattern of a further name. -/
def nextName : Pattern :=
  blanks ++ lit "," ++ blanks ++ word

/-- The pattern of names with commas between them. -/
def nameList : Pattern :=
  word ++ star nextName

/-- Names, and a type after them. -/
def NamesFields (s : List Char) : Prop :=
  ∃ (names : NameList) (space : Space) (type : List Char),
    type ≠ [] ∧ s = names.print ++ (space.text ++ type)

theorem takes_nextName {before : Option Char} {taken rest : List Char} :
    nextName.Takes before taken rest ↔ ∃ n : NextName, taken = n.print := by
  constructor
  · rintro ⟨_, name, rfl, ⟨_, after, rfl, ⟨gap, _, rfl, hgap, hcomma⟩, hafter⟩, hname⟩
    obtain rfl := takes_lit.mp hcomma
    obtain ⟨hne, hname⟩ := takes_many1.mp hname
    exact ⟨⟨⟨gap, hgap⟩, ⟨after, hafter⟩, ⟨name, hne, hname⟩⟩, by simp [NextName.print]⟩
  · rintro ⟨n, rfl⟩
    exact ⟨n.before.text ++ ','  :: n.after.text, n.name.text, by simp [NextName.print],
      ⟨n.before.text ++ [','], n.after.text, by simp, ⟨n.before.text, [','], rfl, n.before.ofBlanks,
        takes_lit.mpr rfl⟩, n.after.ofBlanks⟩, takes_many1.mpr ⟨n.name.nonempty, n.name.ofWords⟩⟩

theorem rounds_of_others (others : List NextName) (before : Option Char) (rest : List Char) :
    Rounds nextName.Takes before (others.flatMap NextName.print) rest := by
  induction others generalizing before with
  | nil => exact .none before rest
  | cons n others ih =>
      exact .more n.print_ne_nil (takes_nextName.mpr ⟨n, rfl⟩) (ih _)

theorem others_of_rounds {before : Option Char} {taken rest : List Char}
    (h : Rounds nextName.Takes before taken rest) :
    ∃ others : List NextName, taken = others.flatMap NextName.print := by
  induction h with
  | none before rest => exact ⟨[], rfl⟩
  | more _ first _ ih =>
      obtain ⟨n, rfl⟩ := takes_nextName.mp first
      obtain ⟨others, rfl⟩ := ih
      exact ⟨n :: others, rfl⟩

theorem takes_nameList {before : Option Char} {taken rest : List Char} :
    nameList.Takes before taken rest ↔ ∃ names : NameList, taken = names.print := by
  constructor
  · rintro ⟨first, _, rfl, hfirst, hothers⟩
    obtain ⟨hne, hwords⟩ := takes_many1.mp hfirst
    obtain ⟨others, rfl⟩ := others_of_rounds hothers
    exact ⟨⟨⟨first, hne, hwords⟩, others⟩, rfl⟩
  · rintro ⟨names, rfl⟩
    exact ⟨names.first.text, names.others.flatMap NextName.print, rfl,
      takes_many1.mpr ⟨names.first.nonempty, names.first.ofWords⟩, rounds_of_others _ _ _⟩

/-- **Declarations of fields.** A line is one if and only if it gives names and a type. -/
theorem isSome_fieldLine {s : List Char} (hline : '\n' ∉ s) :
    (fieldLine.matchStart? s).isSome ↔ NamesFields s := by
  constructor
  · intro h
    obtain ⟨m, hm⟩ := Option.isSome_iff_exists.mp h
    obtain ⟨_, rest, htext, ⟨_, _, rfl, ⟨_, type, rfl, ⟨_, space, rfl, hnames, hspace⟩, htype⟩, rfl,
      hrest⟩, -, -⟩ := takes_of_matchHere? hm
    obtain ⟨names, rfl⟩ := takes_nameList.mp hnames
    obtain ⟨hspace, hspace'⟩ := takes_many1.mp hspace
    obtain ⟨htype, -⟩ := takes_many1.mp htype
    refine ⟨names, ⟨⟨space, hspace'⟩, hspace⟩, type, htype, ?_⟩
    obtain rfl : rest = [] := hrest
    rw [show s = _ from htext]
    simp
  · rintro ⟨names, space, type, hne, rfl⟩
    have htype : ∀ c ∈ type, (c != '\n') = true := fun c hc => bne_iff_ne.mpr fun heq =>
      hline (heq ▸ List.mem_append_right _ (List.mem_append_right _ hc))
    have hwhole : names.print ++ (space.text ++ type) = names.print ++ (space.text ++ type) ++ [] :=
      (List.append_nil _).symm
    refine matchHere?_isSome hwhole (Nat.le_refl _) ?_
    exact ⟨_, [], (List.append_nil _).symm, ⟨names.print ++ space.text, type, (List.append_assoc ..).symm,
      ⟨names.print, space.text, rfl, takes_nameList.mpr ⟨names, rfl⟩,
        takes_many1.mpr ⟨space.nonempty, space.ofBlanks⟩⟩, takes_many1.mpr ⟨hne, htype⟩⟩, rfl, rfl⟩

section Matching

variable {limit : Nat} {p : Place}

theorem takesFirst_nextName (n : NextName) {rest : List Char}
    (hrest : ∀ c ∈ rest.head?, isWord c = false) (htext : p.rest = n.print ++ rest) :
    nextName.TakesFirst limit p n.print rest [] := by
  have hname : ∀ c ∈ (n.name.text ++ rest).head?, isBlank c = false :=
    forall_head?_append n.name.nonempty (fun c hc => isBlank_of_isWord (n.name.ofWords c hc)) rest
  have hcomma : (blanks ++ lit ",").TakesFirst limit p (n.before.text ++ [','])
      (n.after.text ++ (n.name.text ++ rest)) [] :=
    n.before.takesFirst_mark rfl (by decide) (by simpa [NextName.print] using htext)
  have hafter := hcomma.append (n.after.takesFirst hname rfl)
  have hword : ∀ q : Place, q.rest = n.name.text ++ rest →
      word.TakesFirst limit q n.name.text rest [] := fun q hq =>
    takesFirst_many1 hq n.name.nonempty n.name.ofWords hrest
  have hwhole := hafter.append (hword _ rfl)
  have hprint : n.before.text ++ [','] ++ n.after.text ++ n.name.text = n.print := by
    simp [NextName.print]
  rw [hprint] at hwhole
  exact hwhole

/-- Where something other than a comma stands next, no further name does. -/
theorem fails_nextName (h : visible p.rest ≠ some ',') : nextName.Fails limit p := by
  refine fails_of_not_takes fun taken rest htext htakes => h ?_
  obtain ⟨n, rfl⟩ := takes_nextName.mp htakes
  rw [htext, NextName.print, List.append_assoc, visible_append n.before.ofBlanks]
  exact visible_cons (by decide) _

theorem takesRounds_others (limit : Nat) (others : List NextName) {rest : List Char}
    (hrest : ∀ c ∈ rest.head?, isWord c = false) (hnext : visible rest ≠ some ',') :
    ∀ {p : Place}, p.rest = others.flatMap NextName.print ++ rest →
      TakesRounds nextName limit p (others.map NextName.print) rest := by
  induction others with
  | nil =>
      intro p htext
      obtain rfl : p.rest = rest := htext
      exact .done (fails_nextName hnext)
  | cons n others ih =>
      intro p htext
      rw [List.flatMap_cons, List.append_assoc] at htext
      rw [List.map_cons]
      refine .round n.print_ne_nil ?_ (ih rfl)
      exact takesFirst_nextName n (others_head others hrest) htext

theorem length_others_le (others : List NextName) :
    others.length ≤ (others.flatMap NextName.print).length := by
  induction others with
  | nil => exact Nat.le_refl 0
  | cons n others ih =>
      have hpos := List.length_pos_iff.mpr n.print_ne_nil
      rw [List.flatMap_cons, List.length_append, List.length_cons]
      omega

theorem takesFirst_nameList (limit : Nat) (names : NameList) {rest : List Char}
    (hrest : ∀ c ∈ rest.head?, isWord c = false) (hnext : visible rest ≠ some ',')
    (hlimit : names.print.length ≤ limit) (htext : p.rest = names.print ++ rest) :
    nameList.TakesFirst limit p names.print rest [] := by
  rw [NameList.print, List.append_assoc] at htext
  have hfirst : word.TakesFirst limit p names.first.text
      (names.others.flatMap NextName.print ++ rest) [] :=
    takesFirst_many1 htext names.first.nonempty names.first.ofWords (others_head names.others hrest)
  have hothers := takesRounds_others limit names.others hrest hnext
    (p := p.after names.first.text (names.others.flatMap NextName.print ++ rest) []) rfl
  have hcount : (names.others.map NextName.print).length ≤ limit := by
    have hle := length_others_le names.others
    rw [NameList.print, List.length_append] at hlimit
    rw [List.length_map]
    omega
  have hwhole := hfirst.append (hothers.star hcount)
  rwa [← List.flatMap_def] at hwhole

end Matching

theorem takesFirst_textEnd {limit : Nat} {p : Place} (h : p.rest = []) :
    textEnd.TakesFirst limit p [] [] [] where
  text := h
  first := by
    intro follow last hlast
    obtain ⟨before, rest, index, captures⟩ := p
    obtain rfl : rest = [] := h
    exact hlast

/-- A declaration of fields is taken apart into its names and its type. -/
theorem matchStart?_fieldLine (names : NameList) (space : Space) {type : List Char} (hne : type ≠ [])
    (hhead : ∀ c ∈ type.head?, isBlank c = false ∧ c ≠ ',') (hline : '\n' ∉ type) :
    ∃ m, fieldLine.matchStart? (names.print ++ (space.text ++ type)) = some m
      ∧ m.group 1 = names.print ∧ m.group 2 = type := by
  have hnext : visible (space.text ++ type) ≠ some ',' := by
    obtain ⟨c, type, rfl⟩ := List.exists_cons_of_ne_nil hne
    obtain ⟨hblank, hcomma⟩ := hhead c rfl
    rw [visible_append space.ofBlanks, visible_cons hblank]
    exact fun heq => hcomma (Option.some.inj heq)
  have hword : ∀ c ∈ (space.text ++ type).head?, isWord c = false :=
    fun c hc => isWord_eq_false (space.head_append type c hc)
  have htype : ∀ c ∈ type, (c != '\n') = true :=
    fun c hc => bne_iff_ne.mpr fun heq => hline (heq ▸ hc)
  have hnames := (takesFirst_nameList (names.print ++ (space.text ++ type)).length names
    (p := Place.start (names.print ++ (space.text ++ type))) hword hnext (by simp) rfl).capture 1
  have hspace := hnames.append (space.takesFirst (fun c hc => (hhead c hc).1) rfl)
  have hbody : ∀ q : Place, q.rest = type → (many1 (· != '\n')).TakesFirst
      (names.print ++ (space.text ++ type)).length q type [] [] := fun q hq =>
    takesFirst_many1 (hq.trans (List.append_nil type).symm) hne htype fun _ hc => nomatch hc
  have hwhole := (hspace.append ((hbody _ rfl).capture 2)).append (takesFirst_textEnd rfl)
  refine ⟨_, matchHere?_of_takesFirst hwhole, ?_, ?_⟩
  · exact group_of_lookup (t := names.print) (r := space.text ++ type) rfl rfl
  · show List.take (_ + type.length - _) type = type
    rw [Nat.add_sub_cancel_left, List.take_length]

/-! ## Types that stand alone -/

/-- A type without arguments: a name that may be qualified, or a pointer to one. -/
def IsLoneType (s : List Char) : Prop :=
  ∃ path, IsTypeName path ∧ (s = path ∨ s = '*' :: path)

theorem isSome_loneType {s : List Char} : (loneType.matchStart? s).isSome ↔ IsLoneType s := by
  constructor
  · intro h
    obtain ⟨m, hm⟩ := Option.isSome_iff_exists.mp h
    obtain ⟨_, rest, htext, ⟨_, _, rfl, ⟨star, path, rfl, hstar, hpath⟩, rfl, hrest⟩, -, -⟩ :=
      takes_of_matchHere? hm
    obtain ⟨hne, hwords⟩ := takes_many1.mp hpath
    obtain rfl : rest = [] := hrest
    rw [List.append_nil, List.append_nil] at htext
    refine ⟨path, ⟨hne, hwords⟩, ?_⟩
    rcases takes_opt.mp hstar with hstar | rfl
    · exact Or.inr (by rw [show s = _ from htext, takes_lit.mp hstar]; rfl)
    · exact Or.inl htext
  · rintro ⟨path, hpath, hs⟩
    have hword : dottedWord.Takes (lastOr none ['*']) path ([] ++ []) ∧
        dottedWord.Takes (lastOr none []) path ([] ++ []) :=
      ⟨takes_many1.mpr ⟨hpath.nonempty, hpath.ofWords⟩,
        takes_many1.mpr ⟨hpath.nonempty, hpath.ofWords⟩⟩
    have hwhole : s = s ++ [] := (List.append_nil s).symm
    refine matchHere?_isSome hwhole (Nat.le_refl _) ?_
    rcases hs with rfl | rfl
    · exact ⟨_, [], (List.append_nil _).symm, ⟨[], s, rfl, takes_opt.mpr (Or.inr rfl), hword.2⟩,
        rfl, rfl⟩
    · exact ⟨_, [], (List.append_nil _).symm,
        ⟨['*'], path, rfl, takes_opt.mpr (Or.inl (takes_lit.mpr rfl)), hword.1⟩, rfl, rfl⟩

theorem IsLoneType.not_blank {s : List Char} (h : IsLoneType s) : ∀ c ∈ s, isBlank c = false := by
  obtain ⟨path, hpath, hs⟩ := h
  have hwords : ∀ c ∈ path, isBlank c = false := fun c hc => isBlank_of_isDottedWord (hpath.ofWords c hc)
  rcases hs with rfl | rfl
  · exact hwords
  · intro c hc
    rcases List.mem_cons.mp hc with rfl | hc
    · decide
    · exact hwords c hc

theorem IsLoneType.ne_nil {s : List Char} (h : IsLoneType s) : s ≠ [] := by
  obtain ⟨path, hpath, rfl | rfl⟩ := h
  · exact hpath.nonempty
  · exact List.cons_ne_nil _ _

/-- There are blanks between names and their type. -/
theorem not_namesFields {s : List Char} (h : ∀ c ∈ s, isBlank c = false) : ¬NamesFields s := by
  rintro ⟨names, space, type, -, rfl⟩
  obtain ⟨c, hc⟩ := List.exists_mem_of_ne_nil _ space.nonempty
  have hblank := h c (List.mem_append_right _ (List.mem_append_left _ hc))
  exact Bool.false_ne_true (hblank.symm.trans (space.ofBlanks c hc))

/-! ## Lines -/

/-- A line without its tags and the blanks at its ends. -/
def declaration (line : List Char) : List Char :=
  trim (untagged line)

/-- What a line declares is written in it. -/
theorem mem_of_mem_declaration {c : Char} {line : List Char} (h : c ∈ declaration line) : c ∈ line :=
  mem_of_mem_untagged (mem_of_mem_trim h)

/-- The text of a line's first tag. -/
def tagText (line : List Char) : List Char :=
  (firstTag? line).getD []

/-- The mark that a tag leaves on what its line declares. -/
def tagAnnotations (tag : List Char) : List String :=
  if tag.isEmpty then [] else [String.ofList tag]

/-- The words for a tag. -/
def tagDescription (tag : List Char) : String :=
  if tag.isEmpty then "" else "Tag: " ++ String.ofList tag

/-- A line that declares nothing: it is blank, or it is a brace. -/
def IsBare (line : List Char) : Prop :=
  trim line = [] ∨ trim line = ['\x7b'] ∨ trim line = ['\x7d']

instance (line : List Char) : Decidable (IsBare line) :=
  inferInstanceAs (Decidable (_ ∨ _ ∨ _))

theorem declaration_of_isBare {line : List Char} (h : IsBare line) :
    declaration line = trim line := by
  have hplain : backtick ∉ trim line ∧ trim (trim line) = trim line := by
    rcases h with h | h | h
    · rw [h]; decide
    · rw [h]; decide
    · rw [h]; decide
  rw [declaration, ← (trim_untagged_trim line).1, (untagged_of_not_mem hplain.1).1, hplain.2]

/-- What a line declares is read off its declaration and its first tag. -/
theorem goFields_eq (line : List Char) :
    goFields line = if IsBare line then [] else
      match fieldLine.matchStart? (declaration line) with
      | some m =>
        (splitOn (· == ',') (m.group 1)).map fun name =>
          ⟨String.ofList (trim name), String.ofList (trim (m.group 2)),
            tagDescription (tagText line), tagAnnotations (tagText line)⟩
      | none =>
        match (words (declaration line)).head? with
        | some type =>
          [⟨String.ofList (bareTypeName type), String.ofList type,
            tagDescription (tagText line), "embedded" :: tagAnnotations (tagText line)⟩]
        | none => [] := by
  have hbare : ((trim line).isEmpty || trim line == ['\x7b'] || trim line == ['\x7d']) = true
      ↔ IsBare line := by
    rw [Bool.or_eq_true, Bool.or_eq_true, List.isEmpty_iff, beq_iff_eq, beq_iff_eq, or_assoc]
    rfl
  have htag : ((fieldTag.find? (trim line)).map fun m => m.group 1).getD [] = tagText line := by
    rw [find?_fieldTag, (trim_untagged_trim line).2, tagText]
  have hdeclaration : trim (fieldTag.replaceAll [] (trim line)) = declaration line := by
    rw [isTagPattern_fieldTag.replaceAll, (trim_untagged_trim line).1, declaration]
  rw [goFields]
  simp only [htag, hdeclaration, hbare]
  rfl

/-- The type that a line embeds is read off its declaration. -/
theorem embeddedName?_eq (line : List Char) :
    embeddedName? line
      = if (loneType.matchStart? (declaration line)).isSome then some (bareTypeName (declaration line))
        else none := by
  rw [embeddedName?, isTagPattern_anyTag.replaceAll]
  rfl

/-- The first word of a text that starts with one. -/
theorem head?_words {s : List Char} (hne : s ≠ []) (hhead : ∀ c ∈ s.head?, isBlank c = false) :
    (words s).head? = some (s.takeWhile fun c => !isBlank c) := by
  have hword : ∀ c ∈ s.takeWhile fun c => !isBlank c, isBlank c = false := by
    intro c hc
    simpa using List.mem_takeWhile_imp hc
  have hnonempty : (s.takeWhile fun c => !isBlank c) ≠ [] := by
    obtain ⟨c, s, rfl⟩ := List.exists_cons_of_ne_nil hne
    rw [List.takeWhile_cons_of_pos (by simp [hhead c rfl])]
    exact List.cons_ne_nil _ _
  have hsplit := List.takeWhile_append_dropWhile (p := fun c => !isBlank c) (l := s)
  cases hrest : s.dropWhile fun c => !isBlank c with
  | nil =>
      rw [hrest, List.append_nil] at hsplit
      rw [hsplit] at hword ⊢
      rw [words_eq_runs, runs_of_all_not hne hword]
      rfl
  | cons c rest =>
      have hblank : isBlank c = true := by
        have hnot := List.head?_dropWhile_not (fun c => !isBlank c) s
        rw [hrest] at hnot
        simpa using hnot
      rw [hrest] at hsplit
      have hwords := runs_append_cons hblank (s.takeWhile fun c => !isBlank c) rest
      rw [hsplit, runs_of_all_not hnonempty hword] at hwords
      rw [words_eq_runs, hwords]
      rfl

/-! ## What lines declare -/

theorem not_isBare_of_head {line : List Char} {c : Char} (h : c ∈ (declaration line).head?)
    (hc : isWord c = true ∨ c = '*') : ¬IsBare line := by
  intro hbare
  rw [declaration_of_isBare hbare] at h
  rcases hbare with hbare | hbare | hbare
  · rw [hbare] at h
    exact nomatch h
  · rw [hbare] at h
    obtain rfl := Option.some.inj h
    revert hc
    decide
  · rw [hbare] at h
    obtain rfl := Option.some.inj h
    revert hc
    decide

theorem IsLoneType.not_mem {s : List Char} (h : IsLoneType s) {c : Char}
    (hc : isDottedWord c = false) (hstar : c ≠ '*') : c ∉ s := by
  obtain ⟨path, hpath, rfl | rfl⟩ := h
  · exact fun hmem => Bool.false_ne_true (hc.symm.trans (hpath.ofWords c hmem))
  · rintro (_ | ⟨_, hmem⟩)
    · exact hstar rfl
    · exact Bool.false_ne_true (hc.symm.trans (hpath.ofWords c hmem))

theorem not_lone_of_isBare {line : List Char} (h : IsBare line) : ¬IsLoneType (declaration line) := by
  rw [declaration_of_isBare h]
  intro hlone
  rcases h with h | h | h
  · exact hlone.ne_nil h
  · exact hlone.not_mem (c := '\x7b') (by decide) (by decide) (h ▸ List.mem_cons_self)
  · exact hlone.not_mem (c := '\x7d') (by decide) (by decide) (h ▸ List.mem_cons_self)

/-- A line whose declaration gives names and a type declares a field for each name. -/
theorem goFields_of_names {line : List Char} {names : NameList} {space : Space} {type : List Char}
    (htrimmed : IsTrimmed type) (hcomma : ∀ c ∈ type.head?, c ≠ ',') (hline : '\n' ∉ type)
    (hdeclaration : declaration line = names.print ++ (space.text ++ type)) :
    goFields line = names.names.map fun name =>
      ⟨name.toString, String.ofList type, tagDescription (tagText line),
        tagAnnotations (tagText line)⟩ := by
  have hbare : ¬IsBare line := by
    obtain ⟨c, w, hw⟩ := List.exists_cons_of_ne_nil names.first.nonempty
    refine not_isBare_of_head (c := c) ?_ (Or.inl (names.first.ofWords c (by rw [hw]; simp)))
    rw [hdeclaration, NameList.print, hw]
    rfl
  obtain ⟨m, hm, hnames, htype⟩ := matchStart?_fieldLine names space htrimmed.nonempty
    (fun c hc => ⟨htrimmed.head c hc, hcomma c hc⟩) hline
  rw [goFields_eq, if_neg hbare, hdeclaration, hm]
  dsimp only
  have hmap := congrArg (List.map fun name : List Char => (⟨String.ofList name, String.ofList type,
    tagDescription (tagText line), tagAnnotations (tagText line)⟩ : Property)) names.map_trim_splitOn
  rw [List.map_map, List.map_map] at hmap
  rw [hnames, htype, htrimmed.trim_eq]
  exact hmap

/-- A line whose declaration gives no names declares its first word as an embedded type. -/
theorem goFields_of_type {line : List Char} (hbare : ¬IsBare line) (hline : '\n' ∉ declaration line)
    (hnames : ¬NamesFields (declaration line)) (hne : declaration line ≠ []) :
    goFields line = [⟨String.ofList (bareTypeName ((declaration line).takeWhile fun c => !isBlank c)),
      String.ofList ((declaration line).takeWhile fun c => !isBlank c),
      tagDescription (tagText line), "embedded" :: tagAnnotations (tagText line)⟩] := by
  have hnone : fieldLine.matchStart? (declaration line) = none := by
    rw [← isSome_fieldLine hline, Option.not_isSome_iff_eq_none] at hnames
    exact hnames
  rw [goFields_eq, if_neg hbare, hnone]
  dsimp only
  rw [head?_words hne (head_trim _)]

/-- A line with one word declares it as an embedded type. -/
theorem goFields_of_word {line word : List Char} (hbare : ¬IsBare line) (hne : word ≠ [])
    (hblank : ∀ c ∈ word, isBlank c = false) (hdeclaration : declaration line = word) :
    goFields line = [⟨String.ofList (bareTypeName word), String.ofList word,
      tagDescription (tagText line), "embedded" :: tagAnnotations (tagText line)⟩] := by
  have hword : (word.takeWhile fun c => !isBlank c) = word :=
    List.takeWhile_eq_self_iff.mpr fun c hc => by rw [hblank c hc]; rfl
  have hline : '\n' ∉ word := fun hmem => absurd (hblank _ hmem) (by decide)
  subst hdeclaration
  rw [goFields_of_type hbare hline (not_namesFields hblank) hne, hword]

/-- A line with nothing but tags declares nothing. -/
theorem goFields_of_nil {line : List Char} (hbare : ¬IsBare line) (h : declaration line = []) :
    goFields line = [] := by
  have hnone : fieldLine.matchStart? [] = none := by decide
  rw [goFields_eq, if_neg hbare, h, hnone]
  rfl

theorem goFields_of_isBare {line : List Char} (h : IsBare line) : goFields line = [] := by
  rw [goFields_eq, if_pos h]

end Declaration

end ServiceMap
