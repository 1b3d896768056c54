import ServiceMap.Proofs.Declaration.JavaSource
import ServiceMap.Proofs.Link.AddedFiles
import ServiceMap.Proofs.Link.TypeLists

/-!
# Heads of classes

The head of a class starts with the word `class` and the name of the class, in both languages that
have classes. In a text in which the word stands nowhere else, one head is found; and the edges of a
kind that a file has are those of the references that its heads make.
-/

namespace ServiceMap

/-! ## Files that declare a type -/

theorem Link.SymbolIndex.find?_ofTable (table : FileTable) (name : String) :
    (SymbolIndex.ofTable table).find? name = declaringFile? table name := by
  induction table with
  | nil => rfl
  | cons file table ih =>
      have htypes : (file.types.map fun type => (type.name, file.path)).lookup name
          = if file.declares name then some file.path else none := by
        rw [SourceFile.declares]
        induction file.types with
        | nil => rfl
        | cons type types ih =>
            rw [List.map_cons, List.lookup_cons, List.any_cons, BEq.comm]
            cases htype : type.name == name with
            | true => rfl
            | false =>
                rw [Bool.false_or]
                exact ih
      rw [show SymbolIndex.ofTable (file :: table)
        = (file.types.map fun type => (type.name, file.path)) ++ SymbolIndex.ofTable table from rfl]
      show List.lookup name (_ ++ _) = _
      rw [List.lookup_append, htypes, declaringFile?, List.find?_cons]
      cases file.declares name with
      | true => rfl
      | false => exact ih

namespace Extractor

open Source Link

variable {tree : Tree} {workingDirectory : Path} {table : FileTable}

/-- The edges of a text by kind: imports apart, they are those of the references that it makes. -/
theorem edges_of_symbolUses {x : Extractor} (hx : x.IsFor tree workingDirectory table)
    {file : String} (hfile : (Path.ofString file).hasNul = false) {text : List Char}
    {language : Language} {uses : List SymbolUse}
    (huses : symbolUses language (maskComments language.rawQuote text) = .ok uses) :
    ∃ scan y, x.extract tree workingDirectory file text language = .ok (scan, y)
      ∧ ∀ kind ≠ EdgeKind.imports, scan.edges.filter (·.kind == kind)
        = (uses.filter (·.kind == kind)).filterMap ((ofTable table).symbolEdge? file) := by
  obtain ⟨scan, y, hscan, hedges, -⟩ := extract_isFor hx hfile text language
  refine ⟨scan, y, hscan, fun kind hkind => ?_⟩
  rw [edgesWith, huses] at hedges
  obtain rfl := Except.ok.inj hedges
  show (_ ++ uses.filterMap ((ofTable table).symbolEdge? file)).filter _ = _
  rw [List.filter_append, List.filter_filterMap]
  have himports : ∀ e ∈ (((importSpecs language (maskComments language.rawQuote text)).map
      (importScan tree workingDirectory
        (Project.root? tree workingDirectory (Path.ofString file)) language file)).foldl
      Scan.append {}).edges, ¬(e.kind == kind) = true := by
    intro e he
    rw [← Scan.concat, Scan.edges_concat, List.map_map] at he
    obtain ⟨edges, hedges, he⟩ := List.mem_flatten.mp he
    obtain ⟨spec, -, rfl⟩ := List.mem_map.mp hedges
    rw [kind_of_mem_importScan he, beq_iff_eq]
    exact hkind.symm
  rw [List.filter_eq_nil_iff.mpr himports, List.nil_append, List.filterMap_filter]
  refine List.filterMap_congr fun use _ => ?_
  rw [symbolEdge?]
  cases SymbolIndex.find? _ _ with
  | none => simp
  | some target =>
      by_cases hsame : use.kind = kind
      · simp [hsame]
      · simp [hsame]

end Extractor

namespace Link

open Text Source Declaration Pattern

/-- References to types that are declared lead to the files that declare them. -/
theorem filterMap_symbolEdge? {table : FileTable} {file : String} {target : String → String}
    {uses : List SymbolUse}
    (h : ∀ use ∈ uses, declaringFile? table (String.ofList use.name)
      = some (target (String.ofList use.name))) :
    uses.filterMap ((Extractor.ofTable table).symbolEdge? file)
      = uses.map fun use =>
        ⟨file, target (String.ofList use.name), use.kind, String.ofList use.details⟩ := by
  rw [← List.filterMap_eq_map]
  refine List.filterMap_congr fun use huse => ?_
  show (SymbolIndex.find? (SymbolIndex.ofTable table) _).map _ = _
  rw [SymbolIndex.find?_ofTable, h use huse]
  rfl

/-- The edges from a class to declared types that its head names. -/
theorem edges_of_names {α : Type} {table : FileTable} {file : String} {target : String → String}
    (kind : EdgeKind) (subject : TypeName) (between : String) (name : α → TypeName)
    (shown : α → List Char) {named : List α}
    (h : ∀ a ∈ named, declaringFile? table (name a).toString = some (target (name a).toString)) :
    (named.map fun a =>
        SymbolUse.mk kind (name a).text (subject.text ++ between.toList ++ shown a)).filterMap
        ((Extractor.ofTable table).symbolEdge? file)
      = named.map fun a => ⟨file, target (name a).toString, kind,
          subject.toString ++ between ++ String.ofList (shown a)⟩ := by
  rw [filterMap_symbolEdge? fun use huse => ?_, List.map_map]
  · refine List.map_congr_left fun a _ => ?_
    show Edge.mk _ _ _ (String.ofList _) = _
    rw [TypeName.ofList_between]
    rfl
  · obtain ⟨a, ha, rfl⟩ := List.mem_map.mp huse
    exact h a ha

/-! ## Where heads start -/

/-- What a head starts with. -/
def classFront : Pattern :=
  wordEdge ++ lit "class" ++ blanks1 ++ capture 1 word

/-- What may stand before the head of a class: text in which no class is named, and no part of a name
at its end. -/
structure IsBeforeClass (front : List Char) : Prop where
  free : IsFreeOf ["class"] front
  parted : ∀ c ∈ front.getLast?, isWord c = false

theorem isBeforeClass_blank {front : List Char} {c : Char} (hc : isBlank c = true)
    (hfree : IsFreeOf ["class"] (front ++ [c])) : IsBeforeClass (front ++ [c]) where
  free := hfree
  parted := by
    intro d hd
    rw [List.getLast?_concat] at hd
    exact Option.some.inj hd ▸ isWord_of_isBlank hc

/-- Wherever the pattern matches, the word `class` stands. -/
def StartsAtClass (pattern : Pattern) : Prop :=
  ∀ before taken rest, pattern.Takes before taken rest →
    (∀ c ∈ before, isWord c = false)
      ∧ ∃ gap more, taken = "class".toList ++ gap :: more ∧ isBlank gap = true

theorem StartsAtClass.append {first : Pattern} (h : StartsAtClass first) (second : Pattern) :
    StartsAtClass (first ++ second) := by
  rintro before _ rest ⟨s, t, rfl, hfirst, -⟩
  obtain ⟨hbefore, gap, more, rfl, hgap⟩ := h before s (t ++ rest) hfirst
  exact ⟨hbefore, gap, more ++ t, List.append_assoc .., hgap⟩

theorem startsAtClass_front : StartsAtClass (wordEdge ++ lit "class" ++ blanks1) := by
  rintro before _ rest ⟨_, gap, rfl, ⟨_, _, rfl, ⟨rfl, hedge⟩, hword⟩, hgap⟩
  rw [takes_lit] at hword
  subst hword
  obtain ⟨hne, hblank⟩ := takes_many1.mp hgap
  obtain ⟨g, gap, rfl⟩ := List.exists_cons_of_ne_nil hne
  refine ⟨fun c hc => Bool.eq_false_iff.mpr fun hc' => hedge ?_, g, gap, rfl,
    hblank g List.mem_cons_self⟩
  obtain rfl : before = some c := hc
  show isWord c = true
  exact hc'

/-- A word that starts in a stretch lies in it, if no name goes on where the stretch ends. -/
theorem word_in_stretch {word e x rest : List Char} (hword : ∀ c ∈ word, isWord c = true)
    (he : e ≠ [])
    (hend : (∀ c ∈ e.getLast?, isWord c = false) ∨ ∀ c ∈ x.head?, isWord c = false)
    (h : e ++ x = word ++ rest) : ∃ more, e = word ++ more ∧ rest = more ++ x := by
  rcases List.append_eq_append_iff.mp h with ⟨more, hwhole, hx⟩ | ⟨more, hwhole, hrest⟩
  · cases more with
    | nil => exact ⟨[], by simpa using hwhole.symm, by simpa using hx.symm⟩
    | cons c more =>
        -- the word would go on beyond the stretch
        rcases hend with hend | hend
        · obtain ⟨s, d, rfl⟩ := (List.eq_nil_or_concat e).resolve_left he
          rw [List.concat_eq_append] at hend hwhole
          exact absurd ((hend d (by simp)).symm.trans (hword d (by rw [hwhole]; simp)))
            Bool.false_ne_true
        · exact absurd ((hend c (by rw [hx]; rfl)).symm.trans (hword c (by rw [hwhole]; simp)))
            Bool.false_ne_true
  · exact ⟨more, hwhole, hrest⟩

/-- No head starts where no class is named. -/
theorem matchHere?_eq_none_of_isFreeOf {pattern : Pattern} (hpattern : StartsAtClass pattern)
    {limit index : Nat} {before : Option Char} {d e x : List Char}
    (hfree : IsFreeOf ["class"] (d ++ e))
    (hend : e ≠ [] ∧ (∀ c ∈ e.getLast?, isWord c = false) ∨ x = []) :
    pattern.matchHere? limit ⟨lastOr before d, e ++ x, index, []⟩ = none := by
  refine Option.eq_none_iff_forall_ne_some.mpr fun m hm => ?_
  obtain ⟨_, rest, htext, htakes, -, -⟩ := takes_of_matchHere? hm
  obtain ⟨hbefore, gap, more, rfl, hgap⟩ := hpattern _ _ _ htakes
  have hword : ∀ c ∈ "class".toList, isWord c = true := forall_mem_of_all (by decide)
  obtain ⟨back, rfl, hback⟩ : ∃ back, e = "class".toList ++ back
      ∧ gap :: (more ++ rest) = back ++ x := by
    have htext : e ++ x = "class".toList ++ gap :: (more ++ rest) := by
      rw [show e ++ x = _ from htext, List.append_assoc]
      rfl
    rcases hend with ⟨he, hend⟩ | rfl
    · exact word_in_stretch hword he (Or.inl hend) htext
    · rw [List.append_nil] at htext
      exact ⟨_, htext, (List.append_nil _).symm⟩
  refine hfree "class".toList ?_ (by decide)
  refine mem_runs_of_occurrence (by decide) (fun c hc => by simp [hword c hc]) (fun c hc => ?_)
    (fun c hc => ?_)
  · have hlast : lastOr before d = some c := by rw [lastOr, hc]; rfl
    rw [hbefore c hlast]
    rfl
  · cases back with
    | nil => cases hc
    | cons b back =>
        obtain rfl : b = c := Option.some.inj hc
        obtain ⟨rfl, -⟩ := List.cons.inj hback
        rw [isWord_of_isBlank hgap]
        rfl

/-- **One head.** If the word `class` stands before a head and nowhere else, this head is all that is
found. -/
theorem findAll_of_one_class {pattern : Pattern} (hpattern : StartsAtClass pattern)
    {front s u t : List Char} (hfront : IsBeforeClass front) (hne : s ≠ [])
    (hfree : IsFreeOf ["class"] (u ++ t)) {m : Match}
    (hm : pattern.matchHere? (front ++ (s ++ u ++ t)).length
      ⟨lastOr none front, s ++ u ++ t, front.length, []⟩ = some m)
    (hstop : m.stop = front.length + (s ++ u).length) :
    pattern.findAll (front ++ (s ++ u ++ t)) = [m] := by
  have hskip : pattern.allFrom (front ++ (s ++ u ++ t)).length 0 none 0 (front ++ (s ++ u ++ t))
      = pattern.allFrom (front ++ (s ++ u ++ t)).length 0 (lastOr none front) (0 + front.length)
        (s ++ u ++ t) := by
    refine allFrom_skip (fun d e hde he => ?_) (Nat.zero_le _)
    refine matchHere?_eq_none_of_isFreeOf hpattern (hde ▸ hfront.free) (Or.inl ⟨he, ?_⟩)
    intro c hc
    refine hfront.parted c ?_
    rw [hde, List.getLast?_append, hc]
    rfl
  have htaken : s ++ u ≠ [] := List.append_ne_nil_of_left_ne_nil hne u
  rw [findAll, hskip, Nat.zero_add, allFrom_of_matchHere? htaken hm hstop]
  refine congrArg (m :: ·) (allFrom_eq_nil fun d e hde => ?_)
  -- what the head takes after the word counts as well: no name is cut where the match ends
  rw [lastOr_append, ← lastOr_append, ← List.append_nil e]
  refine matchHere?_eq_none_of_isFreeOf hpattern ?_ (Or.inr rfl)
  rw [List.append_assoc, ← hde]
  exact hfree

/-! ## What stands next -/

/-- The first character of a text that is not blank. -/
def visible (s : List Char) : Option Char :=
  (s.dropWhile isBlank).head?

theorem visible_append {gap : List Char} (hgap : ∀ c ∈ gap, isBlank c = true) (s : List Char) :
    visible (gap ++ s) = visible s := by
  rw [visible, List.dropWhile_append_of_pos hgap]
  rfl

theorem visible_cons {c : Char} (hc : isBlank c = false) (s : List Char) :
    visible (c :: s) = some c := by
  rw [visible, dropWhile_eq_self]
  · rfl
  · exact fun d hd => Option.some.inj hd ▸ hc

theorem visible_append_of_some {s : List Char} {c : Char} (h : visible s = some c)
    (t : List Char) : visible (s ++ t) = some c := by
  induction s with
  | nil => exact nomatch h
  | cons d s ih =>
      by_cases hd : isBlank d = true
      · have hdrop : ∀ s, visible (d :: s) = visible s := fun s =>
          visible_append (fun e he => List.mem_singleton.mp he ▸ hd) s
        rw [hdrop] at h
        rw [List.cons_append, hdrop, ih h]
      · rw [visible_cons (Bool.eq_false_iff.mpr hd)] at h
        rw [List.cons_append, visible_cons (Bool.eq_false_iff.mpr hd), h]

/-- Whatever the pattern takes has this character after blanks, if any. -/
def FollowsBlanks (c : Char) (pattern : Pattern) : Prop :=
  ∀ before taken rest, pattern.Takes before taken rest →
    ∃ gap more, (∀ d ∈ gap, isBlank d = true) ∧ taken = gap ++ c :: more

theorem FollowsBlanks.append {c : Char} {first : Pattern} (h : FollowsBlanks c first)
    (second : Pattern) : FollowsBlanks c (first ++ second) := by
  rintro before _ rest ⟨s, t, rfl, hfirst, -⟩
  obtain ⟨gap, more, hgap, rfl⟩ := h before s (t ++ rest) hfirst
  exact ⟨gap, more ++ t, hgap, List.append_assoc ..⟩

theorem followsBlanks_lit {c : Char} {word : String} {s : List Char} (hword : word.toList = c :: s) :
    FollowsBlanks c (blanks ++ lit word) := by
  rintro before _ rest ⟨gap, _, rfl, hgap, hlit⟩
  rw [takes_lit, hword] at hlit
  exact ⟨gap, s, hgap, by rw [hlit]⟩

theorem followsBlanks1_lit {c : Char} {word : String} {s : List Char}
    (hword : word.toList = c :: s) : FollowsBlanks c (blanks1 ++ lit word) := by
  rintro before _ rest ⟨gap, _, rfl, hgap, hlit⟩
  rw [takes_lit, hword] at hlit
  exact ⟨gap, s, (takes_many1.mp hgap).2, by rw [hlit]⟩

/-- An optional part is passed over where another character stands next. -/
theorem FollowsBlanks.skipped {c : Char} {pattern : Pattern} (h : FollowsBlanks c pattern)
    (hc : isBlank c = false) {p : Place} (hnext : visible p.rest ≠ some c) (limit : Nat) :
    (opt pattern).TakesFirst limit p [] p.rest [] := by
  refine (fails_of_not_takes fun taken rest htext htakes => ?_).opt
  obtain ⟨gap, more, hgap, rfl⟩ := h _ _ _ htakes
  rw [htext, List.append_assoc, visible_append hgap] at hnext
  exact hnext (visible_cons hc _)

/-! ## What heads start with -/

/-- At this place a head starts that goes on with a brace, and the limit suffices for the text from
there on. -/
structure StartsAt (header back : List Char) (limit : Nat) (p : Place) : Prop where
  before : ∀ c ∈ p.before, isWord c = false
  captures : p.captures = []
  text : p.rest = header ++ '\x7b' :: back
  limit : p.rest.length ≤ limit

/-- The place after what stands before a head. -/
theorem startsAt_of_isBeforeClass {front : List Char} (hfront : IsBeforeClass front)
    (header back : List Char) :
    StartsAt header back (front ++ (header ++ '\x7b' :: back)).length
      ⟨lastOr none front, header ++ '\x7b' :: back, front.length, []⟩ where
  before := by
    intro c hc
    have hlast : lastOr none front = front.getLast? := Option.or_none
    exact hfront.parted c (by rw [← hlast]; exact hc)
  captures := rfl
  text := rfl
  limit := (List.suffix_append front (header ++ '\x7b' :: back)).length_le

/-- The stretch that is remembered is the one that was taken. -/
theorem takesFirst_captured {body : Pattern} (slot : Nat) {limit : Nat} {p : Place}
    {taken rest : List Char} (h : body.TakesFirst limit p taken rest []) :
    ∃ c : Capture, c.text = taken
      ∧ (capture slot body).TakesFirst limit p taken rest [(slot, c)] := by
  refine ⟨_, ?_, h.capture slot⟩
  rw [Capture.text, h.text, Nat.add_sub_cancel_left, List.take_left]

theorem Gap.takesFirst (g : Gap) {rest : List Char} (hrest : ∀ c ∈ rest.head?, isBlank c = false)
    {limit : Nat} {p : Place} (htext : p.rest = g.text ++ rest) :
    blanks.TakesFirst limit p g.text rest [] :=
  takesFirst_many htext g.ofBlanks hrest

/-- A mark with blanks before it. -/
theorem Gap.takesFirst_mark (g : Gap) {mark : String} {c : Char} (hmark : mark.toList = [c])
    (hc : isBlank c = false) {rest : List Char} {limit : Nat} {p : Place}
    (htext : p.rest = g.text ++ c :: rest) :
    (blanks ++ lit mark).TakesFirst limit p (g.text ++ [c]) rest [] := by
  have hgap : blanks.TakesFirst limit p g.text (c :: rest) [] :=
    g.takesFirst (forall_head?_cons hc _) htext
  have hlit : (lit mark).TakesFirst limit (p.after g.text (c :: rest) []) mark.toList rest [] :=
    takesFirst_lit (by rw [hmark]; rfl)
  rw [hmark] at hlit
  exact hgap.append hlit

theorem Space.takesFirst (g : Space) {rest : List Char}
    (hrest : ∀ c ∈ rest.head?, isBlank c = false) {limit : Nat} {p : Place}
    (htext : p.rest = g.text ++ rest) : blanks1.TakesFirst limit p g.text rest [] :=
  takesFirst_many1 htext g.nonempty g.ofBlanks hrest

/-- The name of the class is remembered. -/
theorem takesFirst_classFront (gap : Space) (name : TypeName) {rest : List Char}
    (hrest : ∀ c ∈ rest.head?, isWord c = false) {limit : Nat} {p : Place}
    (hbefore : ∀ c ∈ p.before, isWord c = false)
    (htext : p.rest = "class".toList ++ (gap.text ++ (name.text ++ rest))) :
    ∃ c : Capture, c.text = name.text
      ∧ classFront.TakesFirst limit p ("class".toList ++ (gap.text ++ name.text)) rest
        [(1, c)] := by
  have hname : ∀ c ∈ (name.text ++ rest).head?, isBlank c = false :=
    forall_head?_append name.nonempty (fun c hc => isBlank_of_isWord (name.ofWords c hc)) rest
  have hedge : wordEdge.TakesFirst limit p [] p.rest [] := by
    refine takesFirst_wordEdge ?_
    rw [htext]
    show _ ≠ isWord 'c'
    cases hp : p.before with
    | none => decide
    | some c =>
        rw [Option.any_some, hbefore c hp]
        decide
  have hword : (lit "class").TakesFirst limit (p.after [] p.rest []) "class".toList
      (gap.text ++ (name.text ++ rest)) [] := takesFirst_lit htext
  have hgap := (hedge.append hword).append (gap.takesFirst hname rfl)
  have hbody : word.TakesFirst limit (p.after ([] ++ "class".toList ++ gap.text)
      (name.text ++ rest) ([] ++ ([] ++ []))) name.text rest [] :=
    takesFirst_many1 rfl name.nonempty name.ofWords hrest
  obtain ⟨c, hc, hcaptured⟩ := takesFirst_captured 1 hbody
  refine ⟨c, hc, ?_⟩
  have hfront := hgap.append hcaptured
  rw [List.nil_append, List.append_assoc] at hfront
  exact hfront

end Link

end ServiceMap
