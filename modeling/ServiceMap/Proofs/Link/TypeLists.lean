import Mathlib.Data.List.Basic
import Mathlib.Data.List.Induction
import ServiceMap.Link.Symbol
import ServiceMap.Proofs.Pattern.FirstWay
import ServiceMap.Proofs.Pattern.Segments
import ServiceMap.Proofs.Source.Balance
import ServiceMap.Proofs.Text.Blanks

/-!
# Lists of types in print

The types that the head of a class names, as they are written down: a name, which may have arguments
in angle brackets, nested to any depth; several types with commas between them; and blanks wherever
they may stand. Such a list, split at its commas, gives back the types, since the commas inside
arguments do not count; and a type without its arguments is its name.
-/

namespace ServiceMap.Link

open Text Source Pattern

/-! ## What is written -/

/-- Blanks that may be left out. -/
structure Gap where
  text : List Char
  ofBlanks : ∀ c ∈ text, isBlank c = true

/-- Blanks that keep two words apart. -/
structure Space extends Gap where
  nonempty : text ≠ []

/-- No blanks. -/
def noGap : Gap := ⟨[], fun _ hc => nomatch hc⟩

/-- A single blank. -/
def oneSpace : Space := ⟨⟨[' '], forall_mem_of_all (by decide)⟩, by decide⟩

/-- A name that is not qualified. -/
structure TypeName where
  text : List Char
  nonempty : text ≠ []
  ofWords : ∀ c ∈ text, isWord c = true

/-- Characters that a list of types is written with. -/
def isListChar (c : Char) : Bool :=
  isWord c || isBlank c || [',', '<', '>'].contains c

/-- A list of arguments or parameters in brackets, all on one line, with what stands before the
opening bracket. -/
structure TypeArguments where
  gap : Gap
  text : List Char
  ofList : ∀ c ∈ text, isListChar c = true
  oneLine : '\n' ∉ text
  balanced : Bracket.angle.IsBalanced text

/-- A type by its name, with its arguments if it has any. -/
structure TypeUse where
  name : TypeName
  arguments : Option TypeArguments

/-- A further type of a list, with the comma before it. -/
structure NextType where
  before : Gap
  after : Gap
  type : TypeUse

/-- Types with commas between them. -/
structure TypeList where
  first : TypeUse
  others : List NextType

/-- The name that a text is. -/
def TypeName.ofString (text : String) (nonempty : text.toList ≠ [])
    (ofWords : text.toList.all isWord = true) : TypeName :=
  ⟨text.toList, nonempty, List.all_eq_true.mp ofWords⟩

/-- Arguments that stand right after the name. -/
def TypeArguments.ofString (text : String) (ofList : text.toList.all isListChar = true)
    (oneLine : '\n' ∉ text.toList) (balanced : Bracket.angle.IsBalanced text.toList) :
    TypeArguments :=
  ⟨noGap, text.toList, List.all_eq_true.mp ofList, oneLine, balanced⟩

def TypeName.toString (n : TypeName) : String :=
  String.ofList n.text

def TypeArguments.print (a : TypeArguments) : List Char :=
  a.gap.text ++ '<' :: (a.text ++ ['>'])

/-- Arguments as they are written, if there are any. -/
def printArguments (arguments : Option TypeArguments) : List Char :=
  (arguments.map TypeArguments.print).getD []

def TypeUse.print (t : TypeUse) : List Char :=
  t.name.text ++ printArguments t.arguments

def NextType.print (n : NextType) : List Char :=
  n.before.text ++ ',' :: (n.after.text ++ n.type.print)

def TypeList.print (l : TypeList) : List Char :=
  l.first.print ++ l.others.flatMap NextType.print

/-- The types of a list, in its order. -/
def TypeList.types (l : TypeList) : List TypeUse :=
  l.first :: l.others.map NextType.type

theorem TypeName.ofList_between (a : TypeName) (between : String) (s : List Char) :
    String.ofList (a.text ++ between.toList ++ s) = a.toString ++ between ++ String.ofList s := by
  rw [String.ofList_append, String.ofList_append, String.ofList_toList]
  rfl

theorem TypeName.ne_dot (name : TypeName) : ∀ c ∈ name.text.reverse, (c != '.') = true := by
  intro c hc
  rw [bne_iff_ne]
  rintro rfl
  exact absurd (name.ofWords _ (List.mem_reverse.mp hc)) (by decide)

/-- A name that is not qualified is its own last part. -/
theorem TypeName.afterLast_text (name : TypeName) : afterLast '.' name.text = name.text := by
  rw [afterLast, List.takeWhile_eq_self_iff.mpr name.ne_dot, List.reverse_reverse]

/-- The last part of a qualified name is the name without what qualifies it. -/
theorem TypeName.afterLast_qualified (name : TypeName) (qualifier : List Char) :
    afterLast '.' (qualifier ++ '.' :: name.text) = name.text := by
  rw [afterLast, List.reverse_append, List.reverse_cons, List.append_assoc, List.singleton_append,
    List.takeWhile_append_of_pos name.ne_dot, List.takeWhile_cons_of_neg (by decide),
    List.append_nil, List.reverse_reverse]

/-! ## The characters of print -/

theorem isWord_eq_false {c : Char} (h : isDottedWord c = false) : isWord c = false :=
  (Bool.or_eq_false_iff.mp h).1

theorem isListChar_of_isWord {c : Char} (h : isWord c = true) : isListChar c = true := by
  rw [isListChar, h, Bool.true_or, Bool.true_or]

theorem isListChar_of_isBlank {c : Char} (h : isBlank c = true) : isListChar c = true := by
  rw [isListChar, h, Bool.or_true, Bool.true_or]

theorem isQuote_of_isListChar {c : Char} (h : isListChar c = true) : isQuote c = false := by
  refine Bool.eq_false_iff.mpr fun hquote => ?_
  rw [isQuote, Bool.or_eq_true, beq_iff_eq, beq_iff_eq] at hquote
  rcases hquote with rfl | rfl
  · exact absurd h (by decide)
  · exact absurd h (by decide)

theorem opener_of_isListChar {c : Char} (h : isListChar c = true) (hopener : isOpener c = true) :
    c = '<' := by
  obtain ⟨b, rfl⟩ := Bracket.exists_opener hopener
  cases b with
  | angle => rfl
  | round | square | curly => exact absurd h (by decide)

theorem closer_of_isListChar {c : Char} (h : isListChar c = true) (hcloser : isCloser c = true) :
    c = '>' := by
  obtain ⟨b, rfl⟩ := Bracket.exists_closer hcloser
  cases b with
  | angle => rfl
  | round | square | curly => exact absurd h (by decide)

theorem Gap.isListChar (g : Gap) : ∀ c ∈ g.text, isListChar c = true :=
  fun c hc => isListChar_of_isBlank (g.ofBlanks c hc)

theorem TypeUse.print_isListChar (u : TypeUse) : ∀ c ∈ u.print, isListChar c = true := by
  intro c hc
  rcases List.mem_append.mp hc with hname | harguments
  · exact isListChar_of_isWord (u.name.ofWords c hname)
  · cases hu : u.arguments with
    | none =>
        rw [hu] at harguments
        exact absurd harguments List.not_mem_nil
    | some a =>
        rw [hu] at harguments
        have hprint : c ∈ a.gap.text ++ '<' :: (a.text ++ ['>']) := harguments
        simp only [List.mem_append, List.mem_cons, List.not_mem_nil, or_false] at hprint
        rcases hprint with hgap | rfl | htext | rfl
        · exact a.gap.isListChar c hgap
        · rfl
        · exact a.ofList c htext
        · rfl

theorem TypeList.print_isListChar (l : TypeList) : ∀ c ∈ l.print, isListChar c = true := by
  intro c hc
  rcases List.mem_append.mp hc with hfirst | hothers
  · exact l.first.print_isListChar c hfirst
  · obtain ⟨n, -, hn⟩ := List.mem_flatMap.mp hothers
    rw [NextType.print] at hn
    rcases List.mem_append.mp hn with hbefore | hn
    · exact n.before.isListChar c hbefore
    · rcases List.mem_cons.mp hn with rfl | hn
      · rfl
      · rcases List.mem_append.mp hn with hafter | htype
        · exact n.after.isListChar c hafter
        · exact n.type.print_isListChar c htype

/-- Names and blanks are part of one piece of a list. -/
theorem pieces_plain {s : List Char} (h : ∀ c ∈ s, isWord c = true ∨ isBlank c = true)
    (t : List Char) : pieces ',' 0 (s ++ t) = prepend s (pieces ',' 0 t) := by
  refine pieces_of_plain 0 t fun c hc => ?_
  have hlist : isListChar c = true := (h c hc).elim isListChar_of_isWord isListChar_of_isBlank
  have hne : ∀ {d}, isWord d = false → isBlank d = false → c ≠ d := by
    rintro d hword hblank rfl
    rcases h c hc with h | h
    · exact Bool.false_ne_true (hword.symm.trans h)
    · exact Bool.false_ne_true (hblank.symm.trans h)
  refine ⟨isQuote_of_isListChar hlist, ?_, ?_, hne (by decide) (by decide)⟩
  · refine Bool.eq_false_iff.mpr fun hopener => ?_
    exact hne (by decide) (by decide) (opener_of_isListChar hlist hopener)
  · refine Bool.eq_false_iff.mpr fun hcloser => ?_
    exact hne (by decide) (by decide) (closer_of_isListChar hlist hcloser)

theorem Gap.pieces (g : Gap) (t : List Char) :
    pieces ',' 0 (g.text ++ t) = prepend g.text (pieces ',' 0 t) :=
  pieces_plain (fun c hc => Or.inr (g.ofBlanks c hc)) t

/-- The commas inside arguments do not count. -/
theorem TypeArguments.pieces (a : TypeArguments) (t : List Char) :
    pieces ',' 0 (a.print ++ t) = prepend a.print (pieces ',' 0 t) := by
  have hnested : ∀ c ∈ a.text, isQuote c = false ∧ (isOpener c = true → c = Bracket.angle.opener)
      ∧ (isCloser c = true → c = Bracket.angle.closer) := by
    intro c hc
    have hlist := a.ofList c hc
    exact ⟨isQuote_of_isListChar hlist, opener_of_isListChar hlist, closer_of_isListChar hlist⟩
  have htext : a.print ++ t = a.gap.text ++ Bracket.angle.opener ::
      (a.text ++ Bracket.angle.closer :: t) := by
    simp [TypeArguments.print, Bracket.opener, Bracket.closer]
  rw [htext, a.gap.pieces, pieces_opener, pieces_of_nested _ hnested a.balanced, pieces_closer,
    prepend_prepend, prepend_prepend, prepend_prepend]
  simp [TypeArguments.print, Bracket.opener, Bracket.closer]

theorem TypeUse.pieces (u : TypeUse) (t : List Char) :
    pieces ',' 0 (u.print ++ t) = prepend u.print (pieces ',' 0 t) := by
  rw [TypeUse.print, List.append_assoc,
    pieces_plain fun c hc => Or.inl (u.name.ofWords c hc)]
  cases u.arguments with
  | none =>
      rw [printArguments, Option.map_none, Option.getD_none, List.nil_append, List.append_nil]
  | some a =>
      rw [printArguments, Option.map_some, Option.getD_some, a.pieces, prepend_prepend]

/-! ## Where print starts and ends -/

theorem forall_head?_cons {p : Char → Bool} {c : Char} (hc : p c = false) (s : List Char) :
    ∀ d ∈ (c :: s).head?, p d = false :=
  fun d hd => Option.some.inj (show some c = some d from hd) ▸ hc

theorem forall_getLast?_of_eq {p : Char → Bool} {s : List Char} (c : Char)
    (h : s.getLast? = some c ∧ p c = false) : ∀ d ∈ s.getLast?, p d = false :=
  fun _ hd => Option.some.inj (h.1.symm.trans hd) ▸ h.2

theorem TypeUse.print_head (u : TypeUse) (t : List Char) :
    ∀ c ∈ (u.print ++ t).head?, isWord c = true := by
  rw [TypeUse.print, List.append_assoc]
  exact forall_head?_append u.name.nonempty u.name.ofWords _

theorem TypeUse.print_ne_nil (u : TypeUse) : u.print ≠ [] :=
  List.append_ne_nil_of_left_ne_nil u.name.nonempty _

theorem TypeUse.print_last (u : TypeUse) : ∀ c ∈ u.print.getLast?, isBlank c = false := by
  intro c hc
  rw [TypeUse.print] at hc
  cases harguments : u.arguments with
  | none =>
      rw [harguments, printArguments, Option.map_none, Option.getD_none, List.append_nil] at hc
      exact isBlank_of_isWord (u.name.ofWords c (List.mem_of_getLast? hc))
  | some a =>
      rw [harguments, printArguments, Option.map_some, Option.getD_some, TypeArguments.print,
        ← List.cons_append, ← List.append_assoc, ← List.append_assoc, List.getLast?_concat] at hc
      exact Option.some.inj hc ▸ rfl

theorem NextType.print_last (n : NextType) : ∀ c ∈ n.print.getLast?, isBlank c = false := by
  intro c hc
  rw [NextType.print, ← List.cons_append, ← List.append_assoc,
    List.getLast?_append_of_ne_nil _ n.type.print_ne_nil] at hc
  exact n.type.print_last c hc

theorem TypeList.print_ne_nil (l : TypeList) : l.print ≠ [] :=
  List.append_ne_nil_of_left_ne_nil l.first.print_ne_nil _

theorem TypeList.print_head (l : TypeList) (t : List Char) :
    ∀ c ∈ (l.print ++ t).head?, isWord c = true := by
  rw [TypeList.print, List.append_assoc]
  exact l.first.print_head _

theorem TypeList.print_last (l : TypeList) : ∀ c ∈ l.print.getLast?, isBlank c = false := by
  obtain ⟨first, others⟩ := l
  cases others using List.reverseRecOn with
  | nil =>
      rw [print, List.flatMap_nil, List.append_nil]
      exact first.print_last
  | append_singleton others n =>
      have hne : n.print ≠ [] := List.append_ne_nil_of_right_ne_nil _ (List.cons_ne_nil _ _)
      rw [print, List.flatMap_append, List.flatMap_singleton, ← List.append_assoc,
        List.getLast?_append_of_ne_nil _ hne]
      exact n.print_last

/-- No name goes on at a space. -/
theorem Space.head_append (g : Space) (rest : List Char) :
    ∀ c ∈ (g.text ++ rest).head?, isDottedWord c = false := by
  refine forall_head?_append g.nonempty (fun c hc => Bool.eq_false_iff.mpr fun h => ?_) rest
  exact Bool.false_ne_true ((isBlank_of_isDottedWord h).symm.trans (g.ofBlanks c hc))

theorem Gap.head_append (g : Gap) {rest : List Char}
    (hrest : ∀ c ∈ rest.head?, isDottedWord c = false) :
    ∀ c ∈ (g.text ++ rest).head?, isDottedWord c = false := by
  by_cases hg : g.text = []
  · rw [hg]
    exact hrest
  · exact Space.head_append ⟨g, hg⟩ rest

theorem Gap.head_append_cons (g : Gap) (c : Char) (t : List Char) :
    ∀ d ∈ (g.text ++ c :: t).head?, isBlank d = true ∨ d = c := by
  obtain ⟨gap, hgap⟩ := g
  cases gap with
  | nil => exact fun d hd => Or.inr (Option.some.inj hd).symm
  | cons e gap => exact fun d hd => Or.inl (Option.some.inj hd ▸ hgap e List.mem_cons_self)

/-- What may stand after a name may stand after the arguments that the name has. -/
theorem printArguments_head (arguments : Option TypeArguments) {rest : List Char}
    (hrest : ∀ c ∈ rest.head?, isDottedWord c = false) :
    ∀ c ∈ (printArguments arguments ++ rest).head?, isDottedWord c = false := by
  cases arguments with
  | none => exact hrest
  | some a =>
      have hprint : printArguments (some a) ++ rest
          = a.gap.text ++ '<' :: (a.text ++ ['>'] ++ rest) := by
        simp [printArguments, TypeArguments.print]
      rw [hprint]
      exact a.gap.head_append (forall_head?_cons rfl _)

/-! ## Trimming -/

theorem trim_gap_append (g : Gap) (s : List Char) : trim (g.text ++ s) = trim s := by
  have hgap := trim_between g.ofBlanks isGap_nil s
  rwa [List.append_nil] at hgap

theorem trim_append_gap {s : List Char} (hhead : ∀ c ∈ s.head?, isBlank c = false)
    (hlast : ∀ c ∈ s.getLast?, isBlank c = false) (g : Gap) : trim (s ++ g.text) = s := by
  have hgap := trim_between isGap_nil g.ofBlanks s
  rw [List.nil_append] at hgap
  rw [hgap, trim_eq_self hhead hlast]

theorem TypeUse.trim_print (u : TypeUse) (g : Gap) : trim (u.print ++ g.text) = u.print := by
  refine trim_append_gap (fun c hc => isBlank_of_isWord ?_) u.print_last g
  exact u.print_head [] c (by rwa [List.append_nil])

/-! ## A list and its types -/

theorem map_trim_prepend_gap (g : Gap) {pieces : List (List Char)} (h : pieces ≠ []) :
    (prepend g.text pieces).map trim = pieces.map trim := by
  obtain ⟨piece, pieces, rfl⟩ := List.exists_cons_of_ne_nil h
  rw [prepend, List.map_cons, List.map_cons, trim_gap_append]

theorem map_trim_pieces (others : List NextType) (g : Gap) :
    ∀ u : TypeUse, (pieces ',' 0 (u.print ++ (others.flatMap NextType.print ++ g.text))).map trim
      = u.print :: others.map fun n => n.type.print := by
  induction others with
  | nil =>
      intro u
      have hend : pieces ',' 0 g.text = [g.text] := by
        have hgap := g.pieces []
        rw [List.append_nil, Source.pieces] at hgap
        rw [hgap, prepend, List.append_nil]
      rw [u.pieces, List.flatMap_nil, List.nil_append, hend, prepend, List.map_singleton,
        u.trim_print]
      rfl
  | cons n others ih =>
      intro u
      have htext : (n :: others).flatMap NextType.print ++ g.text
          = n.before.text ++ ',' :: (n.after.text ++ (n.type.print
            ++ (others.flatMap NextType.print ++ g.text))) := by
        simp [NextType.print]
      rw [htext, u.pieces, n.before.pieces, pieces_separator rfl rfl rfl, n.after.pieces,
        prepend_prepend, prepend, List.append_nil, List.map_cons, u.trim_print,
        map_trim_prepend_gap _ (pieces_ne_nil _ _ _), ih, List.map_cons]

/-- **A list of types, split at its commas, gives back its types.** -/
theorem TypeList.parts_print (l : TypeList) (g : Gap) :
    parts (l.print ++ g.text) = l.types.map TypeUse.print := by
  have hmap : (pieces ',' 0 (l.print ++ g.text)).map trim = l.types.map TypeUse.print := by
    rw [TypeList.print, List.append_assoc, map_trim_pieces, types, List.map_cons, List.map_map]
    rfl
  rw [parts, partsAt, hmap, List.filter_eq_self]
  intro s hs
  obtain ⟨u, -, rfl⟩ := List.mem_map.mp hs
  simp [u.print_ne_nil]

theorem parts_nil : parts [] = [] := by
  rw [parts, partsAt, Source.pieces]
  rfl

/-! ## A type and its name -/

theorem startsWith_typeArguments : typeArguments.StartsWith '<' := by
  rintro _ _ _ ⟨_, _, rfl, ⟨_, _, rfl, hopener, -⟩, -⟩
  rw [takes_lit.mp hopener]
  rfl

/-- The arguments of a type are taken up to the last bracket. -/
theorem matchHere?_typeArguments (a : TypeArguments) (limit : Nat) (before : Option Char)
    (index : Nat) :
    typeArguments.matchHere? limit ⟨before, '<' :: (a.text ++ ['>']), index, []⟩
      = some ⟨⟨index, index + (a.text.length + 2), '<' :: (a.text ++ ['>'])⟩, []⟩ := by
  have hopener : (lit "<").TakesFirst limit ⟨before, '<' :: (a.text ++ ['>']), index, []⟩ ['<']
      (a.text ++ ['>']) [] := takesFirst_lit rfl
  have hline : ∀ c ∈ a.text ++ ['>'], (c != '\n') = true := by
    intro c hc
    rw [bne_iff_ne]
    rintro rfl
    rcases List.mem_append.mp hc with hc | hc
    · exact a.oneLine hc
    · exact absurd hc (by decide)
  have hrest : (many (· != '\n') ++ char (· == '>')).TakesFirst limit
      (Place.after ⟨before, '<' :: (a.text ++ ['>']), index, []⟩ ['<'] (a.text ++ ['>']) [])
      (a.text ++ ['>']) ([] ++ []) [] :=
    takesFirst_many_char rfl hline List.not_mem_nil fun _ h => nomatch h
  have htakes : typeArguments.TakesFirst limit ⟨before, '<' :: (a.text ++ ['>']), index, []⟩
      (['<'] ++ (a.text ++ ['>'])) [] [] := takesFirst_append_assoc.mpr (hopener.append hrest)
  have hlength : (['<'] ++ (a.text ++ ['>'])).length = a.text.length + 2 := by simp
  rw [matchHere?_of_takesFirst htakes, hlength]
  rfl

theorem findAll_typeArguments {front : List Char} (hfront : '<' ∉ front) (a : TypeArguments) :
    typeArguments.findAll (front ++ '<' :: (a.text ++ ['>']))
      = [⟨⟨front.length, front.length + (a.text.length + 2), '<' :: (a.text ++ ['>'])⟩, []⟩] := by
  rw [findAll]
  generalize (front ++ '<' :: (a.text ++ ['>'])).length = limit
  have hmatch : typeArguments.allFrom limit 0 (lastOr none front) front.length
        (('<' :: (a.text ++ ['>'])) ++ [])
      = ⟨⟨front.length, front.length + (a.text.length + 2), '<' :: (a.text ++ ['>'])⟩, []⟩ :: _ :=
    allFrom_of_matchHere? (List.cons_ne_nil _ _)
      (by rw [List.append_nil]; exact matchHere?_typeArguments a limit _ _)
      (by rw [List.length_cons, List.length_append]; rfl)
  rw [startsWith_typeArguments.allFrom_eq_nil List.not_mem_nil, List.append_nil] at hmatch
  rw [startsWith_typeArguments.allFrom_append hfront, Nat.zero_add, hmatch]

/-- **A type without its arguments is its name.** -/
theorem TypeUse.withoutArguments_print (u : TypeUse) : withoutArguments u.print = u.name.text := by
  have hname : '<' ∉ u.name.text := fun h => absurd (u.name.ofWords _ h) (by decide)
  have hvisible : ∀ c ∈ u.name.text, isBlank c = false :=
    fun c hc => isBlank_of_isWord (u.name.ofWords c hc)
  have htrim : ∀ g : Gap, trim (u.name.text ++ g.text) = u.name.text :=
    trim_append_gap (fun c hc => hvisible c (List.mem_of_head? hc))
      fun c hc => hvisible c (List.mem_of_getLast? hc)
  rw [withoutArguments, replaceAll, TypeUse.print]
  cases u.arguments with
  | none =>
      have hnone : typeArguments.findAll u.name.text = [] :=
        startsWith_typeArguments.allFrom_eq_nil hname
      have hgap := htrim noGap
      rw [noGap, List.append_nil] at hgap
      rw [printArguments, Option.map_none, Option.getD_none, List.append_nil, hnone, substitute,
        hgap]
  | some a =>
      have hfront : '<' ∉ u.name.text ++ a.gap.text := by
        intro h
        rcases List.mem_append.mp h with h | h
        · exact hname h
        · exact absurd (a.gap.ofBlanks _ h) (by decide)
      rw [printArguments, Option.map_some, Option.getD_some, TypeArguments.print,
        ← List.append_assoc, findAll_typeArguments hfront]
      have hwhole : (u.name.text ++ a.gap.text ++ '<' :: (a.text ++ ['>'])).length
          = (u.name.text ++ a.gap.text).length + (a.text.length + 2) := by
        simp only [List.length_append, List.length_cons, List.length_nil]
      show trim (List.take (u.name.text ++ a.gap.text).length _ ++ []
        ++ List.drop ((u.name.text ++ a.gap.text).length + (a.text.length + 2)) _) = _
      rw [List.take_left, ← hwhole, List.drop_length, List.append_nil, List.append_nil, htrim]

end ServiceMap.Link
