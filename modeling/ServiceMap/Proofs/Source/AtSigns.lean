import ServiceMap.Proofs.Pattern.FirstWay
import ServiceMap.Proofs.Pattern.Segments
import ServiceMap.Proofs.Source.Groups
import ServiceMap.Proofs.Source.Marks
import ServiceMap.Proofs.Source.Positions
import ServiceMap.Proofs.Source.Stretches
import ServiceMap.Source.Annotation

/-!
# At signs

What the search for annotations reads of a text, whatever the text is. At each at sign before a name
it reads one text, up to the end of a group if one follows, and what it reads in a first part of a
text depends on the second part only through such groups. Of all that is read, what is part of an
earlier text, and not all of it, is left out.
-/

namespace ServiceMap.Source

open Text Pattern

/-! ## One at sign -/

/-- A text by the name at its start and the blanks after it. -/
structure NameSplit (s name gap rest : List Char) : Prop where
  text : s = name ++ (gap ++ rest)
  ofName : ∀ c ∈ name, isDottedWord c = true
  nameEnds : ∀ c ∈ (gap ++ rest).head?, isDottedWord c = false
  ofGap : IsGap gap
  gapEnds : ∀ c ∈ rest.head?, isBlank c = false

theorem exists_nameSplit (s : List Char) : ∃ name gap rest, NameSplit s name gap rest := by
  have hends : ∀ (p : Char → Bool) (s : List Char), ∀ c ∈ (s.dropWhile p).head?, p c = false := by
    intro p s c hc
    have hhead := List.head?_dropWhile_not p s
    rwa [Option.mem_def.mp hc] at hhead
  refine ⟨s.takeWhile isDottedWord, (s.dropWhile isDottedWord).takeWhile isBlank,
    (s.dropWhile isDottedWord).dropWhile isBlank, ?_, ?_, ?_, ?_, hends _ _⟩
  · rw [List.takeWhile_append_dropWhile, List.takeWhile_append_dropWhile]
  · exact fun c hc => List.all_eq_true.mp List.all_takeWhile c hc
  · rw [List.takeWhile_append_dropWhile]
    exact hends _ _
  · exact fun c hc => List.all_eq_true.mp List.all_takeWhile c hc

/-- The text that is read at an at sign, before its blanks are collapsed: a name that starts with
`initial`, and a group if a parenthesis follows. -/
def readText (initial : Char) (s : List Char) : List Char :=
  let name := s.takeWhile isDottedWord
  let after := s.dropWhile isDottedWord
  let gap := after.takeWhile isBlank
  match after.dropWhile isBlank with
  | '(' :: inner =>
    '@' :: initial
      :: (name ++ (gap ++ '(' :: inner.take ((Bracket.round.closing? 1 inner).getD inner.length)))
  | _ => '@' :: initial :: name

/-- The texts that are read, one for each at sign before a name. -/
def readTexts : List Char → List (List Char)
  | c :: d :: s =>
    if c == '@' && isNameStart d then readText d s :: readTexts (d :: s) else readTexts (d :: s)
  | _ => []

section One

variable (initial : Char) {s name gap rest inner : List Char}

theorem readText_call (h : NameSplit s name gap ('(' :: inner)) :
    readText initial s = '@' :: initial
      :: (name ++ (gap ++ '(' :: inner.take ((Bracket.round.closing? 1 inner).getD inner.length))) := by
  obtain ⟨hname, hafter⟩ := span_append h.ofName h.nameEnds
  obtain ⟨hgap, hrest⟩ := span_append h.ofGap h.gapEnds
  rw [h.text, readText]
  simp only [hname, hafter, hgap, hrest]

/-- A group that ends in a first part of the text is read up to its end. -/
theorem readText_closed {t : List Char} (h : NameSplit s name gap ('(' :: (inner ++ t)))
    (hclosed : (Bracket.round.closing? 1 inner).isSome = true) :
    ∃ inside outside, inner = inside ++ ')' :: outside
      ∧ readText initial s = '@' :: (initial :: (name ++ (gap ++ '(' :: inside)) ++ [')']) := by
  obtain ⟨n, hn⟩ := Option.isSome_iff_exists.mp hclosed
  obtain ⟨inside, outside, hinner, rfl⟩ : ∃ inside outside, inner = inside ++ ')' :: outside
      ∧ n = inside.length + 1 := closer_of_closing? .round 1 _ hn
  have htext : inner ++ t = (inside ++ [')']) ++ (outside ++ t) := by simp [hinner]
  refine ⟨inside, outside, hinner, ?_⟩
  rw [readText_call initial h, Bracket.closing?_append_of_eq_some t hn, Option.getD_some, htext,
    List.take_left' (by simp)]
  simp

theorem readText_plain (h : NameSplit s name gap rest) (hcall : rest.head? ≠ some '(') :
    readText initial s = '@' :: initial :: name := by
  obtain ⟨hname, hafter⟩ := span_append h.ofName h.nameEnds
  obtain ⟨-, hrest⟩ := span_append h.ofGap h.gapEnds
  rw [h.text, readText]
  simp only [hname, hafter, hrest]
  split
  · exact absurd rfl hcall
  · rfl

/-- A group ends where its bracket is closed, or else with the text. -/
theorem groupEnd_opener (b : Bracket) (pre inner : List Char) :
    groupEnd (pre ++ b.opener :: inner) pre.length
      = .ok (pre.length + (1 + (b.closing? 1 inner).getD inner.length)) := by
  rw [groupEnd, List.drop_left]
  simp only [b.ofOpener?_opener]
  cases b.closing? 1 inner with
  | some n => exact congrArg Except.ok (Nat.add_assoc _ _ _)
  | none =>
      refine congrArg Except.ok ?_
      show (pre ++ b.opener :: inner).length = _
      rw [List.length_append, List.length_cons, Option.getD_none, Nat.add_comm inner.length]

theorem groupEnd_call (done : List Char) (h : NameSplit s name gap ('(' :: inner)) :
    ∃ stop, groupEnd (done ++ '@' :: initial :: s) (done.length + (name.length + 2) + gap.length)
        = .ok stop
      ∧ slice (done ++ '@' :: initial :: s) done.length stop = readText initial s := by
  let k := (Bracket.round.closing? 1 inner).getD inner.length
  refine ⟨done.length + (name.length + 2) + gap.length + (1 + k), ?_, ?_⟩
  · have hindex : (done ++ '@' :: initial :: (name ++ gap)).length
        = done.length + (name.length + 2) + gap.length := by
      simp only [List.length_append, List.length_cons]
      omega
    have hopener : done ++ '@' :: initial :: s
        = (done ++ '@' :: initial :: (name ++ gap)) ++ Bracket.round.opener :: inner := by
      rw [h.text, List.append_assoc, List.cons_append, List.cons_append, List.append_assoc]
      rfl
    rw [hopener, ← hindex]
    exact groupEnd_opener .round _ inner
  · have hread := readText_call initial h
    have hk : (inner.take k).length = k := by
      rw [List.length_take]
      exact Nat.min_eq_left (Bracket.round.closing?_getD_le inner)
    have hlength : done.length + (readText initial s).length
        = done.length + (name.length + 2) + gap.length + (1 + k) := by
      rw [hread]
      simp only [List.length_append, List.length_cons, hk, k]
      omega
    have htext : '@' :: initial :: s = readText initial s ++ inner.drop k := by
      rw [hread, h.text]
      simp only [List.cons_append, List.append_assoc, List.take_append_drop, k]
    have hmiddle := slice_middle done (readText initial s) (inner.drop k)
    rwa [hlength, ← htext] at hmiddle

theorem annotationAt_of_gap {region : List Char} {m : Match} (hregion : region.drop m.stop = gap ++ rest)
    (hgap : IsGap gap) (hrest : ∀ c ∈ rest.head?, isBlank c = false) :
    annotationAt region m
      = if rest.head? == some '(' then
          (groupEnd region (m.stop + gap.length)).map fun stop =>
            collapseBlanks (slice region m.start stop)
        else .ok m.text := by
  obtain ⟨htake, -⟩ := span_append hgap hrest
  simp only [annotationAt, hregion, htake, List.drop_left]

variable {initial}

theorem no_blank_of_name (hinitial : isDottedWord initial = true)
    (hname : ∀ c ∈ name, isDottedWord c = true) : ∀ c ∈ '@' :: initial :: name, isBlank c = false := by
  intro c hc
  rcases List.mem_cons.mp hc with rfl | hc
  · rfl
  · rcases List.mem_cons.mp hc with rfl | hc
    · exact isBlank_of_isDottedWord hinitial
    · exact isBlank_of_isDottedWord (hname c hc)

/-- What is read at an at sign, as the text that is read there. -/
theorem annotationAt_eq (done : List Char) (h : NameSplit s name gap rest)
    (hinitial : isDottedWord initial = true) {m : Match} (hstart : m.start = done.length)
    (hstop : m.stop = done.length + (name.length + 2)) (htext : m.text = '@' :: initial :: name) :
    annotationAt (done ++ '@' :: initial :: s) m = .ok (collapseBlanks (readText initial s)) := by
  have hdrop : (done ++ '@' :: initial :: s).drop m.stop = gap ++ rest := by
    have hname : (done ++ '@' :: initial :: name).length = m.stop := by
      rw [hstop, List.length_append, List.length_cons, List.length_cons]
    rw [h.text, ← hname, ← List.cons_append, ← List.cons_append, ← List.append_assoc]
    exact List.drop_left
  rw [annotationAt_of_gap hdrop h.ofGap h.gapEnds]
  by_cases hcall : rest.head? = some '('
  · obtain ⟨inner, rfl⟩ := List.head?_eq_some_iff.mp hcall
    obtain ⟨stop, hend, hslice⟩ := groupEnd_call initial done h
    rw [if_pos (beq_iff_eq.mpr hcall), hstop, hend, hstart]
    exact congrArg (fun text => Except.ok (collapseBlanks text)) hslice
  · rw [if_neg (mt beq_iff_eq.mp hcall), readText_plain initial h hcall, htext,
      collapseBlanks_of_no_blank (no_blank_of_name hinitial h.ofName)]

end One

theorem toNat_lt_of_isAlpha {c : Char} (h : c.isAlpha = true) : c.toNat < 128 := by
  rcases (Bool.or_eq_true _ _).mp h with hupper | hlower
  · have hle : c.val ≤ 'Z'.val := (of_decide_eq_true hupper).2
    exact Nat.lt_of_le_of_lt (UInt32.le_iff_toNat_le.mp hle) (by decide)
  · have hle : c.val ≤ 'z'.val := of_decide_eq_true ((Bool.and_eq_true _ _).mp hlower).2
    exact Nat.lt_of_le_of_lt (UInt32.le_iff_toNat_le.mp hle) (by decide)

theorem isDottedWord_of_isNameStart {c : Char} (h : isNameStart c = true) :
    isDottedWord c = true := by
  rw [isNameStart, Bool.or_eq_true, beq_iff_eq] at h
  rcases h with h | rfl
  · have halphanum : c.isAlphanum = true := (Bool.or_eq_true _ _).mpr (Or.inl h)
    exact isDottedWord_of_isWord (isWord_of_isAlphanum halphanum (toNat_lt_of_isAlpha h))
  · rfl

/-! ## All at signs of a text -/

theorem takesFirst_atName {limit index : Nat} {before : Option Char} {initial : Char}
    {s name gap rest : List Char} (hinitial : isNameStart initial = true)
    (h : NameSplit s name gap rest) :
    atName.TakesFirst limit ⟨before, '@' :: initial :: s, index, []⟩ ('@' :: initial :: name)
      (gap ++ rest) [] := by
  have hat : (lit "@").TakesFirst limit ⟨before, '@' :: initial :: s, index, []⟩ "@".toList
      (initial :: s) [] := takesFirst_lit rfl
  have hchar : (char isNameStart).TakesFirst limit
      (Place.after ⟨before, '@' :: initial :: s, index, []⟩ "@".toList (initial :: s) [])
      [initial] s [] := takesFirst_char rfl hinitial
  exact (hat.append hchar).append (takesFirst_many h.text h.ofName h.nameEnds)

/-- No annotation is read at the start of a text. -/
def StartsNone (s : List Char) : Prop :=
  ∀ initial t, s = '@' :: initial :: t → isNameStart initial = false

theorem exists_of_not_startsNone {s : List Char} (h : ¬StartsNone s) :
    ∃ initial t, s = '@' :: initial :: t ∧ isNameStart initial = true := by
  by_contra hnone
  exact h fun initial t hs => Bool.eq_false_iff.mpr fun hinitial => hnone ⟨initial, t, hs, hinitial⟩

theorem matchHere?_atName_eq_none {limit index : Nat} {before : Option Char} {s : List Char}
    (h : StartsNone s) : atName.matchHere? limit ⟨before, s, index, []⟩ = none := by
  refine Option.eq_none_iff_forall_ne_some.mpr fun m hm => ?_
  obtain ⟨taken, rest, htext, ⟨_, name, rfl, ⟨_, _, rfl, hat, initial, hinitial, rfl⟩, -⟩, -⟩ :=
    takes_of_matchHere? hm
  rw [takes_lit.mp hat, List.append_assoc, List.append_assoc] at htext
  exact Bool.false_ne_true ((h initial (name ++ rest) htext).symm.trans hinitial)

theorem readTexts_of_startsNone {c : Char} {s : List Char} (h : StartsNone (c :: s)) :
    readTexts (c :: s) = readTexts s := by
  cases s with
  | nil => rfl
  | cons d s =>
      refine if_neg fun hstart => ?_
      obtain ⟨hat, hinitial⟩ := Bool.and_eq_true_iff.mp hstart
      obtain rfl := beq_iff_eq.mp hat
      exact Bool.false_ne_true ((h d s rfl).symm.trans hinitial)

theorem readTexts_append_of_not_mem {s : List Char} (h : '@' ∉ s) (t : List Char) :
    readTexts (s ++ t) = readTexts t := by
  induction s with
  | nil => rfl
  | cons c s ih =>
      have hstart : StartsNone (c :: (s ++ t)) :=
        fun _ _ heq => absurd ((List.cons.inj heq).1 ▸ List.mem_cons_self) h
      exact (readTexts_of_startsNone hstart).trans (ih fun hmem => h (List.mem_cons_of_mem c hmem))

theorem at_notMem_of_name {s : List Char} (h : ∀ c ∈ s, isDottedWord c = true) : '@' ∉ s :=
  fun hmem => absurd (h '@' hmem) (by decide)

section Step

variable {initial : Char} {s name gap rest : List Char} (hinitial : isNameStart initial = true)
  (h : NameSplit s name gap rest)
include hinitial h

theorem readTexts_at :
    readTexts ('@' :: initial :: s) = readText initial s :: readTexts (gap ++ rest) := by
  have hname : ∀ c ∈ initial :: name, isDottedWord c = true := by
    intro c hc
    rcases List.mem_cons.mp hc with rfl | hc
    · exact isDottedWord_of_isNameStart hinitial
    · exact h.ofName c hc
  have hskip : readTexts (initial :: s) = readTexts (gap ++ rest) := by
    rw [h.text, ← List.cons_append]
    exact readTexts_append_of_not_mem (at_notMem_of_name hname) _
  rw [readTexts, if_pos (by simp [hinitial]), hskip]

/-- The match at an at sign, and then those behind the name. -/
theorem allFrom_at (limit index : Nat) (before : Option Char) :
    ∃ m : Match, m.start = index ∧ m.stop = index + (name.length + 2)
      ∧ m.text = '@' :: initial :: name
      ∧ atName.allFrom limit 0 before index ('@' :: initial :: s)
        = m :: atName.allFrom limit 0 (lastOr before ('@' :: initial :: name))
            (index + (name.length + 2)) (gap ++ rest) := by
  have htext : '@' :: initial :: s = ('@' :: initial :: name) ++ (gap ++ rest) := by
    rw [h.text, List.cons_append, List.cons_append]
  have hmatch : atName.matchHere? limit ⟨before, '@' :: initial :: s, index, []⟩
      = some ⟨⟨index, index + (name.length + 2), '@' :: initial :: s⟩, []⟩ :=
    matchHere?_of_takesFirst (takesFirst_atName hinitial h)
  refine ⟨⟨⟨index, index + (name.length + 2), '@' :: initial :: s⟩, []⟩, rfl, rfl, ?_, ?_⟩
  · show List.take (index + (name.length + 2) - index) ('@' :: initial :: s) = _
    rw [Nat.add_sub_cancel_left, htext]
    exact List.take_left' rfl
  · rw [htext] at hmatch ⊢
    exact allFrom_of_matchHere? (List.cons_ne_nil '@' (initial :: name)) hmatch rfl

end Step

/-- The search reads at each at sign before a name. -/
theorem mapM_allFrom_atName (limit : Nat) (s : List Char) (done : List Char)
    (before : Option Char) :
    (atName.allFrom limit 0 before done.length s).mapM (annotationAt (done ++ s))
      = .ok ((readTexts s).map collapseBlanks) := by
  by_cases h : StartsNone s
  · have hnone : atName.matchHere? limit ⟨before, s, done.length, []⟩ = none :=
      matchHere?_atName_eq_none h
    cases s with
    | nil =>
        rw [allFrom, if_neg (Nat.not_lt_zero _), hnone]
        rfl
    | cons c s =>
        have hrest := mapM_allFrom_atName limit s (done ++ [c]) (some c)
        rw [List.length_append, List.length_singleton, List.append_assoc] at hrest
        rw [allFrom, if_neg (Nat.not_lt_zero _), hnone, readTexts_of_startsNone h]
        exact hrest
  · obtain ⟨initial, t, hs, hinitial⟩ := exists_of_not_startsNone h
    obtain ⟨name, gap, rest, hsplit⟩ := exists_nameSplit t
    obtain ⟨m, hstart, hstop, htext, hfound⟩ := allFrom_at hinitial hsplit limit done.length before
    have hone := annotationAt_eq done hsplit (isDottedWord_of_isNameStart hinitial) hstart hstop htext
    have hlength : (gap ++ rest).length < s.length := by
      rw [hs, hsplit.text]
      simp only [List.length_append, List.length_cons]
      omega
    have hrest := mapM_allFrom_atName limit (gap ++ rest) (done ++ '@' :: initial :: name)
      (lastOr before ('@' :: initial :: name))
    have hdone : done ++ '@' :: initial :: name ++ (gap ++ rest) = done ++ '@' :: initial :: t := by
      rw [hsplit.text, List.append_assoc, List.cons_append, List.cons_append]
    have hend : (done ++ '@' :: initial :: name).length = done.length + (name.length + 2) :=
      List.length_append
    rw [hdone, hend] at hrest
    rw [hs, hfound, List.mapM_cons, hone, hrest, readTexts_at hinitial hsplit]
    rfl
termination_by s.length
decreasing_by
  · exact Nat.lt_succ_self _
  · exact hlength

theorem readAnnotations_eq (region : List Char) :
    readAnnotations region = .ok (dropNested ((readTexts region).map collapseBlanks)) := by
  have hread := mapM_allFrom_atName region.length region [] none
  rw [readAnnotations]
  show ((atName.allFrom region.length 0 none 0 region).mapM (annotationAt region)).map _ = _
  rw [show (atName.allFrom region.length 0 none 0 region).mapM (annotationAt region) = _ from hread]
  rfl

/-- What is read at the at signs of a first part, and then what is read of the second part. -/
theorem readTexts_append (s t : List Char) :
    ∃ inner, readTexts (s ++ t) = inner ++ readTexts t
      ∧ ∀ m ∈ inner, ∃ front back initial u, s = front ++ '@' :: back ∧ back ++ t = initial :: u
        ∧ isNameStart initial = true ∧ m = readText initial u := by
  induction s with
  | nil => exact ⟨[], rfl, fun m hm => absurd hm List.not_mem_nil⟩
  | cons c s ih =>
      obtain ⟨inner, hinner, hread⟩ := ih
      have hlater : ∀ m ∈ inner, ∃ front back initial u, c :: s = front ++ '@' :: back
          ∧ back ++ t = initial :: u ∧ isNameStart initial = true ∧ m = readText initial u := by
        intro m hm
        obtain ⟨front, back, initial, u, rfl, hmore⟩ := hread m hm
        exact ⟨c :: front, back, initial, u, rfl, hmore⟩
      by_cases h : StartsNone (c :: (s ++ t))
      · exact ⟨inner, (readTexts_of_startsNone h).trans hinner, hlater⟩
      · obtain ⟨initial, u, htext, hinitial⟩ := exists_of_not_startsNone h
        obtain ⟨rfl, hrest⟩ := List.cons.inj htext
        refine ⟨readText initial u :: inner, ?_, fun m hm => ?_⟩
        · rw [List.cons_append, hrest, List.cons_append, ← hinner, hrest]
          exact if_pos (by simp [hinitial])
        · rcases List.mem_cons.mp hm with rfl | hm
          · exact ⟨[], s, initial, u, rfl, hrest, hinitial, rfl⟩
          · exact hlater m hm

/-! ## Parts of other texts -/

/-- A text that occurs in another one and is not all of it. -/
def IsPartOf (part whole : List Char) : Prop :=
  part <:+: whole ∧ part ≠ whole

instance (part whole : List Char) : Decidable (IsPartOf part whole) :=
  inferInstanceAs (Decidable (_ ∧ _))

theorem IsPartOf.trans {s t u : List Char} (h : IsPartOf s t) (h' : IsPartOf t u) :
    IsPartOf s u := by
  refine ⟨h.1.trans h'.1, ?_⟩
  rintro rfl
  exact h.2 (h.1.eq_of_length_le h'.1.length_le)

theorem isWithin_iff {needle s : List Char} : isWithin needle s = true ↔ needle <:+: s := by
  constructor
  · intro h
    obtain ⟨i, hi⟩ := Option.isSome_iff_exists.mp h
    exact (prefix_of_find? hi).isInfix.trans (List.drop_suffix i s).isInfix
  · intro h
    rw [isWithin]
    induction s with
    | nil =>
        obtain rfl := List.infix_nil.mp h
        rfl
    | cons c s ih =>
        rw [Text.find?]
        split
        · rfl
        · rename_i hprefix
          rw [Option.isSome_map]
          refine ih ((List.infix_cons_iff.mp h).resolve_left fun hstart => ?_)
          exact hprefix (List.isPrefixOf_iff_prefix.mpr hstart)

/-- A mark is added to those that are kept, unless it is part of one of them. -/
def addUnlessPart (kept : List (List Char)) (mark : List Char) : List (List Char) :=
  if kept.any fun other => mark != other && isWithin mark other then kept else kept ++ [mark]

theorem dropNested_eq (list : List (List Char)) : dropNested list = list.foldl addUnlessPart [] :=
  rfl

section Kept

variable {kept list : List (List Char)} {mark : List Char}

theorem any_part_iff : (kept.any fun other => mark != other && isWithin mark other) = true
    ↔ ∃ other ∈ kept, IsPartOf mark other := by
  simp only [List.any_eq_true, Bool.and_eq_true, bne_iff_ne, isWithin_iff, IsPartOf, and_comm]

theorem addUnlessPart_of_part (h : ∃ other ∈ kept, IsPartOf mark other) :
    addUnlessPart kept mark = kept :=
  if_pos (any_part_iff.mpr h)

theorem addUnlessPart_of_no_part (h : ¬∃ other ∈ kept, IsPartOf mark other) :
    addUnlessPart kept mark = kept ++ [mark] :=
  if_neg (mt any_part_iff.mp h)

/-- What has been dealt with is part of what is kept, or it is all of it. -/
theorem exists_whole (kept : List (List Char)) (mark : List Char) :
    ∃ other ∈ addUnlessPart kept mark, mark = other ∨ IsPartOf mark other := by
  by_cases h : ∃ other ∈ kept, IsPartOf mark other
  · rw [addUnlessPart_of_part h]
    obtain ⟨other, hother, hpart⟩ := h
    exact ⟨other, hother, Or.inr hpart⟩
  · rw [addUnlessPart_of_no_part h]
    exact ⟨mark, List.mem_append_right _ (List.mem_singleton.mpr rfl), Or.inl rfl⟩

theorem foldl_of_parts (h : ∀ m ∈ list, ∃ other ∈ kept, IsPartOf m other) :
    list.foldl addUnlessPart kept = kept := by
  induction list with
  | nil => rfl
  | cons m list ih =>
      rw [List.foldl_cons, addUnlessPart_of_part (h m List.mem_cons_self)]
      exact ih fun n hn => h n (List.mem_cons_of_mem m hn)

theorem foldl_sublist : (list.foldl addUnlessPart kept).Sublist (kept ++ list) := by
  induction list generalizing kept with
  | nil => exact (List.append_nil kept).symm ▸ List.Sublist.refl kept
  | cons mark list ih =>
      rw [List.foldl_cons]
      by_cases h : ∃ other ∈ kept, IsPartOf mark other
      · rw [addUnlessPart_of_part h]
        exact ih.trans ((List.sublist_cons_self mark list).append_left kept)
      · rw [addUnlessPart_of_no_part h]
        have hrest := @ih (kept ++ [mark])
        rwa [List.append_assoc] at hrest

theorem foldl_eq_append_iff :
    list.foldl addUnlessPart kept = kept ++ list
      ↔ (∀ mark ∈ list, ¬∃ other ∈ kept, IsPartOf mark other)
        ∧ list.Pairwise fun earlier later => ¬IsPartOf later earlier := by
  induction list generalizing kept with
  | nil => simp
  | cons mark list ih =>
      rw [List.foldl_cons, List.pairwise_cons]
      by_cases h : ∃ other ∈ kept, IsPartOf mark other
      · -- the mark is left out, so that there are too few
        rw [addUnlessPart_of_part h]
        refine iff_of_false (fun heq => ?_) fun hall => hall.1 mark List.mem_cons_self h
        have hlength : (list.foldl addUnlessPart kept).length ≤ (kept ++ list).length :=
          foldl_sublist.length_le
        rw [heq, List.length_append, List.length_append, List.length_cons] at hlength
        omega
      · rw [addUnlessPart_of_no_part h, show kept ++ mark :: list = (kept ++ [mark]) ++ list by simp,
          ih]
        constructor
        · rintro ⟨hkept, hlist⟩
          refine ⟨fun m hm => ?_, fun later hlater hpart => ?_, hlist⟩
          · rcases List.mem_cons.mp hm with rfl | hm
            · exact h
            · rintro ⟨other, hother, hpart⟩
              exact hkept m hm ⟨other, List.mem_append_left _ hother, hpart⟩
          · exact hkept later hlater ⟨mark, by simp, hpart⟩
        · rintro ⟨hkept, hmark, hlist⟩
          refine ⟨fun m hm => ?_, hlist⟩
          rintro ⟨other, hother, hpart⟩
          rcases List.mem_append.mp hother with hother | hother
          · exact hkept m (List.mem_cons_of_mem mark hm) ⟨other, hother, hpart⟩
          · exact hmark m hm (List.mem_singleton.mp hother ▸ hpart)

end Kept

end ServiceMap.Source
