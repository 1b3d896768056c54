import ServiceMap.Proofs.Facts.SameCode
import ServiceMap.Proofs.Pattern.Meaning
import ServiceMap.Proofs.Source.Fallible

/-!
# Positions that are asked about

A source is read by position: groups are followed from their openers, preambles are read backwards
from declarations, comments are read off the lines above. Each position comes from something that
was found in the text, so that none of these readers fails.
-/

namespace ServiceMap

/-! ## Texts within texts -/

namespace Text

theorem prefix_of_find? {needle : List Char} {s : List Char} :
    ∀ {i : Nat}, find? needle s = some i → needle <+: s.drop i := by
  induction s with
  | nil =>
      intro i h
      unfold find? at h
      split at h
      · rename_i hempty
        rw [List.isEmpty_iff.mp hempty]
        exact List.nil_prefix
      · exact nomatch h
  | cons c s ih =>
      intro i h
      unfold find? at h
      split at h
      · rename_i hprefix
        obtain rfl := Option.some.inj h
        exact List.isPrefixOf_iff_prefix.mp hprefix
      · obtain ⟨j, hj, rfl⟩ := Option.map_eq_some_iff.mp h
        exact ih hj

theorem drop_of_find? {c : Char} {s : List Char} {i : Nat} (h : find? [c] s = some i) :
    ∃ rest, s.drop i = c :: rest := by
  obtain ⟨rest, hrest⟩ := prefix_of_find? h
  exact ⟨rest, hrest.symm⟩

theorem find?_isSome_of_mem {c : Char} {s : List Char} (h : c ∈ s) :
    ∃ i, find? [c] s = some i := by
  induction s with
  | nil => exact absurd h List.not_mem_nil
  | cons d s ih =>
      unfold find?
      by_cases hd : c = d
      · exact ⟨0, if_pos (by simp [hd])⟩
      · obtain ⟨i, hi⟩ := ih ((List.mem_cons.mp h).resolve_left hd)
        exact ⟨i + 1, by rw [if_neg (by simp [hd]), hi]; rfl⟩

theorem drop_of_findFrom? {c : Char} {text : List Char} {start i : Nat}
    (h : findFrom? [c] text start = some i) : ∃ rest, text.drop i = c :: rest := by
  obtain ⟨j, hj, rfl⟩ := Option.map_eq_some_iff.mp h
  obtain ⟨rest, hrest⟩ := drop_of_find? hj
  refine ⟨rest, ?_⟩
  rw [← hrest, List.drop_drop, Nat.add_comm]

theorem lt_length_of_drop {text rest : List Char} {c : Char} {i : Nat}
    (h : text.drop i = c :: rest) : i < text.length :=
  Nat.lt_of_not_le fun hle => nomatch (List.drop_eq_nil_of_le hle).symm.trans h

theorem slice_within (text : List Char) (start stop : Nat) : slice text start stop <:+: text :=
  (List.drop_suffix start _).isInfix.trans (List.take_prefix stop text).isInfix

end Text

/-! ## Matches within a text -/

/-- A match that lies in a text of this length, with all that is remembered. -/
structure Match.Within (length : Nat) (m : Match) : Prop where
  start : m.start ≤ length
  captures : ∀ entry ∈ m.captures, entry.2.start ≤ length

theorem Match.Within.groupStart {length : Nat} {m : Match} (h : m.Within length) (slot : Nat) :
    m.groupStart slot ≤ length := by
  rcases m.groupStart_mem slot with hstart | ⟨entry, hentry, hstart⟩
  · exact hstart ▸ h.start
  · rw [hstart]
    exact h.captures entry hentry

namespace Pattern

/-- A place that leaves room for the text after it. -/
def IsWithin (length : Nat) (p : Place) : Prop :=
  p.index + p.rest.length ≤ length ∧ ∀ entry ∈ p.captures, entry.2.start ≤ length

theorem isWithin_keptByMoves (length : Nat) : Place.KeptByMoves (IsWithin length) where
  next := by
    intro p c rest hp hrest
    refine ⟨?_, hp.2⟩
    have hindex := hp.1
    rw [hrest, List.length_cons] at hindex
    show p.index + 1 + rest.length ≤ length
    omega
  remember := by
    intro p slot begun hp hbegun
    refine ⟨hp.1, fun entry hentry => ?_⟩
    rcases List.mem_cons.mp hentry with rfl | hentry
    · exact Nat.le_trans (Nat.le_add_right _ _) hbegun.1
    · exact hp.2 entry hentry

theorem within_of_matchHere? {pattern : Pattern} {limit length : Nat} {here : Place} {m : Match}
    (hhere : IsWithin length here) (h : pattern.matchHere? limit here = some m) :
    m.Within length := by
  obtain ⟨last, hrun, rfl⟩ := Option.map_eq_some_iff.mp h
  obtain ⟨q, hq, hlast⟩ :=
    run_kept (isWithin_keptByMoves length) limit pattern here _ last hrun hhere
  obtain rfl := Option.some.inj hlast
  exact ⟨Nat.le_trans (Nat.le_add_right _ _) hhere.1, hq.2⟩

theorem within_of_mem_allFrom {pattern : Pattern} {limit resume length index : Nat}
    {before : Option Char} {rest : List Char} {m : Match} (hindex : index + rest.length ≤ length)
    (hm : m ∈ pattern.allFrom limit resume before index rest) : m.Within length := by
  obtain ⟨done, more, rfl, hmatch⟩ := split_of_mem_allFrom rest hm
  refine within_of_matchHere? ⟨?_, fun _ h => absurd h List.not_mem_nil⟩ hmatch
  rw [List.length_append] at hindex
  show index + done.length + more.length ≤ length
  omega

theorem within_of_mem_findAll {pattern : Pattern} {text : List Char} {m : Match}
    (hm : m ∈ pattern.findAll text) : m.Within text.length :=
  within_of_mem_allFrom (Nat.le_of_eq (Nat.zero_add _)) hm

theorem within_of_mem_findBetween {pattern : Pattern} {text : List Char} {start stop : Nat}
    {m : Match} (hstart : start ≤ text.length) (hm : m ∈ pattern.findBetween text start stop) :
    m.Within text.length := by
  refine within_of_mem_allFrom ?_ hm
  rw [List.length_drop, List.length_take]
  omega

/-- The last character of the leftmost match of a pattern that ends in a character of a class. -/
theorem last_of_find? {before : Pattern} {accepts : Char → Bool} {text : List Char} {m : Match}
    (h : (before ++ char accepts).find? text = some m) :
    ∃ c rest, text.drop (m.stop - 1) = c :: rest ∧ accepts c = true := by
  obtain ⟨done, more, rfl, hmatch⟩ := split_of_firstFrom? text h
  obtain ⟨taken, rest, hrest, ⟨s, _, rfl, -, c, hc, rfl⟩, -, hstop⟩ := takes_of_matchHere? hmatch
  dsimp only at hrest hstop
  refine ⟨c, rest, ?_, hc⟩
  have hindex : m.stop - 1 = done.length + s.length := by
    rw [hstop, List.length_append, List.length_singleton]
    omega
  rw [hindex, hrest, List.append_assoc, ← List.append_assoc, ← List.length_append]
  exact List.drop_left

end Pattern

/-! ## Groups -/

namespace Source

open Text Pattern

/-- The end of a group can be asked for where a bracket opens, and nowhere else. -/
theorem groupEnd_isOk_iff {text : List Char} {index : Nat} :
    (∃ stop, groupEnd text index = .ok stop)
      ↔ ∃ c rest, text.drop index = c :: rest ∧ isOpener c = true := by
  constructor
  · rintro ⟨stop, h⟩
    unfold groupEnd at h
    split at h
    · cases h
    · rename_i c rest htext
      split at h
      · cases h
      · rename_i b hb
        exact ⟨c, rest, htext, Option.isSome_iff_exists.mpr ⟨b, hb⟩⟩
  · rintro ⟨c, rest, htext, hc⟩
    obtain ⟨b, hb⟩ := Option.isSome_iff_exists.mp hc
    rw [groupEnd, htext]
    simp only [hb]
    exact ⟨_, rfl⟩

theorem groupEnd_neverFails {text rest : List Char} {index : Nat} {c : Char}
    (htext : text.drop index = c :: rest) (hc : isOpener c = true) :
    NeverFails (groupEnd text index) :=
  neverFails_iff.mpr (groupEnd_isOk_iff.mpr ⟨c, rest, htext, hc⟩)

theorem group_neverFails {text rest : List Char} {index : Nat} {c : Char}
    (htext : text.drop index = c :: rest) (hc : isOpener c = true) :
    NeverFails (group text index) :=
  (groupEnd_neverFails htext hc).map _

/-- A group is a stretch of the text. -/
theorem group_within {text inside : List Char} {index stop : Nat}
    (h : group text index = .ok (inside, stop)) : inside <:+: text := by
  unfold group at h
  cases hend : groupEnd text index with
  | error fault =>
      rw [hend] at h
      exact nomatch h
  | ok found =>
      rw [hend] at h
      obtain ⟨rfl, -⟩ := Prod.mk.inj (Except.ok.inj h)
      exact slice_within text _ _

/-! ## Annotations and preambles -/

theorem annotationArguments_neverFails (mark : List Char) :
    NeverFails (annotationArguments mark) := by
  unfold annotationArguments
  split
  · exact FailsOnly.ok _
  · rename_i index hindex
    obtain ⟨rest, hrest⟩ := drop_of_find? hindex
    exact (group_neverFails hrest (by decide)).map _

/-- The arguments of an annotation start with a parenthesis after its name. -/
theorem annotationAt_neverFails (region : List Char) (m : Match) :
    NeverFails (annotationAt region m) := by
  rw [annotationAt]
  split
  · rename_i hopen
    obtain ⟨rest, hrest⟩ := List.head?_eq_some_iff.mp (beq_iff_eq.mp hopen)
    rw [List.drop_drop] at hrest
    exact (groupEnd_neverFails hrest (by decide)).map _
  · exact FailsOnly.ok _

theorem readAnnotations_neverFails (region : List Char) : NeverFails (readAnnotations region) :=
  (FailsOnly.mapM fun m _ => annotationAt_neverFails region m).map _

/-- A way of reading preambles that reads every region. -/
def PreambleStyle.IsTotal (style : PreambleStyle) : Prop :=
  ∀ region, NeverFails (style.annotations region)

theorem annotatedStyle_isTotal : annotatedStyle.IsTotal := readAnnotations_neverFails

theorem attributedStyle_isTotal : attributedStyle.IsTotal := fun _ => FailsOnly.ok _

theorem readPreamble_neverFails {style : PreambleStyle} (hstyle : style.IsTotal)
    (text : List Char) {masked : List Char} {index : Nat} (hindex : index ≤ masked.length) :
    NeverFails (readPreamble style text masked index) := by
  rw [readPreamble, preambleStart, if_neg (Nat.not_lt_of_le hindex)]
  refine FailsOnly.bind (FailsOnly.ok _) fun start _ => ?_
  rw [readRegion]
  exact FailsOnly.bind (hstyle _) fun annotations _ => FailsOnly.pure _

/-! ## Lines -/

/-- A source with a line above the line of every position. -/
def SourceText.HasLines (s : SourceText) : Prop :=
  ∀ (read : List Char → Option (List Char)) (index : Nat),
    NeverFails (commentAbove read s.lines (s.lineNumber index))

theorem hasLines_ofText (rawQuote : Option Char) (text : List Char) :
    (SourceText.ofText rawQuote text).HasLines := by
  intro read index
  have hline : lineNumber (maskComments rawQuote text) index ≤ newlines text + 1 := by
    rw [← newlines_maskComments]
    exact lineNumber_le _ index
  have hlines := newlines_le_length_lines text
  rw [commentAbove, if_neg]
  · exact FailsOnly.ok _
  · show ¬(lines text).length + 1 < lineNumber (maskComments rawQuote text) index
    omega

end Source

end ServiceMap
