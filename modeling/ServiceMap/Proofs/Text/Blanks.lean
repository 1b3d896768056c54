import Mathlib.Data.List.Chain
import Mathlib.Data.List.DropRight
import Mathlib.Data.List.TakeWhile
import ServiceMap.Proofs.Text.Names

/-!
# Blanks

A text is its core between characters of a class: at neither end of the core a character of the class
stands. Blanks are such a class. Gaps of blanks, labels of names and blanks, texts without blanks at
their ends, and texts whose blanks are single spaces already. Collapsing the blanks of a text collapses
those of its parts, where no stretch of blanks lies across the point at which the parts meet.
-/

namespace ServiceMap.Text

/-! ## The core of a text -/

section Core

variable {p : Char → Bool} {s : List Char}

theorem dropRight_append_of_all {back : List Char} (hback : ∀ c ∈ back, p c = true) (s : List Char) :
    dropRight p (s ++ back) = dropRight p s := by
  rw [dropRight, dropRight, List.reverse_append,
    List.dropWhile_append_of_pos fun c hc => hback c (List.mem_reverse.mp hc)]

theorem dropRight_eq_self (h : ∀ c ∈ s.getLast?, p c = false) : dropRight p s = s := by
  rw [dropRight, dropWhile_eq_self (by simpa using h), List.reverse_reverse]

theorem head_dropLeft (p : Char → Bool) (s : List Char) :
    ∀ c ∈ (dropLeft p s).head?, p c = false := by
  intro c hc
  have hnot := List.head?_dropWhile_not p s
  rw [show (s.dropWhile p).head? = some c from hc] at hnot
  simpa using hnot

theorem getLast_dropRight (p : Char → Bool) (s : List Char) :
    ∀ c ∈ (dropRight p s).getLast?, p c = false := by
  intro c hc
  rw [dropRight, List.getLast?_reverse] at hc
  exact head_dropLeft p s.reverse c hc

/-- What stands at the front of a text stays there while something is left. -/
theorem mem_head?_of_dropRight {c : Char} (h : c ∈ (dropRight p s).head?) : c ∈ s.head? := by
  obtain ⟨back, hback⟩ : dropRight p s <+: s := List.rdropWhile_prefix p s
  obtain ⟨rest, hrest⟩ := List.head?_eq_some_iff.mp h
  rw [← hback, hrest]
  rfl

/-- **The core of a text.** What is dropped at either end is of the class. -/
theorem exists_ends (p : Char → Bool) (s : List Char) :
    ∃ front back, s = front ++ (dropRight p (dropLeft p s) ++ back) ∧ (∀ c ∈ front, p c = true)
      ∧ ∀ c ∈ back, p c = true := by
  refine ⟨s.takeWhile p, (dropLeft p s).rtakeWhile p, ?_, fun c hc => List.mem_takeWhile_imp hc,
    fun c hc => List.mem_rtakeWhile_imp hc⟩
  have hback : dropRight p (dropLeft p s) ++ (dropLeft p s).rtakeWhile p = dropLeft p s :=
    List.rdropWhile_append_rtakeWhile
  rw [hback]
  exact List.takeWhile_append_dropWhile.symm

end Core

/-! ## Gaps and labels -/

/-- Blanks, or nothing. -/
def IsGap (s : List Char) : Prop :=
  ∀ c ∈ s, isBlank c = true

instance (s : List Char) : Decidable (IsGap s) :=
  List.decidableBAll _ s

theorem isGap_nil : IsGap [] :=
  fun _ hc => nomatch hc

theorem IsGap.not_mem {s : List Char} {c : Char} (h : IsGap s) (hc : isBlank c = false) : c ∉ s :=
  fun hmem => Bool.false_ne_true (hc.symm.trans (h c hmem))

/-- Names, dots and blanks. -/
def IsLabel (s : List Char) : Prop :=
  ∀ c ∈ s, isDottedWord c = true ∨ isBlank c = true

theorem IsGap.isLabel {s : List Char} (h : IsGap s) : IsLabel s :=
  fun c hc => Or.inr (h c hc)

theorem IsLabel.append {s t : List Char} (hs : IsLabel s) (ht : IsLabel t) : IsLabel (s ++ t) :=
  fun c hc => (List.mem_append.mp hc).elim (hs c) (ht c)

theorem IsLabel.ne {s : List Char} {c d : Char} (h : IsLabel s) (hc : c ∈ s)
    (hd : isDottedWord d = false ∧ isBlank d = false) : c ≠ d := by
  rintro rfl
  rcases h c hc with h | h
  · exact Bool.false_ne_true (hd.1.symm.trans h)
  · exact Bool.false_ne_true (hd.2.symm.trans h)

/-! ## Ends -/

/-- A text that starts and ends with characters that are not blank. -/
structure IsTrimmed (s : List Char) : Prop where
  nonempty : s ≠ []
  head : ∀ c ∈ s.head?, isBlank c = false
  last : ∀ c ∈ s.getLast?, isBlank c = false

theorem IsTrimmed.trim_eq {s : List Char} (h : IsTrimmed s) : trim s = s :=
  trim_eq_self h.head h.last

theorem isTrimmed_word {s : List Char} (h : s ≠ [] ∧ ∀ c ∈ s, isBlank c = false) : IsTrimmed s where
  nonempty := h.1
  head := fun c hc => h.2 c (List.mem_of_head? hc)
  last := fun c hc => h.2 c (List.mem_of_getLast? hc)

theorem IsTrimmed.around {s t : List Char} (hs : IsTrimmed s) (between : List Char)
    (ht : IsTrimmed t) : IsTrimmed (s ++ between ++ t) := by
  obtain ⟨c, s, rfl⟩ := List.exists_cons_of_ne_nil hs.nonempty
  refine ⟨List.cons_ne_nil _ _, hs.head, ?_⟩
  rw [List.getLast?_append, List.getLast?_eq_some_getLast ht.nonempty, Option.some_or]
  exact fun d hd => ht.last d (by rwa [List.getLast?_eq_some_getLast ht.nonempty])

theorem isTrimmed_enclosed {c d : Char} (s : List Char) (hc : isBlank c = false)
    (hd : isBlank d = false) : IsTrimmed (c :: (s ++ [d])) :=
  (isTrimmed_word (s := [c]) (by simp [hc])).around s (isTrimmed_word (s := [d]) (by simp [hd]))

/-- A text is its trimmed form between blanks. -/
theorem exists_trim (s : List Char) :
    ∃ front back, s = front ++ trim s ++ back ∧ IsGap front ∧ IsGap back := by
  obtain ⟨front, back, hs, hfront, hback⟩ := exists_ends isBlank s
  exact ⟨front, back, by rw [List.append_assoc]; exact hs, hfront, hback⟩

theorem mem_of_mem_trim {c : Char} {s : List Char} (h : c ∈ trim s) : c ∈ s := by
  obtain ⟨front, back, hs, -, -⟩ := exists_trim s
  rw [hs]
  exact List.mem_append_left _ (List.mem_append_right _ h)

/-- Trimming takes nothing away but blanks. -/
theorem mem_trim {c : Char} {s : List Char} (h : c ∈ s) (hc : isBlank c = false) : c ∈ trim s := by
  obtain ⟨front, back, hs, hfront, hback⟩ := exists_trim s
  rw [hs] at h
  rcases List.mem_append.mp h with h | h
  · rcases List.mem_append.mp h with h | h
    · exact absurd (hc.symm.trans (hfront c h)) Bool.false_ne_true
    · exact h
  · exact absurd (hc.symm.trans (hback c h)) Bool.false_ne_true

theorem trimRight_append {back : List Char} (hback : IsGap back) (s : List Char) :
    trimRight (s ++ back) = trimRight s :=
  dropRight_append_of_all hback s

/-- Blanks at the ends of a text do not count. -/
theorem trim_between {front back : List Char} (hfront : IsGap front) (hback : IsGap back)
    (s : List Char) : trim (front ++ s ++ back) = trim s := by
  rw [trim, trim, trimLeft, trimLeft, dropLeft, dropLeft, List.append_assoc,
    List.dropWhile_append_of_pos hfront, List.dropWhile_append]
  split
  · rename_i hempty
    rw [List.dropWhile_eq_nil_iff.mpr hback, List.isEmpty_iff.mp hempty]
  · exact trimRight_append hback _

theorem trim_gap {s : List Char} (h : IsGap s) : trim s = [] := by
  have hnone := trim_between h isGap_nil []
  rwa [List.append_nil, List.append_nil] at hnone

/-- A trimmed text starts with no blank. -/
theorem head_trim (s : List Char) : ∀ c ∈ (trim s).head?, isBlank c = false :=
  fun c hc => head_dropLeft isBlank s c (mem_head?_of_dropRight hc)

/-! ## Single spaces -/

/-- A text whose blanks are single spaces. -/
structure IsSpaced (s : List Char) : Prop where
  spaces : ∀ c ∈ s, isBlank c = true → c = ' '
  single : s.IsChain fun c d => isBlank c = true → isBlank d = false

theorem collapseBlanks_of_isSpaced {s : List Char} (h : IsSpaced s) : collapseBlanks s = s := by
  induction s with
  | nil => rfl
  | cons c s ih =>
      have hrest := ih
        ⟨fun d hd => h.spaces d (List.mem_cons_of_mem c hd), (List.isChain_cons.mp h.single).2⟩
      rw [collapseBlanks.eq_def]
      by_cases hc : isBlank c = true
      · obtain rfl := h.spaces c List.mem_cons_self hc
        cases s with
        | nil => rfl
        | cons d s =>
            have hd : isBlank d = false := (List.isChain_cons.mp h.single).1 d rfl hc
            simp [hc, hd, hrest]
      · simp [hc, hrest]

theorem isSpaced_of_forall {s : List Char} (h : ∀ c ∈ s, isBlank c = false) : IsSpaced s where
  spaces := fun c hc hblank => absurd (h c hc ▸ hblank) Bool.false_ne_true
  single := (List.isChain_isInfix s).imp fun c d hpair _ =>
    h d (hpair.subset (List.mem_cons_of_mem c List.mem_cons_self))

/-- Spaced texts side by side are spaced if one of them is not blank where they meet. -/
theorem IsSpaced.append {s t : List Char} (hs : IsSpaced s) (ht : IsSpaced t)
    (h : (∀ c ∈ s.getLast?, isBlank c = false) ∨ ∀ c ∈ t.head?, isBlank c = false) :
    IsSpaced (s ++ t) where
  spaces := fun c hc => (List.mem_append.mp hc).elim (hs.spaces c) (ht.spaces c)
  single := by
    refine List.isChain_append.mpr ⟨hs.single, ht.single, fun c hc d hd hblank => ?_⟩
    rcases h with h | h
    · exact absurd ((h c hc).symm.trans hblank) Bool.false_ne_true
    · exact h d hd

theorem isSpaced_bracket {c : Char} (hc : isBlank c = false) : IsSpaced [c] :=
  isSpaced_of_forall fun _ hd => List.mem_singleton.mp hd ▸ hc

/-! ## Collapsed parts -/

theorem collapseBlanks_of_no_blank {s : List Char} (h : ∀ c ∈ s, isBlank c = false) :
    collapseBlanks s = s :=
  collapseBlanks_of_isSpaced (isSpaced_of_forall h)

/-- Parts are collapsed one by one if one of them is not blank where they meet. -/
theorem collapseBlanks_append {s t : List Char}
    (h : (∀ c ∈ s.getLast?, isBlank c = false) ∨ ∀ c ∈ t.head?, isBlank c = false) :
    collapseBlanks (s ++ t) = collapseBlanks s ++ collapseBlanks t := by
  induction s with
  | nil => rfl
  | cons c s ih =>
      cases s with
      | nil =>
          rw [List.singleton_append, collapseBlanks.eq_def]
          by_cases hc : isBlank c = true
          · have hhead : ∀ d ∈ t.head?, isBlank d = false :=
              h.resolve_left fun hlast => Bool.false_ne_true ((hlast c rfl).symm.trans hc)
            cases t with
            | nil => simp [collapseBlanks, hc]
            | cons d t => simp [collapseBlanks, hc, hhead d rfl]
          · simp [collapseBlanks, hc]
      | cons d s =>
          have hrest := ih (h.imp_left fun hlast e he => hlast e (by rwa [List.getLast?_cons_cons]))
          rw [List.cons_append] at hrest
          rw [List.cons_append, List.cons_append, collapseBlanks.eq_def,
            collapseBlanks.eq_def (c :: d :: s)]
          by_cases hc : isBlank c = true
          · by_cases hd : isBlank d = true
            · simp [hc, hd, hrest]
            · simp [hc, hd, hrest]
          · simp [hc, hrest]

end ServiceMap.Text
