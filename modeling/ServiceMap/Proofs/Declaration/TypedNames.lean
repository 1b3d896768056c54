import ServiceMap.Proofs.Source.Stretches

/-!
# Types and names in print

A type with a name after it, as they stand in a declared parameter. Of a text that ends so, the last
word is the name, whatever stands before it, and the other words are those of the text up to the end of
the type.
-/

namespace ServiceMap.Declaration

open Text Source

/-! ## Words -/

/-- A visible character is in one of the words. -/
theorem exists_word {c : Char} (hc : isBlank c = false) {s : List Char} (h : c ∈ s) :
    ∃ w ∈ words s, c ∈ w := by
  suffices hpiece : ∃ w ∈ splitOn isBlank s, c ∈ w by
    obtain ⟨w, hw, hmem⟩ := hpiece
    refine ⟨w, List.mem_filter.mpr ⟨hw, ?_⟩, hmem⟩
    rw [Bool.not_eq_true', List.isEmpty_eq_false_iff]
    exact List.ne_nil_of_mem hmem
  induction s with
  | nil => exact absurd h List.not_mem_nil
  | cons d s ih =>
      cases hs : splitOn isBlank s with
      | nil => exact absurd hs (splitOn_ne_nil isBlank s)
      | cons piece pieces =>
          rw [hs] at ih
          rw [splitOn, hs]
          dsimp only
          rcases List.mem_cons.mp h with rfl | h
          · rw [if_neg (by simp [hc])]
            exact ⟨c :: piece, List.mem_cons_self, List.mem_cons_self⟩
          · obtain ⟨w, hw, hmem⟩ := ih h
            split
            · exact ⟨w, List.mem_cons_of_mem [] hw, hmem⟩
            · rcases List.mem_cons.mp hw with rfl | hw
              · exact ⟨d :: w, List.mem_cons_self, List.mem_cons_of_mem d hmem⟩
              · exact ⟨w, List.mem_cons_of_mem _ hw, hmem⟩

theorem mem_of_mem_words {c : Char} {s w : List Char} (hw : w ∈ words s) (hc : c ∈ w) : c ∈ s :=
  mem_of_mem_splitOn (List.mem_of_mem_filter hw) c hc

theorem mem_join_of_mem {separator s : List Char} {c : Char} (hc : c ∈ s) :
    ∀ {texts : List (List Char)}, s ∈ texts → c ∈ join separator texts
  | [], h => absurd h List.not_mem_nil
  | [t], h => List.mem_singleton.mp h ▸ hc
  | t :: u :: rest, h => by
      rw [join_cons_cons]
      rcases List.mem_cons.mp h with rfl | h
      · exact List.mem_append_left _ hc
      · exact List.mem_append_right _ (List.mem_append_right _ (mem_join_of_mem hc h))

/-- A visible character that is in some words of a text, put together, is in the text. -/
theorem mem_of_mem_join_words {c : Char} (hc : isBlank c = false) {s : List Char}
    {list : List (List Char)} (hlist : list ⊆ words s)
    (h : c ∈ join [' '] list) : c ∈ s := by
  rcases mem_join h with h | ⟨w, hw, hmem⟩
  · rw [List.mem_singleton.mp h] at hc
    exact absurd hc (by decide)
  · exact mem_of_mem_words (hlist hw) hmem

theorem words_append_gap {gap : List Char} (hgap : IsGap gap) (hparted : gap ≠ []) (s t : List Char) :
    words (s ++ (gap ++ t)) = words s ++ words t := by
  obtain ⟨c, gap, rfl⟩ := List.exists_cons_of_ne_nil hparted
  rw [words_eq_runs, List.cons_append, runs_append_cons (hgap c List.mem_cons_self),
    runs_append_of_all fun d hd => hgap d (List.mem_cons_of_mem c hd)]
  rfl

theorem words_append_of_gap {gap : List Char} (hgap : IsGap gap) (s : List Char) :
    words (s ++ gap) = words s := by
  by_cases hparted : gap = []
  · rw [hparted, List.append_nil]
  · have hwords := words_append_gap hgap hparted s []
    rw [List.append_nil] at hwords
    exact hwords.trans (List.append_nil _)

theorem words_gap_append {gap : List Char} (hgap : IsGap gap) (t : List Char) :
    words (gap ++ t) = words t :=
  runs_append_of_all hgap t

/-- Words end where a text ends with a blank. -/
theorem words_append {s : List Char} (h : ∀ c ∈ s.getLast?, isBlank c = true) (t : List Char) :
    words (s ++ t) = words s ++ words t := by
  rcases List.eq_nil_or_concat s with rfl | ⟨s, c, rfl⟩
  · rfl
  · have hc : IsGap [c] := fun d hd => List.mem_singleton.mp hd ▸ h c (by simp)
    rw [List.concat_eq_append, List.append_assoc, words_append_gap hc (List.cons_ne_nil c []),
      words_append_of_gap hc]

/-- What several words and a last one are when they are read from the end. -/
theorem reverse_of_words {front : List (List Char)} (hfront : front ≠ []) (name : List Char) :
    ∃ last before, (front ++ [name]).reverse = name :: last :: before
      ∧ (last :: before).reverse = front := by
  obtain ⟨last, before, hlast⟩ :=
    List.exists_cons_of_ne_nil (List.reverse_ne_nil_iff.mpr hfront)
  refine ⟨last, before, ?_, ?_⟩
  · rw [List.reverse_append, hlast]
    rfl
  · rw [← hlast, List.reverse_reverse]

/-- Names and blanks are part of one piece. -/
theorem staysWhole_label {s : List Char} (h : IsLabel s) : StaysWhole ',' 0 0 s := by
  refine staysWhole_plain fun c hc => ?_
  obtain ⟨hquote, hopener, hcloser, hcomma⟩ := plain_of_label h hc
  exact ⟨isQuote_of_not_isAnyQuote hquote, hopener, hcloser, hcomma⟩

/-! ## A type and a name -/

/-- A type and a name, with blanks between them. The type is part of one piece of a list. -/
structure TypedName where
  type : List Char
  trimmed : IsTrimmed type
  whole : StaysWhole ',' 0 0 type
  gap : List Char
  ofGap : IsGap gap
  parted : gap ≠ []
  name : List Char
  named : name ≠ []
  ofName : ∀ c ∈ name, isWord c = true

namespace TypedName

variable (t : TypedName)

def print : List Char :=
  t.type ++ (t.gap ++ t.name)

/-- The type, with its words put together by single spaces. -/
def collapsedType : List Char :=
  join [' '] (words t.type)

theorem no_blank_name : ∀ c ∈ t.name, isBlank c = false :=
  fun c hc => isBlank_of_isWord (t.ofName c hc)

theorem isTrimmed_print : IsTrimmed t.print := by
  rw [print, ← List.append_assoc]
  exact t.trimmed.around t.gap (isTrimmed_word ⟨t.named, t.no_blank_name⟩)

theorem isLabel_gap_name : IsLabel (t.gap ++ t.name) :=
  t.ofGap.isLabel.append fun c hc => Or.inl (isDottedWord_of_isWord (t.ofName c hc))

theorem staysWhole_print : StaysWhole ',' 0 0 t.print :=
  t.whole.append (staysWhole_label t.isLabel_gap_name) (Nat.le_refl 0)

theorem words_type_ne_nil : words t.type ≠ [] := by
  obtain ⟨c, s, hs⟩ := List.exists_cons_of_ne_nil t.trimmed.nonempty
  obtain ⟨w, hw, -⟩ := exists_word (t.trimmed.head c (by rw [hs]; rfl))
    (hs ▸ List.mem_cons_self : c ∈ t.type)
  exact List.ne_nil_of_mem hw

/-- The last word is the name. -/
theorem words_append_name (s : List Char) : words (s ++ (t.gap ++ t.name)) = words s ++ [t.name] := by
  rw [words_append_gap t.ofGap t.parted]
  exact congrArg _ (runs_of_all_not t.named t.no_blank_name)

theorem words_append_print (front : List Char) :
    words (front ++ t.print) = words (front ++ t.type) ++ [t.name] := by
  rw [print, ← List.append_assoc, t.words_append_name]

/-- A visible character of the type is in it when its words are put together. -/
theorem mem_collapsedType {c : Char} (hc : isBlank c = false) :
    c ∈ t.collapsedType ↔ c ∈ t.type := by
  refine ⟨mem_of_mem_join_words hc (List.Subset.refl _), fun h => ?_⟩
  obtain ⟨w, hw, hmem⟩ := exists_word hc h
  exact mem_join_of_mem hmem hw

end TypedName

end ServiceMap.Declaration
