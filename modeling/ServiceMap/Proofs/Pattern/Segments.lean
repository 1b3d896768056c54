import ServiceMap.Proofs.Pattern.Meaning

/-!
# Matches by segments

The matches of a text that is put together from segments. If no match that starts in a segment goes
beyond it, the matches of the whole are those of the segments. A pattern of whole lines matches at
the start of a line only.
-/

namespace ServiceMap.Pattern

variable {pattern : Pattern} {limit resume : Nat}

/-- Where the last match ended does not matter once it is passed. -/
theorem allFrom_of_le (rest : List Char) :
    ∀ {resume : Nat} {before : Option Char} {index : Nat}, resume ≤ index →
      pattern.allFrom limit resume before index rest
        = pattern.allFrom limit 0 before index rest := by
  induction rest with
  | nil =>
      intro resume before index h
      rw [allFrom, allFrom, if_neg (Nat.not_lt_of_le h), if_neg (Nat.not_lt_zero _)]
  | cons c rest ih =>
      intro resume before index h
      rw [allFrom, allFrom, if_neg (Nat.not_lt_of_le h), if_neg (Nat.not_lt_zero _),
        ih (Nat.le_succ_of_le h), ih (Nat.zero_le _)]

/-- The places before the end of the last match are passed over. -/
theorem allFrom_passed (s t : List Char) (before : Option Char) (index : Nat) :
    pattern.allFrom limit (index + s.length) before index (s ++ t)
      = pattern.allFrom limit 0 (lastOr before s) (index + s.length) t := by
  induction s generalizing before index with
  | nil => exact allFrom_of_le t (Nat.le_refl index)
  | cons c s ih =>
      rw [List.length_cons, Nat.add_comm s.length, ← Nat.add_assoc, List.cons_append, allFrom,
        if_pos (by omega), ih, lastOr_cons]

/-- A match at the start of a text is found, and the search goes on where it ends. -/
theorem allFrom_of_matchHere? {s t : List Char} {before : Option Char} {index : Nat} {m : Match}
    (hne : s ≠ []) (h : pattern.matchHere? limit ⟨before, s ++ t, index, []⟩ = some m)
    (hstop : m.stop = index + s.length) :
    pattern.allFrom limit 0 before index (s ++ t)
      = m :: pattern.allFrom limit 0 (lastOr before s) (index + s.length) t := by
  obtain ⟨c, s, rfl⟩ := List.exists_cons_of_ne_nil hne
  have hlength : m.stop = index + 1 + s.length := by
    rw [hstop, List.length_cons]
    omega
  rw [List.cons_append] at h ⊢
  rw [allFrom, if_neg (Nat.not_lt_zero _), h]
  dsimp only
  rw [hlength, allFrom_passed, lastOr_cons, List.length_cons, Nat.add_assoc, Nat.add_comm 1]

/-- Patterns that match alike find the same matches. -/
theorem allFrom_congr {p q : Pattern} (h : p.matchHere? = q.matchHere?) :
    p.allFrom = q.allFrom := by
  funext limit resume before index rest
  induction rest generalizing resume before index with
  | nil => rw [allFrom, allFrom, h]
  | cons c rest ih => simp only [allFrom, h, ih]

/-- The matches that start in a segment, if none of them goes beyond it, and then those of what
follows. -/
theorem allFrom_append {t : List Char} (s : List Char) :
    ∀ {resume : Nat} {before : Option Char} {index : Nat},
      (∀ d e m, s = d ++ e → e ≠ [] →
        pattern.matchHere? limit ⟨lastOr before d, e ++ t, index + d.length, []⟩ = some m →
          m.stop ≤ index + s.length) →
      resume ≤ index + s.length →
        ∃ found, pattern.allFrom limit resume before index (s ++ t)
            = found ++ pattern.allFrom limit 0 (lastOr before s) (index + s.length) t
          ∧ ∀ m ∈ found, ∃ d e, s = d ++ e ∧ e ≠ []
            ∧ pattern.matchHere? limit ⟨lastOr before d, e ++ t, index + d.length, []⟩
              = some m := by
  induction s with
  | nil =>
      intro resume before index _ hresume
      exact ⟨[], allFrom_of_le t hresume, fun m hm => absurd hm List.not_mem_nil⟩
  | cons c s ih =>
      intro resume before index hstop hresume
      have hlength : index + (c :: s).length = index + 1 + s.length := by
        rw [List.length_cons]
        omega
      -- what is known of the places of `c :: s` is known of those of `s`
      have place := fun d e => place_cons before c d (e ++ t) index
      have hlater : ∀ {resume : Nat}, resume ≤ index + (c :: s).length →
          ∃ found, pattern.allFrom limit resume (some c) (index + 1) (s ++ t)
              = found ++ pattern.allFrom limit 0 (lastOr before (c :: s))
                  (index + (c :: s).length) t
            ∧ ∀ m ∈ found, ∃ d e, c :: s = d ++ e ∧ e ≠ []
              ∧ pattern.matchHere? limit ⟨lastOr before d, e ++ t, index + d.length, []⟩
                = some m := by
        intro resume hresume
        rw [hlength] at hresume
        obtain ⟨found, hfound, hstarts⟩ := @ih resume (some c) (index + 1)
          (fun d e m hs he hm => hlength ▸ hstop (c :: d) e m (by rw [hs]; rfl) he (place d e ▸ hm))
          hresume
        refine ⟨found, ?_, fun m hm => ?_⟩
        · rw [hfound, lastOr_cons, hlength]
        · obtain ⟨d, e, hs, he, hmatch⟩ := hstarts m hm
          exact ⟨c :: d, e, by rw [hs]; rfl, he, place d e ▸ hmatch⟩
      show ∃ found, pattern.allFrom limit resume before index (c :: (s ++ t)) = _ ∧ _
      rw [allFrom]
      split
      · exact hlater hresume
      · split
        · rename_i m hm
          have hle := hstop [] (c :: s) m rfl (List.cons_ne_nil c s) hm
          obtain ⟨found, hfound, hstarts⟩ := hlater hle
          refine ⟨m :: found, by rw [hfound]; rfl, fun n hn => ?_⟩
          rcases List.mem_cons.mp hn with rfl | hn
          · exact ⟨[], c :: s, rfl, List.cons_ne_nil c s, hm⟩
          · exact hstarts n hn
        · exact hlater hresume

/-- A segment in which no match starts is passed over. -/
theorem allFrom_skip {s t : List Char} {before : Option Char} {index : Nat}
    (hnone : ∀ d e, s = d ++ e → e ≠ [] →
      pattern.matchHere? limit ⟨lastOr before d, e ++ t, index + d.length, []⟩ = none)
    (hresume : resume ≤ index + s.length) :
    pattern.allFrom limit resume before index (s ++ t)
      = pattern.allFrom limit 0 (lastOr before s) (index + s.length) t := by
  obtain ⟨found, hfound, hstarts⟩ := allFrom_append (t := t) s
    (fun d e m hs he hm => nomatch (hnone d e hs he).symm.trans hm) hresume
  cases found with
  | nil => exact hfound
  | cons m found =>
      obtain ⟨d, e, hs, he, hm⟩ := hstarts m List.mem_cons_self
      exact nomatch (hnone d e hs he).symm.trans hm

theorem allFrom_eq_nil {rest : List Char} {before : Option Char} {index : Nat}
    (hnone : ∀ d e, rest = d ++ e →
      pattern.matchHere? limit ⟨lastOr before d, e, index + d.length, []⟩ = none) :
    pattern.allFrom limit resume before index rest = [] := by
  refine List.eq_nil_iff_forall_not_mem.mpr fun m hm => ?_
  obtain ⟨d, e, hrest, hmatch⟩ := split_of_mem_allFrom rest hm
  exact nomatch (hnone d e hrest).symm.trans hmatch

/-- What a pattern finds in a stretch of a text that starts after a character. -/
theorem findBetween_middle (pattern : Pattern) (front : List Char) (c : Char) (s post : List Char) :
    pattern.findBetween ((front ++ [c]) ++ (s ++ post)) (front.length + 1)
        (front.length + 1 + s.length)
      = pattern.allFrom s.length 0 (some c) (front.length + 1) s := by
  have hrest : (((front ++ [c]) ++ (s ++ post)).take (front.length + 1 + s.length)).drop
      (front.length + 1) = s := by
    rw [← List.append_assoc, List.take_left' (by simp; omega), List.drop_left' (by simp)]
  have hbefore : ((front ++ [c]) ++ (s ++ post))[front.length + 1 - 1]? = some c := by
    rw [Nat.add_sub_cancel, List.append_assoc, List.getElem?_append_right (Nat.le_refl _),
      Nat.sub_self]
    rfl
  rw [findBetween, hrest, if_neg (Nat.succ_ne_zero _), hbefore]

/-! ## Marks -/

/-- A pattern that describes nothing but what starts with a mark. -/
def StartsWith (pattern : Pattern) (mark : Char) : Prop :=
  ∀ before taken rest, pattern.Takes before taken rest → taken.head? = some mark

section Marks

variable {mark : Char} {before : Option Char} {index : Nat}

theorem StartsWith.matchHere?_eq_none (h : pattern.StartsWith mark) {p : Place}
    (hhead : p.rest.head? ≠ some mark) : pattern.matchHere? limit p = none := by
  refine Option.eq_none_iff_forall_ne_some.mpr fun m hm => hhead ?_
  obtain ⟨taken, rest, htext, htakes, -, -⟩ := takes_of_matchHere? hm
  rw [htext, List.head?_append, h _ _ _ htakes]
  rfl

/-- A stretch without the mark is passed over. -/
theorem StartsWith.allFrom_append (h : pattern.StartsWith mark) {s : List Char} (hs : mark ∉ s)
    (t : List Char) :
    pattern.allFrom limit 0 before index (s ++ t)
      = pattern.allFrom limit 0 (lastOr before s) (index + s.length) t := by
  refine allFrom_skip (fun d e hde he => h.matchHere?_eq_none ?_) (Nat.zero_le _)
  obtain ⟨c, e, rfl⟩ := List.exists_cons_of_ne_nil he
  intro hc
  refine hs ?_
  rw [hde, ← Option.some.inj hc]
  exact List.mem_append_right d List.mem_cons_self

theorem StartsWith.allFrom_eq_nil (h : pattern.StartsWith mark) {rest : List Char}
    (hrest : mark ∉ rest) : pattern.allFrom limit 0 before index rest = [] := by
  refine Pattern.allFrom_eq_nil fun d e hde => h.matchHere?_eq_none fun hc => hrest ?_
  rw [hde]
  exact List.mem_append_right d (List.mem_of_head? hc)

end Marks

/-! ## Lines -/

/-- A pattern that describes nothing but what starts a line. -/
def StartsLine (pattern : Pattern) : Prop :=
  ∀ before taken rest, pattern.Takes before taken rest → before.all (· == '\n') = true

theorem matchHere?_eq_none_of_before {c : Char} (hpattern : pattern.StartsLine) {rest : List Char}
    {index : Nat} (hc : c ≠ '\n') :
    pattern.matchHere? limit ⟨some c, rest, index, []⟩ = none := by
  refine Option.eq_none_iff_forall_ne_some.mpr fun m hm => ?_
  obtain ⟨taken, more, -, htakes, -, -⟩ := takes_of_matchHere? hm
  exact hc (beq_iff_eq.mp (hpattern _ _ _ htakes))

/-- The matches that start in a line: the one at its start, if it does not go beyond the line. -/
theorem allFrom_line (hpattern : pattern.StartsLine) {line t : List Char} {before : Option Char}
    {index : Nat} (hline : '\n' ∉ line)
    (hstop : ∀ m, pattern.matchHere? limit ⟨before, line ++ '\n' :: t, index, []⟩ = some m →
      m.stop ≤ index + (line.length + 1)) :
    pattern.allFrom limit 0 before index (line ++ '\n' :: t)
      = (pattern.matchHere? limit ⟨before, line ++ '\n' :: t, index, []⟩).toList
        ++ pattern.allFrom limit 0 (some '\n') (index + (line.length + 1)) t := by
  obtain ⟨c, s, hs⟩ : ∃ c s, line ++ ['\n'] = c :: s :=
    List.exists_cons_of_ne_nil (List.append_ne_nil_of_right_ne_nil line (List.cons_ne_nil _ _))
  have htext : line ++ '\n' :: t = c :: (s ++ t) := by
    rw [← List.cons_append, ← hs, List.append_assoc]
    rfl
  have hlength : index + (line.length + 1) = index + 1 + s.length := by
    have := congrArg List.length hs
    rw [List.length_append, List.length_singleton, List.length_cons] at this
    omega
  have hlast : lastOr (some c) s = some '\n' := by
    rw [← lastOr_cons none, ← hs, lastOr_snoc]
  -- after the first character the line has not ended yet
  have hnone : ∀ d e, s = d ++ e → e ≠ [] →
      pattern.matchHere? limit ⟨lastOr (some c) d, e ++ t, index + 1 + d.length, []⟩ = none := by
    intro d e hd he
    obtain ⟨f, x, hx⟩ := (List.eq_nil_or_concat (c :: d)).resolve_left (List.cons_ne_nil c d)
    obtain ⟨g, y, hy⟩ := (List.eq_nil_or_concat e).resolve_left he
    have hmem : x ∈ line := by
      rw [hd, ← List.cons_append, hx, hy, List.concat_eq_append, List.concat_eq_append,
        ← List.append_assoc] at hs
      rw [(List.append_inj' hs rfl).1]
      simp
    rw [← lastOr_cons none, hx, List.concat_eq_append, lastOr_snoc]
    exact matchHere?_eq_none_of_before hpattern fun hnewline => hline (hnewline ▸ hmem)
  rw [htext] at hstop ⊢
  rw [allFrom, if_neg (Nat.not_lt_zero _), hlength]
  split
  · rename_i m hm
    rw [allFrom_skip hnone (hlength ▸ hstop m hm), hlast, hm]
    rfl
  · rename_i hm
    rw [allFrom_skip hnone (Nat.zero_le _), hlast, hm]
    rfl

end ServiceMap.Pattern
