import Mathlib.Data.List.Forall2
import ServiceMap.Proofs.Pattern.Order
import ServiceMap.Proofs.Pattern.Segments

/-!
# Which matches are found

A search takes a match wherever the pattern has one, unless a match that was found before goes beyond
the place. Where no match of a pattern can start inside another, all of them are found; and a pattern
that matches in some of the places of another one, in the same way, then finds some of its matches.
-/

namespace ServiceMap.Pattern

variable {pattern p q : Pattern} {limit : Nat} {m : Match}

/-! ## One match -/

/-- No match that is found before a position goes beyond it. -/
def IsClearAt (pattern : Pattern) (text : List Char) (index : Nat) : Prop :=
  ∀ m ∈ pattern.findAll text, m.start < index → m.stop ≤ index

instance (pattern : Pattern) (text : List Char) (index : Nat) :
    Decidable (pattern.IsClearAt text index) :=
  List.decidableBAll _ _

theorem mem_allFrom_of_matchHere? {t : List Char} (s : List Char) :
    ∀ {resume : Nat} {before : Option Char} {index : Nat}, resume ≤ index + s.length →
      pattern.matchHere? limit ⟨lastOr before s, t, index + s.length, []⟩ = some m →
      (∀ n ∈ pattern.allFrom limit resume before index (s ++ t),
        n.start < index + s.length → n.stop ≤ index + s.length) →
      m ∈ pattern.allFrom limit resume before index (s ++ t) := by
  induction s with
  | nil =>
      intro resume before index hresume hm _
      have hnot : ¬index < resume := Nat.not_lt_of_le hresume
      have hhere : pattern.matchHere? limit ⟨before, t, index, []⟩ = some m := hm
      rw [List.nil_append]
      cases t with
      | nil =>
          rw [allFrom, if_neg hnot, hhere]
          exact List.mem_singleton_self m
      | cons c t =>
          rw [allFrom, if_neg hnot, hhere]
          exact List.mem_cons_self
  | cons c s ih =>
      intro resume before index hresume hm hclear
      have hlength : index + (c :: s).length = index + 1 + s.length := by
        rw [List.length_cons]
        omega
      rw [lastOr_cons, hlength] at hm
      rw [hlength] at hresume hclear
      rw [List.cons_append, allFrom] at hclear ⊢
      split at hclear
      · rename_i hskip
        rw [if_pos hskip]
        exact ih hresume hm hclear
      · rename_i hskip
        rw [if_neg hskip]
        split at hclear
        · rename_i n hn
          have hstop : n.stop ≤ index + 1 + s.length := by
            refine hclear n List.mem_cons_self ?_
            have hstart := (isOrdered_of_matchHere? hn).1
            omega
          exact List.mem_cons_of_mem n
            (ih hstop hm fun n' hn' => hclear n' (List.mem_cons_of_mem n hn'))
        · exact ih hresume hm hclear

/-- A match is found where the search gets to. -/
theorem mem_findAll_of_matchHere? {front t : List Char}
    (hclear : pattern.IsClearAt (front ++ t) front.length)
    (hm : pattern.matchHere? (front ++ t).length ⟨lastOr none front, t, front.length, []⟩
      = some m) : m ∈ pattern.findAll (front ++ t) := by
  rw [← Nat.zero_add front.length] at hm
  refine mem_allFrom_of_matchHere? front (Nat.zero_le _) hm ?_
  rw [Nat.zero_add]
  exact hclear

/-- The leftmost match is the one at a place before which there is none. -/
theorem firstFrom?_of_matchHere? {t : List Char} (s : List Char) :
    ∀ {before : Option Char} {index : Nat},
      pattern.matchHere? limit ⟨lastOr before s, t, index + s.length, []⟩ = some m →
      (∀ n, pattern.firstFrom? limit before index (s ++ t) = some n →
        index + s.length ≤ n.start) →
      pattern.firstFrom? limit before index (s ++ t) = some m := by
  induction s with
  | nil =>
      intro before index hm _
      have hhere : pattern.matchHere? limit ⟨before, t, index, []⟩ = some m := hm
      cases t with
      | nil => exact hhere
      | cons c t => rw [List.nil_append, firstFrom?, hhere]
  | cons c s ih =>
      intro before index hm hfirst
      have hlength : index + (c :: s).length = index + 1 + s.length := by
        rw [List.length_cons]
        omega
      rw [lastOr_cons, hlength] at hm
      rw [hlength] at hfirst
      rw [List.cons_append, firstFrom?] at hfirst ⊢
      split at hfirst
      · rename_i n hn
        have hstart := (isOrdered_of_matchHere? hn).1
        have hle := hfirst n rfl
        omega
      · exact ih hm hfirst

theorem find?_of_matchHere? {front t : List Char}
    (hfirst : ∀ n, pattern.find? (front ++ t) = some n → front.length ≤ n.start)
    (hm : pattern.matchHere? (front ++ t).length ⟨lastOr none front, t, front.length, []⟩
      = some m) : pattern.find? (front ++ t) = some m := by
  rw [← Nat.zero_add front.length] at hm
  refine firstFrom?_of_matchHere? front hm ?_
  rw [Nat.zero_add]
  exact hfirst

/-! ## Matches that do not overlap -/

/-- No stretch that the second pattern describes starts inside one that the first describes. -/
def KeepsApart (p q : Pattern) : Prop :=
  ∀ {before : Option Char} {s t rest taken rest' : List Char}, p.Takes before (s ++ t) rest →
    q.Takes (lastOr before s) taken rest' → t ++ rest = taken ++ rest' → s = [] ∨ t = []

/-- A match of the first pattern is passed before the second one matches. -/
theorem KeepsApart.stop_le (h : KeepsApart p q) {before : Option Char} {s t : List Char}
    {index limit' : Nat} {n : Match} (hne : s ≠ [])
    (hm : p.matchHere? limit ⟨before, s ++ t, index, []⟩ = some m)
    (hn : q.matchHere? limit' ⟨lastOr before s, t, index + s.length, []⟩ = some n) :
    m.stop ≤ index + s.length := by
  obtain ⟨taken, rest, htext, htakes, -, hstop⟩ := takes_of_matchHere? hm
  obtain ⟨taken', rest', htext', htakes', -, -⟩ := takes_of_matchHere? hn
  rcases List.append_eq_append_iff.mp (show s ++ t = taken ++ rest from htext) with
    ⟨u, rfl, ht⟩ | ⟨u, rfl, -⟩
  · have htext'' : u ++ rest = taken' ++ rest' := ht.symm.trans htext'
    rcases h htakes htakes' htext'' with hs | hu
    · exact absurd hs hne
    · exact Nat.le_of_eq (by rw [hstop, hu, List.append_nil])
  · rw [hstop, List.length_append, ← Nat.add_assoc]
    exact Nat.le_add_right _ _

theorem isClearAt_of_keepsApart (h : KeepsApart pattern pattern) {front t : List Char}
    (hm : pattern.matchHere? limit ⟨lastOr none front, t, front.length, []⟩ = some m) :
    pattern.IsClearAt (front ++ t) front.length := by
  intro n hn hlt
  obtain ⟨done, more, htext, hmatch⟩ := split_of_mem_allFrom (front ++ t) hn
  have hstart : n.start = 0 + done.length := (isOrdered_of_matchHere? hmatch).1
  obtain ⟨s, rfl, rfl⟩ : ∃ s, front = done ++ s ∧ more = s ++ t := by
    rcases List.append_eq_append_iff.mp htext with ⟨u, hdone, -⟩ | ⟨u, hfront, hmore⟩
    · have hlength := congrArg List.length hdone
      rw [List.length_append] at hlength
      omega
    · exact ⟨u, hfront, hmore⟩
  have hne : s ≠ [] := by
    rintro rfl
    rw [List.append_nil] at hlt
    omega
  rw [lastOr_append, List.length_append] at hm
  rw [Nat.zero_add] at hmatch
  rw [List.length_append]
  exact h.stop_le hne hmatch hm

/-- Where matches do not overlap, each is found. -/
theorem mem_findAll_of_keepsApart (h : KeepsApart pattern pattern) {front t : List Char}
    (hm : pattern.matchHere? (front ++ t).length ⟨lastOr none front, t, front.length, []⟩
      = some m) : m ∈ pattern.findAll (front ++ t) :=
  mem_findAll_of_matchHere? (isClearAt_of_keepsApart h hm) hm

/-! ## Some of the matches -/

/-- The second pattern matches in those places of the first where its match is selected, up to the
same position, and its match is related to the one of the first. -/
structure Selects (p q : Pattern) (select : Match → Bool) (related : Match → Match → Prop) :
    Prop where
  within : ∀ {limit here m}, q.matchHere? limit here = some m →
    ∃ n, p.matchHere? limit here = some n ∧ select n = true ∧ related m n ∧ m.stop = n.stop
  all : ∀ {limit here n}, p.matchHere? limit here = some n → select n = true →
    ∃ m, q.matchHere? limit here = some m

variable {select : Match → Bool} {related : Match → Match → Prop}

theorem Selects.eq_none (h : Selects p q select related) {here : Place} {n : Match}
    (hn : p.matchHere? limit here = some n) (hselect : select n = false) :
    q.matchHere? limit here = none := by
  refine Option.eq_none_iff_forall_ne_some.mpr fun m hm => ?_
  obtain ⟨n', hn', hselect', -, -⟩ := h.within hm
  obtain rfl := Option.some.inj (hn.symm.trans hn')
  exact Bool.false_ne_true (hselect.symm.trans hselect')

theorem Selects.exists_match (h : Selects p q select related) {here : Place} {n : Match}
    (hn : p.matchHere? limit here = some n) (hselect : select n = true) :
    ∃ m, q.matchHere? limit here = some m ∧ related m n ∧ m.stop = n.stop := by
  obtain ⟨m, hm⟩ := h.all hn hselect
  obtain ⟨n', hn', -, hrelated, hstop⟩ := h.within hm
  obtain rfl := Option.some.inj (hn.symm.trans hn')
  exact ⟨m, hm, hrelated, hstop⟩

theorem Selects.eq_none_of_none (h : Selects p q select related) {here : Place}
    (hn : p.matchHere? limit here = none) : q.matchHere? limit here = none := by
  refine Option.eq_none_iff_forall_ne_some.mpr fun m hm => ?_
  obtain ⟨n, hn', -⟩ := h.within hm
  exact nomatch hn.symm.trans hn'

/-- Both searches at one place, where `qs` and `ps` are what they find behind it from a position on. -/
theorem Selects.forall₂_here (h : Selects p q select related) (qs ps : Nat → List Match)
    (resume resume' : Nat) {here : Place}
    (hnone : List.Forall₂ related (qs resume') ((ps resume).filter select))
    (hleft : ∀ n, p.matchHere? limit here = some n →
      List.Forall₂ related (qs resume') ((ps n.stop).filter select))
    (htaken : ∀ stop, List.Forall₂ related (qs stop) ((ps stop).filter select)) :
    List.Forall₂ related
      (match q.matchHere? limit here with
        | some m => m :: qs m.stop
        | none => qs resume')
      ((match p.matchHere? limit here with
        | some n => n :: ps n.stop
        | none => ps resume).filter select) := by
  cases hp : p.matchHere? limit here with
  | none =>
      rw [h.eq_none_of_none hp]
      exact hnone
  | some n =>
      cases hselect : select n with
      | false =>
          rw [h.eq_none hp hselect]
          dsimp only
          rw [List.filter_cons_of_neg (by simp [hselect])]
          exact hleft n hp
      | true =>
          obtain ⟨m, hm, hrelated, hstop⟩ := h.exists_match hp hselect
          rw [hm]
          dsimp only
          rw [List.filter_cons_of_pos hselect, hstop]
          exact .cons hrelated (htaken n.stop)

theorem toList_matchHere? (pattern : Pattern) (here : Place) :
    (pattern.matchHere? limit here).toList = match pattern.matchHere? limit here with
      | some m => [m]
      | none => [] := by
  cases pattern.matchHere? limit here <;> rfl

/-- Both searches have come to a position. Where the first one passes over a match, the second one has
passed over it too or has no match. -/
theorem Selects.forall₂ (h : Selects p q select related) (hapart : KeepsApart p q)
    (rest : List Char) :
    ∀ {resume resume' : Nat} {before : Option Char} {index : Nat},
      resume' ≤ resume ∨ resume' ≤ index →
      (∀ s t, rest = s ++ t → resume' ≤ index + s.length → index + s.length < resume →
        q.matchHere? limit ⟨lastOr before s, t, index + s.length, []⟩ = none) →
      List.Forall₂ related (q.allFrom limit resume' before index rest)
        ((p.allFrom limit resume before index rest).filter select) := by
  induction rest with
  | nil =>
      intro resume resume' before index hle hnone
      rw [allFrom, allFrom]
      by_cases hskip : index < resume
      · rw [if_pos hskip]
        by_cases hskip' : index < resume'
        · rw [if_pos hskip']
          exact .nil
        · have hq : q.matchHere? limit ⟨before, [], index, []⟩ = none :=
            hnone [] [] rfl (Nat.le_of_not_lt hskip') hskip
          rw [if_neg hskip', hq]
          exact .nil
      · rw [if_neg hskip, if_neg (by omega), toList_matchHere?, toList_matchHere?]
        exact h.forall₂_here (fun _ => []) (fun _ => []) resume resume' .nil (fun _ _ => .nil)
          fun _ => .nil
  | cons c rest ih =>
      intro resume resume' before index hle hnone
      -- what is known of the places of `c :: rest` is known of those of `rest`
      have place := fun s t => place_cons before c s t index
      have hlength : ∀ s : List Char, index + 1 + s.length = index + (c :: s).length := by
        intro s
        rw [List.length_cons]
        omega
      have hlater : ∀ s t, rest = s ++ t → resume' ≤ index + 1 + s.length →
          index + 1 + s.length < resume →
          q.matchHere? limit ⟨lastOr (some c) s, t, index + 1 + s.length, []⟩ = none := by
        intro s t hrest hlow hhigh
        rw [place]
        rw [hlength] at hlow hhigh
        exact hnone (c :: s) t (by rw [hrest]; rfl) hlow hhigh
      rw [allFrom, allFrom]
      by_cases hskip : index < resume
      · rw [if_pos hskip]
        by_cases hskip' : index < resume'
        · rw [if_pos hskip']
          exact ih (by omega) hlater
        · have hq : q.matchHere? limit ⟨before, c :: rest, index, []⟩ = none :=
            hnone [] (c :: rest) rfl (Nat.le_of_not_lt hskip') hskip
          rw [if_neg hskip', hq]
          exact ih (by omega) hlater
      · rw [if_neg hskip, if_neg (by omega)]
        refine h.forall₂_here (q.allFrom limit · (some c) (index + 1) rest)
          (p.allFrom limit · (some c) (index + 1) rest) resume resume' (ih (by omega) hlater)
          (fun n hp => ?_) fun stop => ?_
        · refine ih (by omega) fun s t hrest _ hhigh => ?_
          refine Option.eq_none_iff_forall_ne_some.mpr fun m hm => ?_
          rw [place] at hm
          rw [hrest, ← List.cons_append] at hp
          have hstop := hapart.stop_le (List.cons_ne_nil c s) hp hm
          rw [hlength] at hhigh
          omega
        · exact ih (Or.inl (Nat.le_refl stop)) fun s t _ hlow hhigh =>
            absurd hhigh (Nat.not_lt_of_le hlow)

/-- The matches of the second pattern are the selected ones of the first. -/
theorem Selects.findAll (h : Selects p q select related) (hapart : KeepsApart p q)
    (text : List Char) :
    List.Forall₂ related (q.findAll text) ((p.findAll text).filter select) :=
  h.forall₂ hapart text (Or.inr (Nat.le_refl 0)) fun _ _ _ _ hlt => absurd hlt (Nat.not_lt_zero _)

end ServiceMap.Pattern
