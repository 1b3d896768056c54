import Mathlib.Data.List.TakeWhile
import ServiceMap.Link.Symbol
import ServiceMap.Proofs.Pattern.Replaced
import ServiceMap.Proofs.Text.Blanks

/-!
# Tags of fields

A tag stands between backticks. Two patterns describe it, one that remembers its text and one that
does not; both find the same tags. What a line is without its tags, and which tag is its first, is read
off from left to right.
-/

namespace ServiceMap.Declaration

open Text Source Pattern Link

/-! ## Reading tags -/

/-- The tag that a text starts with, and what follows it. -/
def leadingTag? : List Char → Option (List Char × List Char)
  | [] => none
  | c :: s =>
    if c = backtick then
      match s.dropWhile (· != backtick) with
      | [] => none
      | _ :: rest => some (s.takeWhile (· != backtick), rest)
    else none

theorem leadingTag?_eq_some {s content rest : List Char} (h : leadingTag? s = some (content, rest)) :
    s = backtick :: (content ++ backtick :: rest) ∧ backtick ∉ content := by
  cases s with
  | nil => exact absurd h.symm (Option.some_ne_none _)
  | cons c s =>
      rw [leadingTag?] at h
      split at h
      · rename_i hc
        split at h
        · exact absurd h.symm (Option.some_ne_none _)
        · rename_i d more hmore
          obtain ⟨rfl, rfl⟩ := Prod.mk.inj (Option.some.inj h)
          have hd : d = backtick := by
            have hhead := List.head?_dropWhile_not (· != backtick) s
            rw [hmore] at hhead
            simpa using hhead
          have hsplit := List.takeWhile_append_dropWhile (p := (· != backtick)) (l := s)
          rw [hmore, hd] at hsplit
          refine ⟨by rw [hc, hsplit], fun hmem => ?_⟩
          exact bne_iff_ne.mp (List.mem_takeWhile_imp (p := (· != backtick)) hmem) rfl
      · exact absurd h.symm (Option.some_ne_none _)

theorem leadingTag?_tag {content : List Char} (h : backtick ∉ content) (rest : List Char) :
    leadingTag? (backtick :: (content ++ backtick :: rest)) = some (content, rest) := by
  have hcontent : ∀ c ∈ content, (c != backtick) = true := fun c hc =>
    bne_iff_ne.mpr fun heq => h (heq ▸ hc)
  obtain ⟨htake, hdrop⟩ := span_append hcontent (y := backtick :: rest)
    fun c hc => by rw [← Option.some.inj hc]; decide
  rw [leadingTag?, if_pos rfl, hdrop, htake]

theorem leadingTag?_of_ne {c : Char} (hc : c ≠ backtick) (s : List Char) :
    leadingTag? (c :: s) = none := by
  rw [leadingTag?, if_neg hc]

/-- A text without its tags. -/
def untagged : List Char → List Char
  | [] => []
  | c :: s =>
    match _h : leadingTag? (c :: s) with
    | some (_, rest) => untagged rest
    | none => c :: untagged s
termination_by s => s.length
decreasing_by
  · have hlength := congrArg List.length (leadingTag?_eq_some _h).1
    simp only [List.length_cons, List.length_append] at hlength ⊢
    omega
  · simp

/-- The first tag of a text. -/
def firstTag? : List Char → Option (List Char)
  | [] => none
  | c :: s =>
    match leadingTag? (c :: s) with
    | some (content, _) => some content
    | none => firstTag? s

theorem untagged_tag {content : List Char} (h : backtick ∉ content) (rest : List Char) :
    untagged (backtick :: (content ++ backtick :: rest)) = untagged rest := by
  rw [untagged]
  split
  · rename_i heq
    rw [leadingTag?_tag h] at heq
    rw [(Prod.mk.inj (Option.some.inj heq)).2]
  · rename_i heq
    exact nomatch (leadingTag?_tag h rest).symm.trans heq

theorem untagged_of_none {c : Char} {s : List Char} (h : leadingTag? (c :: s) = none) :
    untagged (c :: s) = c :: untagged s := by
  rw [untagged]
  split
  · rename_i heq
    exact nomatch h.symm.trans heq
  · rfl

theorem firstTag?_tag {content : List Char} (h : backtick ∉ content) (rest : List Char) :
    firstTag? (backtick :: (content ++ backtick :: rest)) = some content := by
  rw [firstTag?, leadingTag?_tag h]

theorem firstTag?_of_none {c : Char} {s : List Char} (h : leadingTag? (c :: s) = none) :
    firstTag? (c :: s) = firstTag? s := by
  rw [firstTag?, h]

/-- Text without backticks is kept, and no tag starts in it. -/
theorem untagged_append {s : List Char} (h : backtick ∉ s) (t : List Char) :
    untagged (s ++ t) = s ++ untagged t ∧ firstTag? (s ++ t) = firstTag? t := by
  induction s with
  | nil => exact ⟨rfl, rfl⟩
  | cons c s ih =>
      obtain ⟨huntagged, hfirst⟩ := ih fun hs => h (List.mem_cons_of_mem c hs)
      have hnone := leadingTag?_of_ne (c := c) (fun hc => h (hc ▸ List.mem_cons_self)) (s ++ t)
      exact ⟨by rw [List.cons_append, untagged_of_none hnone, huntagged, List.cons_append],
        by rw [List.cons_append, firstTag?_of_none hnone, hfirst]⟩

theorem untagged_of_not_mem {s : List Char} (h : backtick ∉ s) :
    untagged s = s ∧ firstTag? s = none := by
  have hnil := untagged_append h []
  rw [List.append_nil, untagged, List.append_nil] at hnil
  exact hnil

theorem mem_of_mem_untagged {c : Char} {s : List Char} (h : c ∈ untagged s) : c ∈ s := by
  fun_induction untagged s with
  | case1 => exact h
  | case2 d s content rest hlead ih =>
      rw [(leadingTag?_eq_some hlead).1]
      exact List.mem_cons_of_mem _ (List.mem_append_right _ (List.mem_cons_of_mem _ (ih h)))
  | case3 d s hlead ih =>
      rcases List.mem_cons.mp h with rfl | h
      · exact List.mem_cons_self
      · exact List.mem_cons_of_mem d (ih h)

/-- No tag ends behind the last backtick. -/
theorem leadingTag?_append {s t : List Char} (ht : backtick ∉ t) (h : leadingTag? s = none)
    (hs : s ≠ []) : leadingTag? (s ++ t) = none := by
  refine Option.eq_none_iff_forall_ne_some.mpr fun ⟨content, rest⟩ hsome => ?_
  obtain ⟨c, s, rfl⟩ := List.exists_cons_of_ne_nil hs
  obtain ⟨hwhole, hcontent⟩ := leadingTag?_eq_some hsome
  obtain ⟨rfl, htext⟩ := List.cons.inj (show c :: (s ++ t) = _ from hwhole)
  rcases List.append_eq_append_iff.mp htext with ⟨u, -, rfl⟩ | ⟨u, rfl, hrest⟩
  · exact ht (List.mem_append_right u List.mem_cons_self)
  · cases u with
    | nil =>
        rw [← show backtick :: rest = t from hrest] at ht
        exact ht List.mem_cons_self
    | cons d u =>
        obtain ⟨rfl, -⟩ := List.cons.inj hrest
        exact nomatch h.symm.trans (leadingTag?_tag hcontent u)

/-- What stands behind the last backtick belongs to no tag. -/
theorem untagged_append_of_not_mem {t : List Char} (ht : backtick ∉ t) (s : List Char) :
    untagged (s ++ t) = untagged s ++ t ∧ firstTag? (s ++ t) = firstTag? s := by
  fun_induction untagged s with
  | case1 => exact untagged_of_not_mem ht
  | case2 c s content rest h ih =>
      obtain ⟨htext, hcontent⟩ := leadingTag?_eq_some h
      have hwhole : c :: s ++ t = backtick :: (content ++ backtick :: (rest ++ t)) := by
        rw [htext]
        simp
      rw [hwhole, untagged_tag hcontent, firstTag?_tag hcontent, htext, firstTag?_tag hcontent]
      exact ⟨ih.1, rfl⟩
  | case3 c s h ih =>
      have hnone := leadingTag?_append ht h (List.cons_ne_nil c s)
      rw [List.cons_append] at hnone
      rw [List.cons_append, untagged_of_none hnone, firstTag?_of_none hnone, firstTag?_of_none h,
        ih.1]
      exact ⟨rfl, ih.2⟩

theorem backtick_not_mem_of_blank {s : List Char} (h : ∀ c ∈ s, isBlank c = true) : backtick ∉ s :=
  fun hmem => absurd (h backtick hmem) (by decide)

/-! ## Patterns of tags -/

/-- A pattern that matches where a tag starts, up to its end. -/
structure IsTagPattern (pattern : Pattern) : Prop where
  tag : ∀ (limit : Nat) {p : Place} {content rest : List Char}, backtick ∉ content →
    p.rest = backtick :: (content ++ backtick :: rest) →
    ∃ m, pattern.matchHere? limit p = some m ∧ m.start = p.index
      ∧ m.stop = p.index + (content.length + 2)
  noTag : ∀ {limit : Nat} {p : Place}, leadingTag? p.rest = none →
    pattern.matchHere? limit p = none

/-- What stands between two backticks. -/
structure IsTagContent (content : Pattern) : Prop where
  takes : ∀ {before taken rest}, content.Takes before taken rest → backtick ∉ taken
  first : ∀ (limit : Nat) {p : Place} {taken rest : List Char}, backtick ∉ taken →
    p.rest = taken ++ backtick :: rest →
    ∃ new, content.TakesFirst limit p taken (backtick :: rest) new

theorem isTagContent_many : IsTagContent (many (· != backtick)) where
  takes := fun htakes hmem => bne_iff_ne.mp (htakes _ hmem) rfl
  first := fun _ {_ _ _} hnot htext => ⟨[], takesFirst_many htext
    (fun _ hc => bne_iff_ne.mpr fun heq => hnot (heq ▸ hc))
    fun c hc => by rw [← Option.some.inj hc]; decide⟩

theorem IsTagContent.capture {content : Pattern} (h : IsTagContent content) (slot : Nat) :
    IsTagContent (capture slot content) where
  takes := h.takes
  first := fun limit {_ _ _} hnot htext =>
    let ⟨_, hfirst⟩ := h.first limit hnot htext
    ⟨_, hfirst.capture slot⟩

theorem IsTagContent.isTagPattern {content : Pattern} (h : IsTagContent content) :
    IsTagPattern (char (· == backtick) ++ content ++ char (· == backtick)) where
  tag := by
    intro limit p text rest hnot htext
    have hopen : (char (· == backtick)).TakesFirst limit p [backtick] (text ++ backtick :: rest) [] :=
      takesFirst_char htext (by decide)
    obtain ⟨new, hcontent⟩ := h.first limit
      (p := p.after [backtick] (text ++ backtick :: rest) []) hnot rfl
    have hclose : ∀ q : Place, q.rest = backtick :: rest →
        (char (· == backtick)).TakesFirst limit q [backtick] rest [] :=
      fun q hq => takesFirst_char hq (by decide)
    refine ⟨_, matchHere?_of_takesFirst ((hopen.append hcontent).append (hclose _ rfl)), rfl, ?_⟩
    show p.index + ([backtick] ++ text ++ [backtick]).length = _
    simp
  noTag := by
    intro limit p hnone
    refine Option.eq_none_iff_forall_ne_some.mpr fun m hm => ?_
    obtain ⟨_, rest, htext, ⟨_, _, rfl, ⟨_, taken, rfl, ⟨c, hc, rfl⟩, htaken⟩, d, hd, rfl⟩, -, -⟩ :=
      takes_of_matchHere? hm
    obtain rfl := beq_iff_eq.mp hc
    obtain rfl := beq_iff_eq.mp hd
    rw [htext, List.append_assoc, List.append_assoc] at hnone
    exact nomatch hnone.symm.trans (leadingTag?_tag (h.takes htaken) rest)

theorem isTagPattern_anyTag : IsTagPattern anyTag :=
  isTagContent_many.isTagPattern

theorem isTagPattern_fieldTag : IsTagPattern fieldTag :=
  (isTagContent_many.capture 1).isTagPattern

/-! ## What is found -/

/-- **Removing tags.** A pattern of tags finds those that are read from left to right. -/
theorem IsTagPattern.leaves {pattern : Pattern} (h : IsTagPattern pattern) (s : List Char) :
    Leaves pattern [] s (untagged s) := by
  fun_induction untagged s with
  | case1 =>
      intro limit before index
      rw [allFrom, if_neg (Nat.not_lt_zero index), h.noTag rfl]
      rfl
  | case2 c s content rest hlead ih =>
      obtain ⟨htext, hcontent⟩ := leadingTag?_eq_some hlead
      have hsplit : c :: s = (backtick :: (content ++ [backtick])) ++ rest := by
        rw [htext]
        simp
      have hlength : content.length + 2 = (backtick :: (content ++ [backtick])).length := by simp
      rw [hsplit]
      refine Leaves.replace (List.cons_ne_nil _ _) (fun limit before index => ?_) ih
      rw [← hlength]
      exact h.tag limit hcontent (hsplit.symm.trans htext)
  | case3 c s hlead ih => exact ih.skip fun _ _ _ => h.noTag hlead

theorem IsTagPattern.replaceAll {pattern : Pattern} (h : IsTagPattern pattern) (s : List Char) :
    pattern.replaceAll [] s = untagged s :=
  (h.leaves s).replaceAll_eq

theorem group_of_fieldTag {limit : Nat} {p : Place} {m : Match}
    (hm : fieldTag.matchHere? limit p = some m) :
    ∃ rest, leadingTag? p.rest = some (m.group 1, rest) := by
  obtain ⟨s, t, u, rest, htext, ⟨c, hc, rfl⟩, hcontent, ⟨d, hd, rfl⟩, hgroup, -⟩ :=
    captured_of_matchHere? (char (· == backtick)) List.not_mem_nil hm
  obtain rfl := beq_iff_eq.mp hc
  obtain rfl := beq_iff_eq.mp hd
  refine ⟨rest, ?_⟩
  rw [htext, hgroup]
  exact leadingTag?_tag (isTagContent_many.takes hcontent) rest

theorem firstFrom?_fieldTag (limit : Nat) (s : List Char) :
    ∀ (before : Option Char) (index : Nat),
      ((fieldTag.firstFrom? limit before index s).map fun m => m.group 1) = firstTag? s := by
  induction s with
  | nil =>
      intro before index
      rw [firstFrom?, isTagPattern_fieldTag.noTag rfl]
      rfl
  | cons c s ih =>
      intro before index
      rw [firstFrom?, firstTag?]
      split
      · rename_i m hm
        obtain ⟨rest, hlead⟩ := group_of_fieldTag hm
        dsimp only at hlead
        rw [hlead]
        rfl
      · rename_i hnone
        split
        · rename_i content rest hlead
          obtain ⟨htext, hcontent⟩ := leadingTag?_eq_some hlead
          obtain ⟨m, hm, -⟩ := isTagPattern_fieldTag.tag limit
            (p := ⟨before, c :: s, index, []⟩) hcontent htext
          exact absurd (hm.symm.trans hnone) (Option.some_ne_none m)
        · exact ih (some c) (index + 1)

/-- The tag that is remembered is the first one. -/
theorem find?_fieldTag (s : List Char) :
    ((fieldTag.find? s).map fun m => m.group 1) = firstTag? s :=
  firstFrom?_fieldTag s.length s none 0

/-! ## Lines without blanks at their ends -/

/-- The blanks at the ends of a line are in no tag. -/
theorem trim_untagged_trim (s : List Char) :
    trim (untagged (trim s)) = trim (untagged s) ∧ firstTag? (trim s) = firstTag? s := by
  obtain ⟨front, back, hs, hfront, hback⟩ := exists_trim s
  obtain ⟨huntagged, hfirst⟩ := untagged_append (backtick_not_mem_of_blank hfront) (trim s ++ back)
  obtain ⟨huntagged', hfirst'⟩ :=
    untagged_append_of_not_mem (backtick_not_mem_of_blank hback) (trim s)
  rw [← List.append_assoc, ← hs] at huntagged hfirst
  rw [huntagged, huntagged', ← List.append_assoc, trim_between hfront hback, hfirst, hfirst']
  exact ⟨rfl, rfl⟩

end ServiceMap.Declaration
