import ServiceMap.Source.Masking
import ServiceMap.Source.Parts

/-!
# Balanced text

A text is balanced in a kind of bracket if each closer of this kind closes an opener in the text and
none stays open. In a text without string literals, groups end where the text inside is balanced,
and separators inside balanced type arguments do not count.
-/

namespace ServiceMap

theorem Text.slice_middle (pre s post : List Char) :
    slice (pre ++ (s ++ post)) pre.length (pre.length + s.length) = s := by
  rw [slice, ← List.append_assoc, ← List.length_append, List.take_left, List.drop_left]

namespace Source

open Text

namespace Bracket

/-- The number of brackets of this kind that are open after a text, if `depth` were open before and
no closer comes too early. -/
def depthAfter (b : Bracket) : (depth : Nat) → List Char → Option Nat
  | depth, [] => some depth
  | depth, c :: s =>
    if c == b.opener then b.depthAfter (depth + 1) s
    else if c == b.closer then if depth = 0 then none else b.depthAfter (depth - 1) s
    else b.depthAfter depth s

/-- Every closer closes an opener of the text, and none stays open. -/
def IsBalanced (b : Bracket) (s : List Char) : Prop :=
  b.depthAfter 0 s = some 0

instance (b : Bracket) (s : List Char) : Decidable (b.IsBalanced s) :=
  inferInstanceAs (Decidable (_ = _))

variable {b : Bracket}

theorem opener_ne_closer_of (b other : Bracket) : b.opener ≠ other.closer := by
  cases b <;> cases other <;> decide

theorem opener_ne_closer (b : Bracket) : b.opener ≠ b.closer :=
  b.opener_ne_closer_of b

theorem opener_injective {b other : Bracket} (h : b.opener = other.opener) : b = other := by
  revert h
  cases b <;> cases other <;> decide

theorem closer_injective {b other : Bracket} (h : b.closer = other.closer) : b = other := by
  revert h
  cases b <;> cases other <;> decide

section Steps

variable (depth : Nat) (s : List Char)

theorem depthAfter_opener : b.depthAfter depth (b.opener :: s) = b.depthAfter (depth + 1) s := by
  rw [depthAfter, if_pos (beq_self_eq_true _)]

theorem depthAfter_closer : b.depthAfter (depth + 1) (b.closer :: s) = b.depthAfter depth s := by
  rw [depthAfter, if_neg (by simpa using b.opener_ne_closer.symm), if_pos (beq_self_eq_true _),
    if_neg (Nat.succ_ne_zero depth), Nat.add_sub_cancel]

theorem depthAfter_other {c : Char} (hopener : c ≠ b.opener) (hcloser : c ≠ b.closer) :
    b.depthAfter depth (c :: s) = b.depthAfter depth s := by
  rw [depthAfter, if_neg (by simpa using hopener), if_neg (by simpa using hcloser)]

end Steps

/-- What one character does to the depth. -/
theorem depthAfter_cases {c : Char} {s : List Char} {depth after : Nat}
    (h : b.depthAfter depth (c :: s) = some after) :
    (c = b.opener ∧ b.depthAfter (depth + 1) s = some after)
      ∨ (c = b.closer ∧ ∃ outer, depth = outer + 1 ∧ b.depthAfter outer s = some after)
      ∨ c ≠ b.opener ∧ c ≠ b.closer ∧ b.depthAfter depth s = some after := by
  by_cases hopener : c = b.opener
  · subst hopener
    rw [depthAfter_opener] at h
    exact Or.inl ⟨rfl, h⟩
  · by_cases hcloser : c = b.closer
    · subst hcloser
      cases depth with
      | zero =>
          rw [depthAfter, if_neg (by simpa using hopener), if_pos (beq_self_eq_true _)] at h
          exact nomatch h
      | succ outer =>
          rw [depthAfter_closer] at h
          exact Or.inr (Or.inl ⟨rfl, outer, rfl, h⟩)
    · rw [depthAfter_other depth s hopener hcloser] at h
      exact Or.inr (Or.inr ⟨hopener, hcloser, h⟩)

theorem depthAfter_append (s t : List Char) (depth : Nat) :
    b.depthAfter depth (s ++ t) = (b.depthAfter depth s).bind (b.depthAfter · t) := by
  induction s generalizing depth with
  | nil => rfl
  | cons c s ih =>
      rw [List.cons_append, depthAfter, depthAfter]
      split
      · exact ih _
      · split
        · split
          · rfl
          · exact ih _
        · exact ih _

/-- Brackets that are open before stay open. -/
theorem depthAfter_add {s : List Char} {depth after : Nat} (more : Nat)
    (h : b.depthAfter depth s = some after) :
    b.depthAfter (depth + more) s = some (after + more) := by
  induction s generalizing depth with
  | nil => rw [← Option.some.inj h]; rfl
  | cons c s ih =>
      rcases depthAfter_cases h with ⟨rfl, h'⟩ | ⟨rfl, outer, rfl, h'⟩ | ⟨hopener, hcloser, h'⟩
      · rw [depthAfter_opener, Nat.add_right_comm]
        exact ih h'
      · rw [Nat.add_right_comm, depthAfter_closer]
        exact ih h'
      · rw [depthAfter_other _ _ hopener hcloser]
        exact ih h'

theorem depthAfter_of_none {s : List Char} (depth : Nat)
    (h : ∀ c ∈ s, c ≠ b.opener ∧ c ≠ b.closer) : b.depthAfter depth s = some depth := by
  induction s with
  | nil => rfl
  | cons c s ih =>
      obtain ⟨hopener, hcloser⟩ := h c List.mem_cons_self
      rw [depthAfter_other _ _ hopener hcloser]
      exact ih fun d hd => h d (List.mem_cons_of_mem c hd)

theorem IsBalanced.append {s t : List Char} (hs : b.IsBalanced s) (ht : b.IsBalanced t) :
    b.IsBalanced (s ++ t) := by
  rw [IsBalanced, depthAfter_append, hs]
  exact ht

/-- No prefix of a balanced text closes more than it opens. -/
theorem IsBalanced.prefix_depth {s t : List Char} (h : b.IsBalanced (s ++ t)) :
    ∃ depth, b.depthAfter 0 s = some depth := by
  rw [IsBalanced, depthAfter_append] at h
  cases hs : b.depthAfter 0 s with
  | none => rw [hs] at h; exact nomatch h
  | some depth => exact ⟨depth, rfl⟩

theorem count_of_depthAfter {s : List Char} {depth after : Nat}
    (h : b.depthAfter depth s = some after) :
    s.count b.opener + depth = s.count b.closer + after := by
  induction s generalizing depth with
  | nil =>
      obtain rfl := Option.some.inj h
      rfl
  | cons c s ih =>
      rcases depthAfter_cases h with ⟨rfl, h'⟩ | ⟨rfl, outer, rfl, h'⟩ | ⟨hopener, hcloser, h'⟩
      · have hrest := ih h'
        rw [List.count_cons_self, List.count_cons_of_ne b.opener_ne_closer]
        omega
      · have hrest := ih h'
        rw [List.count_cons_self, List.count_cons_of_ne b.opener_ne_closer.symm]
        omega
      · rw [List.count_cons_of_ne hopener, List.count_cons_of_ne hcloser]
        exact ih h'

/-! ## Where groups end -/

/-- The end of a group lies behind a text in which it is not closed. -/
theorem closing?_append {s : List Char} {depth after : Nat} (t : List Char)
    (hquote : ∀ c ∈ s, isAnyQuote c = false) (h : b.depthAfter depth s = some after) :
    b.closing? (depth + 1) (s ++ t) = (b.closing? (after + 1) t).map (· + s.length) := by
  induction s generalizing depth with
  | nil =>
      rw [← Option.some.inj h]
      exact Option.map_id'.symm
  | cons c s ih =>
      have hs : ∀ d ∈ s, isAnyQuote d = false := fun d hd => hquote d (List.mem_cons_of_mem c hd)
      have hstep : ∀ x : Option Nat,
          (x.map (· + s.length)).map (· + 1) = x.map (· + (c :: s).length) := by
        intro x
        rw [Option.map_map]
        rfl
      rw [List.cons_append, closing?, if_neg (by simp [hquote c List.mem_cons_self])]
      rcases depthAfter_cases h with ⟨rfl, h'⟩ | ⟨rfl, outer, rfl, h'⟩ | ⟨hopener, hcloser, h'⟩
      · rw [if_pos (beq_self_eq_true _), ih hs h', hstep]
      · rw [if_neg (by simpa using b.opener_ne_closer.symm), if_pos (beq_self_eq_true _),
          if_neg (by omega), Nat.add_sub_cancel, ih hs h', hstep]
      · rw [if_neg (by simpa using hopener), if_neg (by simpa using hcloser), ih hs h', hstep]

theorem isAnyQuote_closer (b : Bracket) : isAnyQuote b.closer = false := by
  cases b <;> decide

theorem closing?_closer (depth : Nat) (t : List Char) :
    b.closing? depth (b.closer :: t)
      = if depth ≤ 1 then some 1 else (b.closing? (depth - 1) t).map (· + 1) := by
  rw [closing?, if_neg (by simp [b.isAnyQuote_closer]),
    if_neg (by simpa using b.opener_ne_closer.symm), if_pos (beq_self_eq_true _)]

/-- A group of balanced text ends at the closer after it. -/
theorem closing?_of_isBalanced {s : List Char} (t : List Char)
    (hquote : ∀ c ∈ s, isAnyQuote c = false) (h : b.IsBalanced s) :
    b.closing? 1 (s ++ b.closer :: t) = some (s.length + 1) := by
  rw [closing?_append (b.closer :: t) hquote h, closing?_closer, if_pos (Nat.le_refl 1)]
  exact congrArg some (Nat.add_comm 1 s.length)

theorem ofOpener?_opener (b : Bracket) : ofOpener? b.opener = some b := by
  cases b <;> decide

theorem isOpener_opener (b : Bracket) : isOpener b.opener = true := by
  cases b <;> decide

theorem isOpener_closer (b : Bracket) : isOpener b.closer = false := by
  cases b <;> decide

theorem isCloser_closer (b : Bracket) : isCloser b.closer = true := by
  cases b <;> decide

theorem exists_opener {c : Char} (h : isOpener c = true) : ∃ b : Bracket, c = b.opener := by
  obtain ⟨b, hb⟩ := Option.isSome_iff_exists.mp h
  have hfound := List.find?_some hb
  exact ⟨b, (beq_iff_eq.mp hfound).symm⟩

theorem exists_closer {c : Char} (h : isCloser c = true) : ∃ b : Bracket, c = b.closer := by
  obtain ⟨b, -, hb⟩ := List.any_eq_true.mp h
  exact ⟨b, (beq_iff_eq.mp hb).symm⟩

end Bracket

/-- A group ends behind the bracket in which a scan from its opening bracket stops. -/
theorem groupEnd_of_closing? {b : Bracket} {s post : List Char}
    (h : b.closing? 1 (s ++ b.closer :: post) = some (s.length + 1)) (pre : List Char) :
    groupEnd (pre ++ b.opener :: (s ++ b.closer :: post)) pre.length
      = .ok (pre.length + (s.length + 2)) := by
  rw [groupEnd, List.drop_left]
  simp only [b.ofOpener?_opener, h]
  congr 1
  omega

theorem group_of_closing? {b : Bracket} {s post : List Char}
    (h : b.closing? 1 (s ++ b.closer :: post) = some (s.length + 1)) (pre : List Char) :
    group (pre ++ b.opener :: (s ++ b.closer :: post)) pre.length
      = .ok (s, pre.length + (s.length + 2)) := by
  have hinside : insideGroup (pre ++ b.opener :: (s ++ b.closer :: post)) pre.length
      (pre.length + (s.length + 2)) = s := by
    have hmiddle := slice_middle (pre ++ [b.opener]) s (b.closer :: post)
    rw [List.length_append, List.length_singleton, List.append_assoc] at hmiddle
    rw [insideGroup, show pre.length + (s.length + 2) - 1 = pre.length + 1 + s.length by omega]
    exact hmiddle
  rw [group, groupEnd_of_closing? h]
  show Except.ok (insideGroup _ _ _, _) = _
  rw [hinside]

/-- A group of balanced text ends after the closer that follows the text. -/
theorem groupEnd_of_isBalanced {b : Bracket} {pre s post : List Char}
    (hquote : ∀ c ∈ s, isAnyQuote c = false) (h : b.IsBalanced s) :
    groupEnd (pre ++ b.opener :: (s ++ b.closer :: post)) pre.length
      = .ok (pre.length + (s.length + 2)) :=
  groupEnd_of_closing? (Bracket.closing?_of_isBalanced post hquote h) pre

/-- The group of balanced text between two brackets. -/
theorem group_of_isBalanced {b : Bracket} {pre s post : List Char}
    (hquote : ∀ c ∈ s, isAnyQuote c = false) (h : b.IsBalanced s) :
    group (pre ++ b.opener :: (s ++ b.closer :: post)) pre.length
      = .ok (s, pre.length + (s.length + 2)) :=
  group_of_closing? (Bracket.closing?_of_isBalanced post hquote h) pre

/-- The depth at a position, if no brace before it is closed too early. -/
theorem braceDepth_eq {text : List Char} {start index depth : Nat}
    (h : Bracket.curly.depthAfter 0 (slice text start index) = some depth) :
    braceDepth text start index = depth := by
  have hcount := Bracket.count_of_depthAfter h
  rw [braceDepth]
  show ((slice text start index).count Bracket.curly.opener : Int)
    - (slice text start index).count Bracket.curly.closer = depth
  omega

/-! ## Lists -/

theorem prepend_prepend (s t : List Char) (pieces : List (List Char)) :
    prepend s (prepend t pieces) = prepend (s ++ t) pieces := by
  cases pieces with
  | nil => rfl
  | cons piece pieces => exact congrArg (· :: pieces) (List.append_assoc s t piece).symm

theorem prepend_nil {pieces : List (List Char)} (h : pieces ≠ []) : prepend [] pieces = pieces := by
  cases pieces with
  | nil => exact absurd rfl h
  | cons piece pieces => rfl

theorem prepend_ne_nil (s : List Char) (pieces : List (List Char)) : prepend s pieces ≠ [] := by
  cases pieces <;> exact List.cons_ne_nil _ _

theorem pieces_ne_nil (separator : Char) (depth : Nat) (s : List Char) :
    pieces separator depth s ≠ [] := by
  cases s with
  | nil => rw [pieces]; exact List.cons_ne_nil _ _
  | cons c s =>
      rw [pieces]
      repeat' split
      all_goals first | exact prepend_ne_nil _ _ | exact List.cons_ne_nil _ _

/-- Text without quotes, brackets and separators is part of one piece. -/
theorem pieces_of_plain {separator : Char} {s : List Char} (depth : Nat) (t : List Char)
    (h : ∀ c ∈ s, isQuote c = false ∧ isOpener c = false ∧ isCloser c = false ∧ c ≠ separator) :
    pieces separator depth (s ++ t) = prepend s (pieces separator depth t) := by
  induction s with
  | nil => exact (prepend_nil (pieces_ne_nil _ _ _)).symm
  | cons c s ih =>
      obtain ⟨hquote, hopener, hcloser, hseparator⟩ := h c List.mem_cons_self
      rw [List.cons_append, pieces, if_neg (by simp [hquote]), if_neg (by simp [hopener]),
        if_neg (by simp [hcloser]), if_neg (by simp [hseparator]),
        ih fun d hd => h d (List.mem_cons_of_mem c hd), prepend_prepend]
      rfl

theorem pieces_opener (b : Bracket) (separator : Char) (depth : Nat) (t : List Char) :
    pieces separator depth (b.opener :: t)
      = prepend [b.opener] (pieces separator (depth + 1) t) := by
  have hquote : isQuote b.opener = false := by cases b <;> decide
  rw [pieces, if_neg (by simp [hquote]), if_pos b.isOpener_opener]

theorem pieces_closer (b : Bracket) (separator : Char) (depth : Nat) (t : List Char) :
    pieces separator depth (b.closer :: t)
      = prepend [b.closer] (pieces separator (depth - 1) t) := by
  have hquote : isQuote b.closer = false := by cases b <;> decide
  rw [pieces, if_neg (by simp [hquote]), if_neg (by simp [b.isOpener_closer]),
    if_pos b.isCloser_closer]

theorem pieces_separator {separator : Char} (hquote : isQuote separator = false)
    (hopener : isOpener separator = false) (hcloser : isCloser separator = false)
    (t : List Char) : pieces separator 0 (separator :: t) = [] :: pieces separator 0 t := by
  rw [pieces, if_neg (by simp [hquote]), if_neg (by simp [hopener]), if_neg (by simp [hcloser]),
    if_pos (by simp)]

/-- Inside a bracket, text with brackets of one kind only is part of one piece as long as the
bracket is not closed. -/
theorem pieces_of_nested {b : Bracket} {separator : Char} {s : List Char} {depth after : Nat}
    (t : List Char) (h : ∀ c ∈ s, isQuote c = false ∧ (isOpener c = true → c = b.opener)
      ∧ (isCloser c = true → c = b.closer)) (hdepth : b.depthAfter depth s = some after) :
    pieces separator (depth + 1) (s ++ t) = prepend s (pieces separator (after + 1) t) := by
  induction s generalizing depth with
  | nil =>
      obtain rfl := Option.some.inj hdepth
      exact (prepend_nil (pieces_ne_nil _ _ _)).symm
  | cons c s ih =>
      obtain ⟨hquote, hopener, hcloser⟩ := h c List.mem_cons_self
      have hrest : ∀ {depth}, b.depthAfter depth s = some after →
          prepend [c] (pieces separator (depth + 1) (s ++ t))
            = prepend (c :: s) (pieces separator (after + 1) t) := by
        intro depth hdepth
        rw [ih (fun d hd => h d (List.mem_cons_of_mem c hd)) hdepth, prepend_prepend]
        rfl
      rcases Bracket.depthAfter_cases hdepth with
        ⟨rfl, h'⟩ | ⟨rfl, outer, rfl, h'⟩ | ⟨hne, hne', h'⟩
      · rw [List.cons_append, pieces_opener]
        exact hrest h'
      · rw [List.cons_append, pieces_closer]
        exact hrest h'
      · rw [List.cons_append, pieces, if_neg (by simp [hquote]), if_neg (mt hopener hne),
          if_neg (mt hcloser hne'), if_neg (by simp)]
        exact hrest h'

/-! ## Text without comments -/

theorem maskComments_of_plain {s : List Char} (h : ∀ c ∈ s, c ≠ '/' ∧ isQuote c = false) :
    maskComments none s = s := by
  induction s with
  | nil => rw [maskComments]
  | cons c s ih =>
      obtain ⟨hslash, hquote⟩ := h c List.mem_cons_self
      have hlead : lead none (c :: s) = .code := by
        unfold lead
        split
        · rename_i heq
          cases heq
        · rename_i heq
          exact absurd (List.cons.inj heq).1 hslash
        · rename_i heq
          exact absurd (List.cons.inj heq).1 hslash
        · rename_i heq
          obtain ⟨rfl, rfl⟩ := List.cons.inj heq
          rw [if_neg]
          rw [hquote]
          exact Bool.false_ne_true
      rw [maskComments, hlead, ih fun d hd => h d (List.mem_cons_of_mem c hd)]

end Source

end ServiceMap
