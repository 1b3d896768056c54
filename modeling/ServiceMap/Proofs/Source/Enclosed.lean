import ServiceMap.Proofs.Source.Groups
import ServiceMap.Proofs.Source.Stretches

/-!
# Texts between brackets

A text is whole in a kind of bracket if no literal is open at its end and, literals apart, it is
balanced in this kind. Between two brackets of the kind such a text is the inside of a group, whatever
its literals hold.
-/

namespace ServiceMap.Source

open ServiceMap.Text

/-- What the character after a text is read as a part of. -/
def readingAfter (reading : Reading) (s : List Char) : Reading :=
  s.foldl (fun reading c => (reading.step c).2) reading

theorem withoutLiterals_append (reading : Reading) (s t : List Char) :
    withoutLiterals reading (s ++ t)
      = withoutLiterals reading s ++ withoutLiterals (readingAfter reading s) t := by
  induction s generalizing reading with
  | nil => rfl
  | cons c s ih =>
      rw [List.cons_append, withoutLiterals, withoutLiterals, ih, List.cons_append]
      rfl

/-- A raw literal ends with its second quote. -/
theorem literalRest_raw {content : List Char} (h : backtick ∉ content) (t : List Char) :
    literalRest backtick false (content ++ backtick :: t) = content.length + 1 := by
  induction content with
  | nil =>
      rw [List.nil_append, literalRest.eq_def]
      simp
  | cons c content ih =>
      have hc : (c == backtick) = false := beq_eq_false_iff_ne.mpr fun hc =>
        h (hc ▸ List.mem_cons_self)
      rw [List.cons_append, literalRest.eq_def]
      simp [hc, ih fun hmem => h (List.mem_cons_of_mem c hmem)]

namespace Bracket

variable {b : Bracket}

/-- No literal is open at the end, and literals apart each bracket of this kind is closed. -/
def IsWhole (b : Bracket) (s : List Char) : Prop :=
  readingAfter .code s = .code ∧ b.IsBalanced (withoutLiterals .code s)

instance (b : Bracket) (s : List Char) : Decidable (b.IsWhole s) :=
  inferInstanceAs (Decidable (_ ∧ _))

theorem IsWhole.passesOver {s : List Char} (h : b.IsWhole s) : b.PassesOver s := by
  obtain ⟨hreading, hbalanced⟩ := h
  intro depth t
  have hdepth := depthAfter_add depth hbalanced
  rw [Nat.zero_add] at hdepth
  rw [← closing?_withoutLiterals, withoutLiterals_append, hreading,
    closing?_append _ (fun c hc => isAnyQuote_of_mem_withoutLiterals hc) hdepth,
    closing?_withoutLiterals, length_withoutLiterals]

/-- A group in a text is passed over. -/
theorem PassesOver.enclosed {s : List Char} (h : b.PassesOver s) :
    b.PassesOver (b.opener :: (s ++ [b.closer])) := by
  intro depth t
  have hopener : isAnyQuote b.opener = false := by cases b <;> decide
  rw [List.cons_append, List.append_assoc, List.singleton_append, Bracket.closing?,
    if_neg (by simp [hopener]), if_pos (beq_self_eq_true _), h, closing?_closer,
    if_neg (by omega), Nat.add_sub_cancel, Option.map_map, Option.map_map]
  refine congrArg (fun f => Option.map f _) (funext fun n => ?_)
  simp only [Function.comp_apply, List.length_cons, List.length_append, List.length_nil]
  omega

/-- A raw string is passed over, whatever it holds. -/
theorem passesOver_raw {content : List Char} (h : backtick ∉ content) :
    b.PassesOver (backtick :: (content ++ [backtick])) := by
  intro depth t
  have hdrop : (content ++ backtick :: t).drop (content.length + 1) = t := by
    rw [← List.singleton_append, ← List.append_assoc]
    exact List.drop_left' (by simp)
  rw [List.cons_append, List.append_assoc, List.singleton_append, Bracket.closing?,
    if_pos (by decide)]
  simp only [bne_self_eq_false, literalRest_raw h, hdrop]
  refine congrArg (fun f => Option.map f _) (funext fun n => ?_)
  simp only [List.length_cons, List.length_append, List.length_nil]
  omega

end Bracket

/-- The group of a text that a scan passes over. -/
theorem group_of_passesOver {b : Bracket} {s : List Char} (h : b.PassesOver s) (pre post : List Char) :
    group (pre ++ b.opener :: (s ++ b.closer :: post)) pre.length
      = .ok (s, pre.length + (s.length + 2)) :=
  group_of_closing? (h.closing? post) pre

end ServiceMap.Source
