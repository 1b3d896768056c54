import Mathlib.Data.List.TakeWhile
import ServiceMap.Proofs.Source.Fallible
import ServiceMap.Text.Digit

/-!
# Numerals and integers

A run of decimal digits, of whatever script, is a numeral unless it is too long. A text of the form
of an integer denotes one, however long it is, and is read as this integer if it has no more digits
than a numeral may have.
-/

namespace ServiceMap.Text

theorem digitValue?_lt {c : Char} {d : Nat} (h : digitValue? c = some d) : d < 10 := by
  unfold digitValue? at h
  split at h
  · split at h
    · rename_i hdigit
      obtain rfl := Option.some.inj h
      have hle : c.toNat ≤ 57 := (Char.isDigit_iff_toNat.mp hdigit).2
      show c.toNat - 48 < 10
      omega
    · exact nomatch h
  · obtain ⟨range, -, rfl⟩ := Option.map_eq_some_iff.mp h
    exact Nat.mod_lt _ (by decide)

/-- A decimal digit is a digit of decimal numerals. -/
theorem decimal_digit? {c : Char} (h : isDecimal c = true) :
    ∃ d, Base.decimal.digit? c = some d := by
  obtain ⟨d, hd⟩ := Option.isSome_iff_exists.mp h
  -- a letter is no decimal digit
  have letter : ∀ first last : Char, 65 ≤ first.toNat → last.toNat < 128 →
      (decide (first ≤ c) && decide (c ≤ last)) = false := by
    intro first last hfirst hlast
    refine Bool.eq_false_iff.mpr fun hletter => ?_
    rw [Bool.and_eq_true, decide_eq_true_eq, decide_eq_true_eq] at hletter
    have hlow : first.toNat ≤ c.toNat := hletter.1
    have hhigh : c.toNat ≤ last.toNat := hletter.2
    unfold digitValue? at hd
    rw [if_pos (by omega), if_neg] at hd
    · exact nomatch hd
    · intro hdigit
      have hnine : c.toNat ≤ 57 := (Char.isDigit_iff_toNat.mp hdigit).2
      omega
  refine ⟨d, ?_⟩
  rw [Base.digit?, if_neg, if_neg, hd]
  · exact Option.filter_eq_some_iff.mpr ⟨rfl, decide_eq_true (digitValue?_lt hd)⟩
  · rw [letter 'A' 'F' (by decide) (by decide)]
    exact Bool.false_ne_true
  · rw [letter 'a' 'f' (by decide) (by decide)]
    exact Bool.false_ne_true

/-- Decimal numerals have no mark of their base. -/
theorem dropMark_decimal (s : List Char) : Base.decimal.dropMark s = s := by
  unfold Base.dropMark
  split
  · exact if_neg (by simp [Base.marks])
  · rfl

theorem wellSpaced_of_digits {p : Char → Bool} (hunderscore : p '_' = false)
    {digits : List Char} (h : ∀ c ∈ digits, p c = true) :
    wellSpaced p true digits = true := by
  induction digits with
  | nil => rfl
  | cons c digits ih =>
      have hc := h c List.mem_cons_self
      rw [wellSpaced, if_neg, hc, ih fun d hd => h d (List.mem_cons_of_mem c hd)]
      · rfl
      · intro heq
        rw [beq_iff_eq.mp heq, hunderscore] at hc
        exact Bool.false_ne_true hc

/-- The only fault of a run of decimal digits is its length. -/
theorem readNatural_failsOnly {digits : List Char} (hne : digits ≠ [])
    (h : ∀ c ∈ digits, isDecimal c = true) :
    FailsOnly (fun fault => longestNumeral < digits.length ∧ fault = .tooLong digits.length)
      (readNatural digits) := by
  have hdigit : ∀ c ∈ digits, ∃ d, Base.decimal.digit? c = some d :=
    fun c hc => decimal_digit? (h c hc)
  have hisSome : ∀ c ∈ digits, (Base.decimal.digit? c).isSome = true :=
    fun c hc => Option.isSome_iff_exists.mpr (hdigit c hc)
  have htake : (digits.takeWhile fun c => c == '_' || (Base.decimal.digit? c).isSome) = digits := by
    have hall : ∀ c ∈ digits, (c == '_' || (Base.decimal.digit? c).isSome) = true :=
      fun c hc => Bool.or_eq_true_iff.mpr (Or.inr (hisSome c hc))
    have htake : (digits ++ []).takeWhile _ = digits ++ [].takeWhile _ :=
      List.takeWhile_append_of_pos hall
    simpa using htake
  have hspaced : wellSpaced (fun c => (Base.decimal.digit? c).isSome) false digits = true := by
    obtain ⟨c, rest, rfl⟩ := List.exists_cons_of_ne_nil hne
    rw [← wellSpaced_of_digits (p := fun c => (Base.decimal.digit? c).isSome) rfl hisSome]
    rw [wellSpaced, wellSpaced, if_neg, if_neg]
    all_goals
      intro heq
      have := h c List.mem_cons_self
      rw [beq_iff_eq.mp heq] at this
      exact Bool.false_ne_true this
  intro fault hfault
  unfold readNatural readNaturalIn at hfault
  dsimp only at hfault
  rw [dropMark_decimal, htake, hspaced, List.filterMap_length_eq_length.mpr hisSome,
    if_neg (by decide)] at hfault
  split at hfault
  · rename_i hlong
    exact ⟨of_decide_eq_true (Bool.and_eq_true_iff.mp hlong).2, (Except.error.inj hfault).symm⟩
  · rw [if_neg (Nat.lt_irrefl _)] at hfault
    exact nomatch hfault

/-! ## Well spaced digits -/

variable {s : List Char}

/-- The decimal digits of a text, by their values. -/
def decimals (s : List Char) : List Nat :=
  s.filterMap Base.decimal.digit?

/-- Whether a text consists of decimal digits and single underscores between them. -/
def isSpacedDigits (s : List Char) : Bool :=
  wellSpaced (fun c => (Base.decimal.digit? c).isSome) false s

variable {n : Int}

/-- The digits of an integer, without its sign and the blanks around it. -/
def unsignedPart (s : List Char) : List Char :=
  (splitSign (trimNumeral s)).2

/-- The integer that a text denotes, of however many digits; none if it is of no such form. -/
def denotedInteger? (s : List Char) : Option Int :=
  if isSpacedDigits (unsignedPart s) then
    let value : Nat := (decimals (unsignedPart s)).foldl (fun value d => 10 * value + d) 0
    some (if (splitSign (trimNumeral s)).1 then -(value : Int) else value)
  else none

/-- Whether a text has more digits than a numeral may have. -/
def HasLongNumeral (s : List Char) : Prop :=
  longestNumeral < (decimals (unsignedPart s)).length

end ServiceMap.Text
