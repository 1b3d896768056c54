import Mathlib.Tactic.IntervalCases
import ServiceMap.Json.Text
import ServiceMap.Text.Bytes

/-!
# Strings of JSON read back

A reader of the strings of JSON: first the units of UTF-16 that a string's text stands for, then the
characters that the units encode. What is written as a string is read back as it was.
-/

namespace ServiceMap.Json

/-! ## The reader -/

/-- The unit of UTF-16 that four hexadecimal digits denote. -/
def unit? (a b c d : Char) : Option Nat := do
  let a ← Text.hexDigit? a
  let b ← Text.hexDigit? b
  let c ← Text.hexDigit? c
  let d ← Text.hexDigit? d
  return ((a * 16 + b) * 16 + c) * 16 + d

/-- The units of UTF-16 that encode a character. -/
def units (c : Char) : List Nat :=
  if c.toNat < 0x10000 then [c.toNat]
  else [0xD800 + (c.toNat - 0x10000) / 0x400, 0xDC00 + (c.toNat - 0x10000) % 0x400]

/-- The character that a backslash and one more character stand for. -/
def escaped? : Char → Option Char
  | '\x22' => some '\x22'
  | '\\' => some '\\'
  | '/' => some '/'
  | 'n' => some '\n'
  | 'r' => some '\r'
  | 't' => some '\t'
  | 'b' => some '\x08'
  | 'f' => some '\x0c'
  | _ => none

/-- Units in front of those that were read further on. -/
def consUnits (first : List Nat) (read : Option (List Nat × List Char)) :
    Option (List Nat × List Char) :=
  read.map fun more => (first ++ more.1, more.2)

/-- The units that a text stands for up to the closing quote, and the text after the quote. -/
def readUnits : List Char → Option (List Nat × List Char)
  | [] => none
  | '\x22' :: rest => some ([], rest)
  | '\\' :: 'u' :: a :: b :: c :: d :: rest => do consUnits [← unit? a b c d] (readUnits rest)
  | '\\' :: c :: rest => do consUnits (units (← escaped? c)) (readUnits rest)
  | c :: rest => if c.toNat < 0x20 then none else consUnits (units c) (readUnits rest)

/-- The characters that units encode. Half of a pair alone encodes none. -/
def ofUnits : List Nat → Option (List Char)
  | [] => some []
  | [u] => if 0xD800 ≤ u ∧ u < 0xE000 then none else some [Char.ofNat u]
  | u :: v :: rest =>
    if u < 0xD800 ∨ 0xE000 ≤ u then (Char.ofNat u :: ·) <$> ofUnits (v :: rest)
    else if u < 0xDC00 ∧ 0xDC00 ≤ v ∧ v < 0xE000 then
      (Char.ofNat (0x10000 + (u - 0xD800) * 0x400 + (v - 0xDC00)) :: ·) <$> ofUnits rest
    else none

/-- Reads a string whose opening quote has been passed. -/
def readString? (s : List Char) : Option (String × List Char) := do
  let (units, rest) ← readUnits s
  return (String.ofList (← ofUnits units), rest)

/-! ## Units of UTF-16 -/

/-- A character is no half of a pair. -/
theorem toNat_scalar (c : Char) : c.toNat < 0xD800 ∨ 0xE000 ≤ c.toNat ∧ c.toNat < 0x110000 := by
  rcases c.valid with h | h
  · exact Or.inl h
  · exact Or.inr ⟨Nat.succ_le_of_lt h.1, h.2⟩

theorem ofUnits_units_append (c : Char) (us : List Nat) :
    ofUnits (units c ++ us) = (c :: ·) <$> ofUnits us := by
  have hc := toNat_scalar c
  unfold units
  split
  · have hscalar : c.toNat < 0xD800 ∨ 0xE000 ≤ c.toNat := hc.imp_right And.left
    cases us with
    | nil => simp [ofUnits, show ¬ (0xD800 ≤ c.toNat ∧ c.toNat < 0xE000) by omega]
    | cons u us => simp [ofUnits, hscalar]
  · -- the two halves of a pair give back the code point
    have hpair : 0x10000 + (c.toNat - 0x10000) / 0x400 * 0x400 + (c.toNat - 0x10000) % 0x400
        = c.toNat := by
      omega
    simp only [List.cons_append, List.nil_append, ofUnits]
    rw [if_neg (by omega), if_pos (by omega), Nat.add_sub_cancel_left, Nat.add_sub_cancel_left,
      hpair, Char.ofNat_toNat]

theorem ofUnits_flatMap_units (s : List Char) : ofUnits (s.flatMap units) = some s := by
  induction s with
  | nil => rfl
  | cons c s ih => rw [List.flatMap_cons, ofUnits_units_append, ih]; rfl

/-! ## Escapes -/

theorem hexDigit?_digitChar {n : Nat} (h : n < 16) : Text.hexDigit? n.digitChar = some n := by
  interval_cases n <;> decide

theorem unitDigits_eq {n : Nat} (h : n < 0x10000) :
    unitDigits n = [(n / 0x1000).digitChar, (n / 0x100 % 16).digitChar, (n / 16 % 16).digitChar,
      (n % 16).digitChar] := by
  have hzero : ∀ {k : Nat}, k = 0 → k.digitChar = '0' := Nat.digitChar_eq_zero.mpr
  unfold unitDigits
  rcases Nat.lt_or_ge n 0x10 with h₁ | h₁
  · rw [Nat.toDigits_of_lt_base h₁, hzero (by omega : n / 0x1000 = 0),
      hzero (by omega : n / 0x100 % 16 = 0), hzero (by omega : n / 16 % 16 = 0),
      Nat.mod_eq_of_lt h₁]
    rfl
  rw [Nat.toDigits_of_base_le (by decide) h₁]
  rcases Nat.lt_or_ge n 0x100 with h₂ | h₂
  · rw [Nat.toDigits_of_lt_base (by omega), hzero (by omega : n / 0x1000 = 0),
      hzero (by omega : n / 0x100 % 16 = 0), Nat.mod_eq_of_lt (by omega : n / 16 < 16)]
    rfl
  rw [Nat.toDigits_of_base_le (by decide) (by omega)]
  rcases Nat.lt_or_ge n 0x1000 with h₃ | h₃
  · rw [Nat.toDigits_of_lt_base (by omega), hzero (by omega : n / 0x1000 = 0), Nat.div_div_eq_div_mul,
      Nat.mod_eq_of_lt (by omega : n / 0x100 < 16)]
    rfl
  · rw [Nat.toDigits_of_base_le (by decide) (by omega), Nat.toDigits_of_lt_base (by omega)]
    simp [Nat.div_div_eq_div_mul]

theorem unit?_unitDigits {n : Nat} (h : n < 0x10000) :
    ∃ a b c d, unitDigits n = [a, b, c, d] ∧ unit? a b c d = some n := by
  refine ⟨_, _, _, _, unitDigits_eq h, ?_⟩
  have hvalue : ((n / 0x1000 * 16 + n / 0x100 % 16) * 16 + n / 16 % 16) * 16 + n % 16 = n := by
    omega
  simp only [unit?, hexDigit?_digitChar (by omega : n / 0x1000 < 16),
    hexDigit?_digitChar (Nat.mod_lt _ (by decide : 0 < 16)), Option.bind_eq_bind,
    Option.bind_some, Option.pure_def, hvalue]

theorem readUnits_escapeUnit {n : Nat} (h : n < 0x10000) (rest : List Char) :
    readUnits (escapeUnit n ++ rest) = consUnits [n] (readUnits rest) := by
  obtain ⟨a, b, c, d, hdigits, hunit⟩ := unit?_unitDigits h
  simp [escapeUnit, hdigits, readUnits, hunit]

theorem consUnits_consUnits (first second : List Nat) (read : Option (List Nat × List Char)) :
    consUnits first (consUnits second read) = consUnits (first ++ second) read := by
  cases read <;> simp [consUnits]

/-- **An escape is read as its character**: what a character is written as in a string stands for
the units of this character. -/
theorem readUnits_escapeChar (c : Char) (rest : List Char) :
    readUnits (escapeChar c ++ rest) = consUnits (units c) (readUnits rest) := by
  unfold escapeChar
  split
  · next h => rw [beq_iff_eq.mp h]; rfl
  split
  · next h => rw [beq_iff_eq.mp h]; rfl
  split
  · next h => rw [beq_iff_eq.mp h]; rfl
  split
  · next h => rw [beq_iff_eq.mp h]; rfl
  split
  · next h => rw [beq_iff_eq.mp h]; rfl
  split
  · next h => rw [beq_iff_eq.mp h]; rfl
  split
  · next h => rw [beq_iff_eq.mp h]; rfl
  have hc := toNat_scalar c
  next hquote hslash _ _ _ _ _ =>
  simp only [beq_iff_eq] at hquote hslash
  dsimp only
  split
  · next hvisible =>
    rw [Bool.and_eq_true, decide_eq_true_eq, decide_eq_true_eq] at hvisible
    simp [readUnits, hslash, Nat.not_lt.mpr hvisible.1]
  split
  · next hsmall => rw [readUnits_escapeUnit hsmall, units, if_pos hsmall]
  · next hlarge =>
    rw [List.append_assoc, readUnits_escapeUnit (by omega), readUnits_escapeUnit (by omega),
      consUnits_consUnits, units, if_neg hlarge]
    rfl

theorem readUnits_flatMap_escapeChar (s rest : List Char) :
    readUnits (s.flatMap escapeChar ++ '\x22' :: rest) = some (s.flatMap units, rest) := by
  induction s with
  | nil => rfl
  | cons c s ih =>
    rw [List.flatMap_cons, List.append_assoc, readUnits_escapeChar, ih]
    rfl

/-- **Strings are read back**: what stands between the quotes of a string, with the closing quote,
is read as the string. -/
theorem readString?_escaped (s : String) (rest : List Char) :
    readString? (s.toList.flatMap escapeChar ++ '\x22' :: rest) = some (s, rest) := by
  simp [readString?, readUnits_flatMap_escapeChar, ofUnits_flatMap_units]

/-- A control character, a letter beyond ASCII and a character that takes two units. -/
example : String.ofList (quoted "\x01é𝄞") = "\"\\u0001\\u00e9\\ud834\\udd1e\"" := by decide +kernel

/-! ## ASCII -/

/-- A text of ASCII characters only. -/
def IsAscii (s : List Char) : Prop :=
  ∀ c ∈ s, c.toNat < 128

theorem isAscii_append {s t : List Char} : IsAscii (s ++ t) ↔ IsAscii s ∧ IsAscii t :=
  List.forall_mem_append

theorem isAscii_cons {c : Char} {s : List Char} :
    IsAscii (c :: s) ↔ c.toNat < 128 ∧ IsAscii s :=
  List.forall_mem_cons

theorem isAscii_nil : IsAscii [] := by
  simp [IsAscii]

theorem isAscii_replicate {c : Char} (h : c.toNat < 128) (n : Nat) :
    IsAscii (List.replicate n c) := by
  intro d hd
  rw [List.eq_of_mem_replicate hd]
  exact h

theorem digitChar_isAscii {n : Nat} : n.digitChar.toNat < 128 := by
  rcases Nat.lt_or_ge n 16 with h | h
  · interval_cases n <;> decide
  · rw [Nat.digitChar_eq_star.mpr h]
    decide

theorem isAscii_escapeUnit {n : Nat} (h : n < 0x10000) : IsAscii (escapeUnit n) := by
  simp [escapeUnit, unitDigits_eq h, isAscii_cons, isAscii_nil, digitChar_isAscii]

theorem isAscii_escapeChar (c : Char) : IsAscii (escapeChar c) := by
  have hc := toNat_scalar c
  unfold escapeChar
  iterate 7
    split
    · simp [isAscii_cons, isAscii_nil]
  dsimp only
  split
  · next hvisible =>
    rw [Bool.and_eq_true, decide_eq_true_eq, decide_eq_true_eq] at hvisible
    exact isAscii_cons.mpr ⟨Nat.lt_succ_of_lt hvisible.2, isAscii_nil⟩
  split
  · next hsmall => exact isAscii_escapeUnit hsmall
  · exact isAscii_append.mpr ⟨isAscii_escapeUnit (by omega), isAscii_escapeUnit (by omega)⟩

theorem isAscii_quoted (s : String) : IsAscii (quoted s) := by
  have hescapes : IsAscii (s.toList.flatMap escapeChar) := by
    intro c hc
    obtain ⟨d, -, hd⟩ := List.mem_flatMap.mp hc
    exact isAscii_escapeChar d c hd
  simp [quoted, isAscii_cons, isAscii_append, isAscii_nil, hescapes]

theorem isAscii_toDigits (n : Nat) : IsAscii (Nat.toDigits 10 n) := by
  intro c hc
  have hdigit := Nat.isDigit_of_mem_toDigits (by decide) (by decide) hc
  have hnine : c.toNat ≤ 57 := (Char.isDigit_iff_toNat.mp hdigit).2
  omega

theorem isAscii_digits (n : Int) : IsAscii (digits n) := by
  cases n with
  | ofNat n => exact isAscii_toDigits n
  | negSucc n => exact isAscii_cons.mpr ⟨by decide, isAscii_toDigits _⟩

end ServiceMap.Json
