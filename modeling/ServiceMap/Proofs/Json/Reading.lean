import ServiceMap.Proofs.Json.Strings

/-!
# Values of JSON read back

A reader of JSON, with blanks wherever the grammar allows them. The text of a value is read back as
the value, members of objects in the order in which they stand.
-/

namespace ServiceMap.Json

/-! ## The reader -/

/-- The characters that may stand between the parts of a document. -/
def isBlank (c : Char) : Bool :=
  c == ' ' || c == '\n' || c == '\r' || c == '\t'

/-- The text from its first character that is not blank. -/
def skipBlanks (s : List Char) : List Char :=
  s.dropWhile isBlank

/-- Reads a run of decimal digits. -/
def readNatural? (s : List Char) : Option (Nat × List Char) :=
  let run := s.takeWhile Char.isDigit
  if run.isEmpty then none else some (Nat.ofDigitChars 10 run 0, s.dropWhile Char.isDigit)

/-- Reads an integer. -/
def readInteger? : List Char → Option (Json × List Char)
  | '-' :: s => (readNatural? s).map fun (n, rest) => (int (-n), rest)
  | s => (readNatural? s).map fun (n, rest) => (int n, rest)

/-- The text after a character that comes next but for blanks, if it does. -/
def after? (c : Char) (s : List Char) : Option (List Char) :=
  match skipBlanks s with
  | d :: rest => if d = c then some rest else none
  | [] => none

/-- Reads the key of a member, with the colon after it. -/
def readKey? (s : List Char) : Option (String × List Char) := do
  let rest ← after? '\x22' s
  let (key, rest) ← readString? rest
  return (key, ← after? ':' rest)

mutual

/-- Reads a value at the start of a text; `fuel` bounds how deep and how far it may go. -/
def readValue : Nat → List Char → Option (Json × List Char)
  | 0, _ => none
  | fuel + 1, s =>
    match s with
    | 'n' :: 'u' :: 'l' :: 'l' :: rest => some (null, rest)
    | 't' :: 'r' :: 'u' :: 'e' :: rest => some (bool true, rest)
    | 'f' :: 'a' :: 'l' :: 's' :: 'e' :: rest => some (bool false, rest)
    | '\x22' :: rest => (readString? rest).map fun (text, rest) => (str text, rest)
    | '[' :: rest =>
      match after? ']' rest with
      | some rest => some (arr [], rest)
      | none => do
        let (item, rest) ← readValue fuel (skipBlanks rest)
        let (items, rest) ← readItems fuel rest
        return (arr (item :: items), rest)
    | '\x7b' :: rest =>
      match after? '\x7d' rest with
      | some rest => some (obj [], rest)
      | none => do
        let (key, rest) ← readKey? rest
        let (value, rest) ← readValue fuel (skipBlanks rest)
        let (members, rest) ← readMembers fuel rest
        return (obj ((key, value) :: members), rest)
    | s => readInteger? s

/-- Reads the items after the first, and the end of the array. -/
def readItems : Nat → List Char → Option (List Json × List Char)
  | 0, _ => none
  | fuel + 1, s =>
    match after? ']' s with
    | some rest => some ([], rest)
    | none => do
      let rest ← after? ',' s
      let (item, rest) ← readValue fuel (skipBlanks rest)
      let (items, rest) ← readItems fuel rest
      return (item :: items, rest)

/-- Reads the members after the first, and the end of the object. -/
def readMembers : Nat → List Char → Option (List (String × Json) × List Char)
  | 0, _ => none
  | fuel + 1, s =>
    match after? '\x7d' s with
    | some rest => some ([], rest)
    | none => do
      let rest ← after? ',' s
      let (key, rest) ← readKey? rest
      let (value, rest) ← readValue fuel (skipBlanks rest)
      let (members, rest) ← readMembers fuel rest
      return ((key, value) :: members, rest)

end

/-- Reads a document: one value, with nothing but blanks around it. -/
def read? (text : String) : Option Json := do
  let s := text.toList
  let (value, rest) ← readValue (s.length + 1) (skipBlanks s)
  if (skipBlanks rest).isEmpty then some value else none

/-! ## Blanks -/

theorem skipBlanks_cons {c : Char} (h : isBlank c = false) (s : List Char) :
    skipBlanks (c :: s) = c :: s := by
  simp [skipBlanks, h]

theorem skipBlanks_newLine_append (level : Nat) (s : List Char) :
    skipBlanks (newLine level ++ s) = skipBlanks s := by
  have hblank : ∀ c ∈ newLine level, isBlank c = true := by
    simp only [newLine, List.mem_cons, List.mem_replicate]
    rintro c (rfl | ⟨-, rfl⟩) <;> rfl
  exact List.dropWhile_append_of_pos hblank

theorem after?_cons {c d : Char} (h : isBlank d = false) (s : List Char) :
    after? c (d :: s) = if d = c then some s else none := by
  rw [after?, skipBlanks_cons h]

theorem after?_newLine_append (c : Char) (level : Nat) (s : List Char) :
    after? c (newLine level ++ s) = after? c s := by
  rw [after?, after?, skipBlanks_newLine_append]

/-! ## Numbers -/

/-- Where a number may end: the text does not go on with a digit. -/
def EndsNumber (rest : List Char) : Prop :=
  ∀ c ∈ rest.head?, c.isDigit = false

theorem endsNumber_newLine_append (level : Nat) (s : List Char) :
    EndsNumber (newLine level ++ s) := by
  simp [EndsNumber, newLine]

theorem readNatural?_toDigits (n : Nat) {rest : List Char} (h : EndsNumber rest) :
    readNatural? (Nat.toDigits 10 n ++ rest) = some (n, rest) := by
  have hdigits : ∀ c ∈ Nat.toDigits 10 n, c.isDigit = true :=
    fun c hc => Nat.isDigit_of_mem_toDigits (by decide) (by decide) hc
  have htake : rest.takeWhile Char.isDigit = [] := by
    cases rest with
    | nil => rfl
    | cons c rest => simp [h c rfl]
  have hdrop : rest.dropWhile Char.isDigit = rest := by
    cases rest with
    | nil => rfl
    | cons c rest => simp [h c rfl]
  simp [readNatural?, List.takeWhile_append_of_pos hdigits, List.dropWhile_append_of_pos hdigits,
    htake, hdrop, Nat.toDigits_ne_nil]

theorem toDigits_eq_cons (n : Nat) :
    ∃ c s, Nat.toDigits 10 n = c :: s ∧ c.isDigit = true := by
  cases hdigits : Nat.toDigits 10 n with
  | nil => exact absurd hdigits Nat.toDigits_ne_nil
  | cons c s =>
    have hc : c ∈ Nat.toDigits 10 n := hdigits ▸ List.mem_cons_self
    exact ⟨c, s, rfl, Nat.isDigit_of_mem_toDigits (by decide) (by decide) hc⟩

theorem readInteger?_digits (n : Int) {rest : List Char} (h : EndsNumber rest) :
    readInteger? (digits n ++ rest) = some (int n, rest) := by
  cases n with
  | ofNat n =>
    obtain ⟨c, s, hs, hc⟩ := toDigits_eq_cons n
    have hread := readNatural?_toDigits n h
    simp only [digits]
    rw [hs] at hread ⊢
    have hminus : c ≠ '-' := by
      rintro rfl
      exact absurd hc (by decide)
    simp only [List.cons_append] at hread ⊢
    unfold readInteger?
    split
    · next heq => exact absurd (List.cons.inj heq).1 hminus
    · simp [hread]
  | negSucc n =>
    simp [digits, readInteger?, readNatural?_toDigits (n + 1) h, Int.negSucc_eq]

/-! ## Reading what was written -/

/-- A character with which the text of a value may start. -/
def Starts (c : Char) : Prop :=
  isBlank c = false ∧ c ≠ ']' ∧ c ≠ '\x7d'

instance (c : Char) : Decidable (Starts c) :=
  inferInstanceAs (Decidable (_ ∧ _))

theorem starts_of_isDigit {c : Char} (h : c.isDigit = true) : Starts c := by
  have hne : ∀ d : Char, d.isDigit = false → c ≠ d := by
    rintro d hd rfl
    exact absurd h (by simp [hd])
  refine ⟨?_, hne _ (by decide), hne _ (by decide)⟩
  simp [isBlank, hne ' ' (by decide), hne '\n' (by decide), hne '\r' (by decide),
    hne '\t' (by decide)]

theorem renderAt_eq_cons (level : Nat) (value : Json) :
    ∃ c s, renderAt level value = c :: s ∧ Starts c := by
  cases value with
  | null => exact ⟨'n', _, rfl, by decide⟩
  | bool b =>
    cases b with
    | true => exact ⟨'t', _, rfl, by decide⟩
    | false => exact ⟨'f', _, rfl, by decide⟩
  | int n =>
    cases n with
    | ofNat n =>
      obtain ⟨c, s, hs, hc⟩ := toDigits_eq_cons n
      exact ⟨c, s, hs, starts_of_isDigit hc⟩
    | negSucc n => exact ⟨'-', _, rfl, by decide⟩
  | str s => exact ⟨'\x22', _, rfl, by decide⟩
  | arr items => cases items <;> exact ⟨'[', _, rfl, by decide⟩
  | obj members => cases members <;> exact ⟨'\x7b', _, rfl, by decide⟩

theorem skipBlanks_renderAt_append (level : Nat) (value : Json) (rest : List Char) :
    skipBlanks (renderAt level value ++ rest) = renderAt level value ++ rest := by
  obtain ⟨c, s, hs, hc⟩ := renderAt_eq_cons level value
  rw [hs, List.cons_append, skipBlanks_cons hc.1]

theorem after?_renderAt_append (level : Nat) (value : Json) (rest : List Char) :
    after? ']' (renderAt level value ++ rest) = none := by
  obtain ⟨c, s, hs, hc⟩ := renderAt_eq_cons level value
  rw [hs, List.cons_append, after?_cons hc.1, if_neg hc.2.1]

theorem after?_quoted_append (key : String) (rest : List Char) :
    after? '\x7d' (quoted key ++ rest) = none :=
  rfl

theorem readKey?_quoted (level : Nat) (key : String) (rest : List Char) :
    readKey? (newLine level ++ (quoted key ++ ':' :: rest)) = some (key, rest) := by
  have hquote : ∀ s, after? '\x22' ('\x22' :: s) = some s := fun _ => rfl
  have hcolon : ∀ s, after? ':' (':' :: s) = some s := fun _ => rfl
  simp [readKey?, after?_newLine_append, quoted, hquote, hcolon, readString?_escaped]

theorem readValue_digits (fuel : Nat) (n : Int) {rest : List Char} (h : EndsNumber rest) :
    readValue (fuel + 1) (digits n ++ rest) = some (int n, rest) := by
  have hread := readInteger?_digits n h
  have hhead : ∃ c s, digits n ++ rest = c :: s ∧ (c = '-' ∨ c.isDigit = true) := by
    cases n with
    | ofNat n =>
      obtain ⟨c, s, hs, hc⟩ := toDigits_eq_cons n
      exact ⟨c, s ++ rest, by simp [digits, hs], Or.inr hc⟩
    | negSucc n => exact ⟨'-', _, rfl, Or.inl rfl⟩
  obtain ⟨c, s, hs, hc⟩ := hhead
  rw [hs] at hread ⊢
  rw [readValue, hread]
  -- no other kind of value starts with a sign or a digit
  all_goals
    intro _ heq
    obtain ⟨rfl, -⟩ := List.cons.inj heq
    exact absurd hc (by decide)

theorem endsNumber_renderItems_append (level : Nat) (items : List Json) {rest : List Char}
    (h : EndsNumber rest) : EndsNumber (renderItems level items ++ rest) := by
  cases items with
  | nil => exact h
  | cons item items => simp [EndsNumber, renderItems]

theorem endsNumber_renderMembers_append (level : Nat) (members : List (String × Json))
    {rest : List Char} (h : EndsNumber rest) :
    EndsNumber (renderMembers level members ++ rest) := by
  cases members with
  | nil => exact h
  | cons member members => simp [EndsNumber, renderMembers]

mutual

/-- **A value is read back** from its text, whatever follows, unless the text is a number that goes
on. -/
theorem readValue_renderAt : (value : Json) → (level fuel : Nat) → (rest : List Char) →
    EndsNumber rest → (renderAt level value).length < fuel →
    readValue fuel (renderAt level value ++ rest) = some (value, rest)
  | _, _, 0, _, _, hfuel => absurd hfuel (Nat.not_lt_zero _)
  | null, level, fuel + 1, rest, _, _ => by simp [renderAt, readValue]
  | bool true, level, fuel + 1, rest, _, _ => by simp [renderAt, readValue]
  | bool false, level, fuel + 1, rest, _, _ => by simp [renderAt, readValue]
  | int n, level, fuel + 1, rest, hrest, _ => by rw [renderAt, readValue_digits fuel n hrest]
  | str s, level, fuel + 1, rest, _, _ => by
    simp [renderAt, quoted, readValue, readString?_escaped]
  | arr [], level, fuel + 1, rest, _, _ => by
    simp [renderAt, readValue, after?_cons (d := ']') rfl]
  | arr (item :: items), level, fuel + 1, rest, _, hfuel => by
    simp only [renderAt, List.cons_append, List.append_assoc, List.length_cons, List.length_append,
      List.nil_append] at hfuel ⊢
    have hend := endsNumber_renderItems_append (level + 1) items
      (endsNumber_newLine_append level (']' :: rest))
    rw [readValue, after?_newLine_append, after?_renderAt_append, skipBlanks_newLine_append,
      skipBlanks_renderAt_append]
    simp [readValue_renderAt item (level + 1) fuel _ hend (by omega),
      readItems_renderItems items (level + 1) level fuel rest (by omega)]
  | obj [], level, fuel + 1, rest, _, _ => by
    simp [renderAt, readValue, after?_cons (d := '\x7d') rfl]
  | obj ((key, value) :: members), level, fuel + 1, rest, _, hfuel => by
    simp only [renderAt, List.cons_append, List.append_assoc, List.length_cons, List.length_append,
      List.nil_append] at hfuel ⊢
    have hend := endsNumber_renderMembers_append (level + 1) members
      (endsNumber_newLine_append level ('\x7d' :: rest))
    rw [readValue, after?_newLine_append, after?_quoted_append, readKey?_quoted]
    have hblank : ∀ s, skipBlanks (' ' :: s) = skipBlanks s := fun _ => rfl
    simp [hblank, skipBlanks_renderAt_append,
      readValue_renderAt value (level + 1) fuel _ hend (by omega),
      readMembers_renderMembers members (level + 1) level fuel rest (by omega)]

theorem readItems_renderItems : (items : List Json) → (level outer fuel : Nat) →
    (rest : List Char) → (renderItems level items).length < fuel →
    readItems fuel (renderItems level items ++ (newLine outer ++ ']' :: rest)) = some (items, rest)
  | _, _, _, 0, _, hfuel => absurd hfuel (Nat.not_lt_zero _)
  | [], level, outer, fuel + 1, rest, _ => by
    simp [renderItems, readItems, after?_newLine_append, after?_cons (d := ']') rfl]
  | item :: items, level, outer, fuel + 1, rest, hfuel => by
    simp only [renderItems, List.cons_append, List.append_assoc, List.length_cons,
      List.length_append] at hfuel ⊢
    have hend := endsNumber_renderItems_append level items
      (endsNumber_newLine_append outer (']' :: rest))
    simp [readItems, after?_cons (d := ',') rfl, skipBlanks_newLine_append,
      skipBlanks_renderAt_append, readValue_renderAt item level fuel _ hend (by omega),
      readItems_renderItems items level outer fuel rest (by omega)]

theorem readMembers_renderMembers : (members : List (String × Json)) →
    (level outer fuel : Nat) → (rest : List Char) → (renderMembers level members).length < fuel →
    readMembers fuel (renderMembers level members ++ (newLine outer ++ '\x7d' :: rest))
      = some (members, rest)
  | _, _, _, 0, _, hfuel => absurd hfuel (Nat.not_lt_zero _)
  | [], level, outer, fuel + 1, rest, _ => by
    simp [renderMembers, readMembers, after?_newLine_append, after?_cons (d := '\x7d') rfl]
  | (key, value) :: members, level, outer, fuel + 1, rest, hfuel => by
    simp only [renderMembers, List.cons_append, List.append_assoc, List.length_cons,
      List.length_append] at hfuel ⊢
    have hend := endsNumber_renderMembers_append level members
      (endsNumber_newLine_append outer ('\x7d' :: rest))
    have hblank : ∀ s, skipBlanks (' ' :: s) = skipBlanks s := fun _ => rfl
    simp [readMembers, after?_cons (d := ',') rfl, readKey?_quoted, hblank,
      skipBlanks_renderAt_append, readValue_renderAt value level fuel _ hend (by omega),
      readMembers_renderMembers members level outer fuel rest (by omega)]

end

/-- **Documents are read back**: the text of a value is read as this value, whatever blanks
follow. -/
theorem read?_render_append (value : Json) (blanks : String)
    (h : ∀ c ∈ blanks.toList, isBlank c = true) : read? (value.render ++ blanks) = some value := by
  have hblanks : skipBlanks (renderAt 0 value ++ blanks.toList)
      = renderAt 0 value ++ blanks.toList := skipBlanks_renderAt_append 0 value blanks.toList
  have hend : EndsNumber blanks.toList := by
    intro c hc
    have hblank := h c (List.mem_of_mem_head? hc)
    refine Bool.eq_false_iff.mpr fun hdigit => ?_
    rw [(starts_of_isDigit hdigit).1] at hblank
    exact Bool.false_ne_true hblank
  have hread := readValue_renderAt value 0 ((renderAt 0 value ++ blanks.toList).length + 1) _ hend
    (by rw [List.length_append]; omega)
  have hrest : skipBlanks blanks.toList = [] := by
    have hall : (blanks.toList ++ []).dropWhile isBlank = [] := List.dropWhile_append_of_pos h
    simpa [skipBlanks] using hall
  simp only [read?, render, String.toList_append, String.toList_ofList, hblanks, hread,
    Option.bind_eq_bind, Option.bind_some, hrest]
  rfl

theorem read?_render (value : Json) : read? value.render = some value := by
  simpa using read?_render_append value "" (by simp)

theorem render_injective {a b : Json} (h : a.render = b.render) : a = b := by
  have hread := read?_render a
  rw [h, read?_render b] at hread
  exact (Option.some.inj hread).symm

/-! ## ASCII -/

theorem isAscii_newLine (level : Nat) : IsAscii (newLine level) :=
  isAscii_cons.mpr ⟨by decide, isAscii_replicate (by decide) _⟩

mutual

/-- **Documents are plain ASCII**, whatever characters the strings of a value hold. -/
theorem isAscii_renderAt : (level : Nat) → (value : Json) → IsAscii (renderAt level value)
  | level, null => by simp [renderAt, isAscii_cons, isAscii_nil]
  | level, bool true => by simp [renderAt, isAscii_cons, isAscii_nil]
  | level, bool false => by simp [renderAt, isAscii_cons, isAscii_nil]
  | level, int n => isAscii_digits n
  | level, str s => isAscii_quoted s
  | level, arr [] => by simp [renderAt, isAscii_cons, isAscii_nil]
  | level, arr (item :: items) => by
    simp [renderAt, isAscii_cons, isAscii_append, isAscii_nil, isAscii_newLine,
      isAscii_renderAt (level + 1) item, isAscii_renderItems (level + 1) items]
  | level, obj [] => by simp [renderAt, isAscii_cons, isAscii_nil]
  | level, obj ((key, value) :: members) => by
    simp [renderAt, isAscii_cons, isAscii_append, isAscii_nil, isAscii_newLine, isAscii_quoted,
      isAscii_renderAt (level + 1) value, isAscii_renderMembers (level + 1) members]

theorem isAscii_renderItems : (level : Nat) → (items : List Json) →
    IsAscii (renderItems level items)
  | level, [] => isAscii_nil
  | level, item :: items => by
    simp [renderItems, isAscii_cons, isAscii_append, isAscii_newLine, isAscii_renderAt level item,
      isAscii_renderItems level items]

theorem isAscii_renderMembers : (level : Nat) → (members : List (String × Json)) →
    IsAscii (renderMembers level members)
  | level, [] => isAscii_nil
  | level, (key, value) :: members => by
    simp [renderMembers, isAscii_cons, isAscii_append, isAscii_newLine, isAscii_quoted,
      isAscii_renderAt level value, isAscii_renderMembers level members]

end

end ServiceMap.Json
