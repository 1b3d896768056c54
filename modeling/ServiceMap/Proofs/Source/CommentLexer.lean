import ServiceMap.Source.Masking
import ServiceMap.Source.FromEnd

/-!
# Comments, character by character

Masking jumps from one comment or literal to the next. The reader of this module takes one
character at a time, looks at most one character ahead, and only remembers what it is in. Both
blank the same characters. What follows for positions is that masking keeps every newline where it
stands.
-/

namespace ServiceMap.Source

open ServiceMap.Text

/-! ## The reader -/

/-- What the next character of a text is read as a part of. -/
inductive Mode where
  | code
  | lineComment
  /-- The second character of a block comment. -/
  | blockOpening
  | blockComment
  /-- The last character of a block comment. -/
  | blockClosing
  | literal (quote : Char)
  /-- A character of a literal that a backslash hides. -/
  | hidden (quote : Char)
deriving DecidableEq, Repr

/-- A character of the program, with the one after it: whether a comment starts here, and what
comes next. -/
def codeStep (rawQuote : Option Char) (c : Char) (next : Option Char) : Bool × Mode :=
  if c = '/' ∧ next = some '/' then (true, .lineComment)
  else if c = '/' ∧ next = some '*' then (true, .blockOpening)
  else if isQuote c ∨ rawQuote = some c then (false, .literal c)
  else (false, .code)

/-- Whether a character belongs to a comment, and what comes next. A newline that ends a line
comment, or cuts a literal off, is not part of it and read as code. -/
def Mode.step (rawQuote : Option Char) (c : Char) (next : Option Char) : Mode → Bool × Mode
  | .code => codeStep rawQuote c next
  | .lineComment => if c = '\n' then codeStep rawQuote c next else (true, .lineComment)
  | .blockOpening => (true, .blockComment)
  | .blockComment => (true, if c = '*' ∧ next = some '/' then .blockClosing else .blockComment)
  | .blockClosing => (true, .code)
  | .literal quote =>
      if rawQuote ≠ some quote ∧ c = '\\' then (false, .hidden quote)
      else if c = quote then (false, .code)
      else if c = '\n' ∧ quote ≠ backtick then codeStep rawQuote c next
      else (false, .literal quote)
  | .hidden quote => (false, .literal quote)

/-- The text with its comment characters blanked, read from a mode on. -/
def blankFrom (rawQuote : Option Char) : Mode → List Char → List Char
  | _, [] => []
  | mode, c :: s =>
      (if (mode.step rawQuote c s.head?).1 then blank c else c)
        :: blankFrom rawQuote (mode.step rawQuote c s.head?).2 s

variable {rawQuote : Option Char}

/-! ## Whole comments and literals -/

/-- A newline ends a line comment before it. -/
theorem blankFrom_lineComment_newline (s : List Char) :
    blankFrom rawQuote .lineComment ('\n' :: s) = blankFrom rawQuote .code ('\n' :: s) := by
  have hstep : Mode.step rawQuote '\n' s.head? .lineComment
      = Mode.step rawQuote '\n' s.head? .code := by
    simp [Mode.step]
  rw [blankFrom, blankFrom, hstep]

/-- A line comment is blank up to the next newline. -/
theorem blankFrom_lineComment (s : List Char) :
    blankFrom rawQuote .lineComment s =
      (s.takeWhile (· != '\n')).map blank
        ++ blankFrom rawQuote .code (s.dropWhile (· != '\n')) := by
  induction s with
  | nil => rfl
  | cons c s ih =>
      by_cases hc : c = '\n'
      · subst hc
        simpa using blankFrom_lineComment_newline s
      · have hstep : Mode.step rawQuote c s.head? .lineComment = (true, .lineComment) := by
          simp [Mode.step, hc]
        rw [blankFrom, hstep, ih]
        simp [hc]

/-- A block comment is blank up to and including its first closing mark. -/
theorem blankFrom_blockComment (s : List Char) :
    blankFrom rawQuote .blockComment s =
      (s.take (blockRest s)).map blank
        ++ blankFrom rawQuote .code (s.drop (blockRest s)) := by
  fun_induction blockRest s with
  | case1 => rfl
  | case2 s => simp [blankFrom, Mode.step]
  | case3 c s hclose ih =>
      have hopen : ¬ (c = '*' ∧ s.head? = some '/') := by
        rintro ⟨rfl, hs⟩
        obtain ⟨t, rfl⟩ := List.head?_eq_some_iff.mp hs
        exact hclose t rfl rfl
      have hstep : Mode.step rawQuote c s.head? .blockComment = (true, .blockComment) := by
        simp [Mode.step, hopen]
      rw [blankFrom, hstep, ih]
      simp

/-- A newline cuts a literal off before it, unless the literal may span lines. -/
theorem blankFrom_literal_newline {quote : Char} (hquote : quote ≠ '\n')
    (hspan : quote ≠ backtick) (s : List Char) :
    blankFrom rawQuote (.literal quote) ('\n' :: s) =
      blankFrom rawQuote .code ('\n' :: s) := by
  have hstep : Mode.step rawQuote '\n' s.head? (.literal quote)
      = Mode.step rawQuote '\n' s.head? .code := by
    simp [Mode.step, hquote.symm, hspan]
  rw [blankFrom, blankFrom, hstep]

/-- A literal is kept up to its end. -/
theorem blankFrom_literal (quote : Char) (s : List Char) :
    blankFrom rawQuote (.literal quote) s =
      s.take (literalRest quote (some quote != rawQuote) s)
        ++ blankFrom rawQuote .code
            (s.drop (literalRest quote (some quote != rawQuote) s)) := by
  have hescapes : (some quote != rawQuote) = true ↔ rawQuote ≠ some quote := by
    rw [bne_iff_ne]
    exact ne_comm
  generalize (some quote != rawQuote) = escapes at hescapes ⊢
  fun_induction literalRest quote escapes s with
  | case1 => rfl
  | case2 c hc =>
      have hc : rawQuote ≠ some quote ∧ c = '\\' := by simpa [hescapes] using hc
      simp [blankFrom, Mode.step, hc]
  | case3 c hc d t ih =>
      have hc : rawQuote ≠ some quote ∧ c = '\\' := by simpa [hescapes] using hc
      simp [blankFrom, Mode.step, hc, ih]
  | case4 c s hc hq =>
      have hc : ¬ (rawQuote ≠ some quote ∧ c = '\\') := by simpa [hescapes] using hc
      have hstep : Mode.step rawQuote c s.head? (.literal quote) = (false, .code) := by
        rw [Mode.step, if_neg hc, if_pos (by simpa using hq)]
      rw [blankFrom, hstep]
      simp
  | case5 c s hc hq hn =>
      obtain ⟨rfl, hspan⟩ : c = '\n' ∧ quote ≠ backtick := by simpa using hn
      have hquote : quote ≠ '\n' := fun h => hq (by simp [h])
      simpa using blankFrom_literal_newline hquote hspan s
  | case6 c s hc hq hn ih =>
      have hc : ¬ (rawQuote ≠ some quote ∧ c = '\\') := by simpa [hescapes] using hc
      have hn : ¬ (c = '\n' ∧ quote ≠ backtick) := by simpa using hn
      have hstep : Mode.step rawQuote c s.head? (.literal quote) = (false, .literal quote) := by
        rw [Mode.step, if_neg hc, if_neg (by simpa using hq), if_neg hn]
      rw [blankFrom, hstep, ih]
      simp

/-! ## The whole text -/

/-- Where no comment starts there is a literal or a character of the program. -/
theorem lead_of_no_comment {c : Char} {s : List Char}
    (hline : ¬ (c = '/' ∧ s.head? = some '/')) (hblock : ¬ (c = '/' ∧ s.head? = some '*')) :
    lead rawQuote (c :: s) =
      if isQuote c ∨ rawQuote = some c then
        .literal (literalRest c (some c != rawQuote) s + 1)
      else .code := by
  unfold lead
  split
  · contradiction
  · next heq => obtain ⟨rfl, rfl⟩ := List.cons.inj heq; simp at hline
  · next heq => obtain ⟨rfl, rfl⟩ := List.cons.inj heq; simp at hblock
  · next heq =>
      obtain ⟨rfl, rfl⟩ := List.cons.inj heq
      simp only [Bool.or_eq_true, beq_iff_eq, @eq_comm _ (some _)]

theorem take_drop_takeWhile (p : Char → Bool) (s : List Char) :
    s.take (s.takeWhile p).length = s.takeWhile p
      ∧ s.drop (s.takeWhile p).length = s.dropWhile p := by
  have htake : (s.takeWhile p ++ s.dropWhile p).take (s.takeWhile p).length = s.takeWhile p :=
    List.take_left
  have hdrop : (s.takeWhile p ++ s.dropWhile p).drop (s.takeWhile p).length = s.dropWhile p :=
    List.drop_left
  rw [List.takeWhile_append_dropWhile] at htake hdrop
  exact ⟨htake, hdrop⟩

/-- What a text starts with is read as a whole. -/
theorem blankFrom_code_cons (c : Char) (s : List Char) :
    blankFrom rawQuote .code (c :: s) =
      match lead rawQuote (c :: s) with
      | .comment n =>
          blank c :: (s.take (n - 1)).map blank ++ blankFrom rawQuote .code (s.drop (n - 1))
      | .literal n => c :: s.take (n - 1) ++ blankFrom rawQuote .code (s.drop (n - 1))
      | .code => c :: blankFrom rawQuote .code s := by
  rw [blankFrom, Mode.step]
  by_cases hline : c = '/' ∧ s.head? = some '/'
  · obtain ⟨rfl, hs⟩ := hline
    obtain ⟨t, rfl⟩ := List.head?_eq_some_iff.mp hs
    obtain ⟨htake, hdrop⟩ := take_drop_takeWhile (· != '\n') t
    simp [codeStep, lead, blankFrom, Mode.step, blankFrom_lineComment, htake, hdrop]
  by_cases hblock : c = '/' ∧ s.head? = some '*'
  · obtain ⟨rfl, hs⟩ := hblock
    obtain ⟨t, rfl⟩ := List.head?_eq_some_iff.mp hs
    simp [codeStep, lead, blankFrom, Mode.step, blankFrom_blockComment]
  rw [lead_of_no_comment hline hblock, codeStep, if_neg hline, if_neg hblock]
  by_cases hquote : isQuote c ∨ rawQuote = some c
  · simp [hquote, blankFrom_literal]
  · simp [hquote]

/-- Masking and reading character by character blank the same. -/
theorem maskComments_eq_blankFrom (text : List Char) :
    maskComments rawQuote text = blankFrom rawQuote .code text := by
  fun_induction maskComments rawQuote text with
  | case1 => rfl
  | case2 c s n hlead ih => rw [blankFrom_code_cons, hlead, ih]
  | case3 c s n hlead ih => rw [blankFrom_code_cons, hlead, ih]
  | case4 c s hlead ih => rw [blankFrom_code_cons, hlead, ih]

/-! ## Positions -/

/-- A newline stays, and nothing else becomes one. -/
theorem blank_eq_newline_iff (c : Char) : blank c = '\n' ↔ c = '\n' := by
  by_cases hc : c = '\n' <;> simp [blank, hc]

/-- Blanking keeps the newlines where they stand. -/
theorem blankFrom_map_newline (mode : Mode) (s : List Char) :
    (blankFrom rawQuote mode s).map (· == '\n') = s.map (· == '\n') := by
  induction s generalizing mode with
  | nil => rfl
  | cons c s ih =>
      rw [blankFrom, List.map_cons, List.map_cons, ih]
      congr 1
      split
      · exact Bool.eq_iff_iff.mpr (by simpa using blank_eq_newline_iff c)
      · rfl

/-- Masking keeps the newlines where they stand. -/
theorem maskComments_map_newline (text : List Char) :
    (maskComments rawQuote text).map (· == '\n') = text.map (· == '\n') := by
  rw [maskComments_eq_blankFrom]
  exact blankFrom_map_newline .code text

theorem length_maskComments (text : List Char) :
    (maskComments rawQuote text).length = text.length := by
  have h := congrArg List.length (@maskComments_map_newline rawQuote text)
  rwa [List.length_map, List.length_map] at h

/-- Texts with newlines at the same places have the same number of newlines. -/
theorem newlines_congr {s t : List Char} (h : s.map (· == '\n') = t.map (· == '\n')) :
    newlines s = newlines t := by
  have hcount : ∀ u : List Char, newlines u = (u.map (· == '\n')).count true := by
    intro u
    induction u with
    | nil => rfl
    | cons c u ih =>
        rw [newlines] at ih
        by_cases hc : c = '\n' <;> simp [newlines, hc, ih]
  rw [hcount, hcount, h]

theorem newlines_maskComments (text : List Char) :
    newlines (maskComments rawQuote text) = newlines text :=
  newlines_congr (maskComments_map_newline text)

/-- Texts with newlines at the same places have the same line numbers. -/
theorem lineNumber_congr {s t : List Char} (h : s.map (· == '\n') = t.map (· == '\n'))
    (index : Nat) : lineNumber s index = lineNumber t index := by
  have htake : (s.take index).map (· == '\n') = (t.take index).map (· == '\n') := by
    rw [List.map_take, List.map_take, h]
  rw [lineNumber, lineNumber, newlines_congr htake]

theorem lineNumber_maskComments (text : List Char) (index : Nat) :
    lineNumber (maskComments rawQuote text) index = lineNumber text index :=
  lineNumber_congr (maskComments_map_newline text) index

/-- Texts with newlines at the same places agree on which characters are newlines. -/
theorem getElem?_newline_congr {s t : List Char}
    (h : s.map (· == '\n') = t.map (· == '\n')) (index : Nat) :
    s[index]? = some '\n' ↔ t[index]? = some '\n' := by
  have hiff : ∀ u : List Char,
      u[index]? = some '\n' ↔ (u.map (· == '\n'))[index]? = some true := by
    intro u
    simp
  rw [hiff s, hiff t, h]

/-- **Masking is reading character by character.** The masked text has the length of the text and
newlines at the same places, so that every position, counted from either end, lies on the same
line in both. -/
theorem maskComments_reads_by_character (rawQuote : Option Char) (text : List Char) :
    maskComments rawQuote text = blankFrom rawQuote .code text
      ∧ (maskComments rawQuote text).length = text.length
      ∧ (∀ index : Nat, (maskComments rawQuote text)[index]? = some '\n'
          ↔ text[index]? = some '\n')
      ∧ (∀ index, lineNumber (maskComments rawQuote text) index = lineNumber text index)
      ∧ ∀ position, lineNumberAt (maskComments rawQuote text) position
          = lineNumberAt text position := by
  refine ⟨maskComments_eq_blankFrom text, length_maskComments text, ?_,
    lineNumber_maskComments text, ?_⟩
  · exact getElem?_newline_congr (maskComments_map_newline text)
  · intro position
    have hplace : place (maskComments rawQuote text) position = place text position := by
      rw [place, place, length_maskComments]
    rw [lineNumberAt, lineNumberAt, hplace]
    exact lineNumber_maskComments text _

/-! ## Masking once is enough -/

/-- The mode in which the masked text is read where the text is read in a given mode. -/
def Mode.masked : Mode → Mode
  | .literal quote => .literal quote
  | .hidden quote => .hidden quote
  | _ => .code

theorem codeStep_of_ne_slash {c : Char} (hc : c ≠ '/') (next : Option Char) :
    codeStep rawQuote c next =
      if isQuote c ∨ rawQuote = some c then (false, .literal c) else (false, .code) := by
  simp [codeStep, hc]

/-- A sign of a comment in the masked text stands in the text, too. -/
theorem head?_of_head?_blankFrom {mode : Mode} {s : List Char} {c : Char}
    (hspace : c ≠ ' ') (hnewline : c ≠ '\n')
    (h : (blankFrom rawQuote mode s).head? = some c) : s.head? = some c := by
  cases s with
  | nil => exact h
  | cons d s =>
      rw [blankFrom, List.head?_cons, Option.some.injEq] at h
      split at h
      · rw [blank] at h
        split at h
        · exact absurd h.symm hnewline
        · exact absurd h.symm hspace
      · rw [h, List.head?_cons]

/-- A blanked character is read as a character of the program. -/
theorem codeStep_blank (hraw : ∀ q, rawQuote = some q → q ≠ ' ' ∧ q ≠ '\n' ∧ q ≠ '/')
    (c : Char) (next : Option Char) : codeStep rawQuote (blank c) next = (false, .code) := by
  have hblank : blank c = ' ' ∨ blank c = '\n' := by
    by_cases hc : c = '\n' <;> simp [blank, hc]
  have hslash : blank c ≠ '/' := by
    rcases hblank with h | h <;> simp [h]
  have hquote : ¬ (isQuote (blank c) ∨ rawQuote = some (blank c)) := by
    rintro (h | h)
    · rcases hblank with h' | h' <;> simp [h', isQuote] at h
    · rcases hblank with h' | h'
      · exact (hraw _ h).1 h'
      · exact (hraw _ h).2.1 h'
  rw [codeStep_of_ne_slash hslash, if_neg hquote]

/-- What is read as a character of the program is masked in such a way that no comment starts
there any more. -/
theorem codeStep_masked (hraw : ∀ q, rawQuote = some q → q ≠ ' ' ∧ q ≠ '\n' ∧ q ≠ '/')
    (c : Char) (next next' : Option Char)
    (hnext : ∀ d, d ≠ ' ' → d ≠ '\n' → next' = some d → next = some d) :
    codeStep rawQuote (if (codeStep rawQuote c next).1 then blank c else c) next'
      = (false, (codeStep rawQuote c next).2.masked) := by
  by_cases hline : c = '/' ∧ next = some '/'
  · have hstep : codeStep rawQuote c next = (true, .lineComment) := by simp [codeStep, hline]
    rw [hstep]
    exact codeStep_blank hraw c next'
  by_cases hblock : c = '/' ∧ next = some '*'
  · have hstep : codeStep rawQuote c next = (true, .blockOpening) := by simp [codeStep, hblock]
    rw [hstep]
    exact codeStep_blank hraw c next'
  -- no comment starts here, and none does in the masked text, whose signs are those of the text
  have hline' : ¬ (c = '/' ∧ next' = some '/') := fun h =>
    hline ⟨h.1, hnext '/' (by decide) (by decide) h.2⟩
  have hblock' : ¬ (c = '/' ∧ next' = some '*') := fun h =>
    hblock ⟨h.1, hnext '*' (by decide) (by decide) h.2⟩
  by_cases hquote : isQuote c ∨ rawQuote = some c
  · have hstep : ∀ n, ¬ (c = '/' ∧ n = some '/') → ¬ (c = '/' ∧ n = some '*') →
        codeStep rawQuote c n = (false, .literal c) := by
      intro n h₁ h₂
      rw [codeStep, if_neg h₁, if_neg h₂, if_pos hquote]
    rw [hstep next hline hblock]
    exact hstep next' hline' hblock'
  · have hstep : ∀ n, ¬ (c = '/' ∧ n = some '/') → ¬ (c = '/' ∧ n = some '*') →
        codeStep rawQuote c n = (false, .code) := by
      intro n h₁ h₂
      rw [codeStep, if_neg h₁, if_neg h₂, if_neg hquote]
    rw [hstep next hline hblock]
    exact hstep next' hline' hblock'

/-- A literal has no comment: what is read within it is kept, and is read in the masked text as
before. -/
theorem literalStep_masked (hraw : ∀ q, rawQuote = some q → q ≠ ' ' ∧ q ≠ '\n' ∧ q ≠ '/')
    (quote c : Char) (next next' : Option Char)
    (hnext : ∀ d, d ≠ ' ' → d ≠ '\n' → next' = some d → next = some d) :
    (Mode.literal quote).step rawQuote
        (if ((Mode.literal quote).step rawQuote c next).1 then blank c else c) next'
      = (false, ((Mode.literal quote).step rawQuote c next).2.masked) := by
  by_cases hhide : rawQuote ≠ some quote ∧ c = '\\'
  · have hstep : ∀ n, Mode.step rawQuote c n (.literal quote) = (false, .hidden quote) := by
      intro n
      rw [Mode.step, if_pos hhide]
    rw [hstep next]
    exact hstep next'
  by_cases hclose : c = quote
  · have hstep : ∀ n, Mode.step rawQuote c n (.literal quote) = (false, .code) := by
      intro n
      rw [Mode.step, if_neg hhide, if_pos hclose]
    rw [hstep next]
    exact hstep next'
  by_cases hcut : c = '\n' ∧ quote ≠ backtick
  -- the end of the line ends the literal, and is itself read as a character of the program
  · have hstep : ∀ n, Mode.step rawQuote c n (.literal quote) = codeStep rawQuote c n := by
      intro n
      rw [Mode.step, if_neg hhide, if_neg hclose, if_pos hcut]
    have hkeep : (codeStep rawQuote c next).1 = false := by
      rw [hcut.1, codeStep_of_ne_slash (by decide)]
      split <;> rfl
    have hcode := codeStep_masked hraw c next next' hnext
    rw [hkeep] at hcode
    rw [hstep next, hkeep]
    exact (hstep next').trans hcode
  · have hstep : ∀ n, Mode.step rawQuote c n (.literal quote) = (false, .literal quote) := by
      intro n
      rw [Mode.step, if_neg hhide, if_neg hclose, if_neg hcut]
    rw [hstep next]
    exact hstep next'

/-- A character is masked in such a way that it is read in the masked text as a part of the
program or of a literal, and what comes after it as before. -/
theorem step_masked (hraw : ∀ q, rawQuote = some q → q ≠ ' ' ∧ q ≠ '\n' ∧ q ≠ '/')
    (mode : Mode) (c : Char) (next next' : Option Char)
    (hnext : ∀ d, d ≠ ' ' → d ≠ '\n' → next' = some d → next = some d) :
    mode.masked.step rawQuote
        (if (mode.step rawQuote c next).1 then blank c else c) next'
      = (false, (mode.step rawQuote c next).2.masked) := by
  have hcode := codeStep_masked hraw c next next' hnext
  have hblank := codeStep_blank hraw c next'
  cases mode with
  | code => exact hcode
  | lineComment =>
      by_cases hc : c = '\n'
      · have hstep : Mode.step rawQuote c next .lineComment = codeStep rawQuote c next := by
          simp [Mode.step, hc]
        rw [hstep]
        exact hcode
      · have hstep : Mode.step rawQuote c next .lineComment = (true, .lineComment) := by
          simp [Mode.step, hc]
        rw [hstep]
        exact hblank
  | blockOpening => exact hblank
  | blockComment =>
      by_cases hc : c = '*' ∧ next = some '/'
      · have hstep : Mode.step rawQuote c next .blockComment = (true, .blockClosing) := by
          simp [Mode.step, hc]
        rw [hstep]
        exact hblank
      · have hstep : Mode.step rawQuote c next .blockComment = (true, .blockComment) := by
          simp [Mode.step, hc]
        rw [hstep]
        exact hblank
  | blockClosing => exact hblank
  | literal quote => exact literalStep_masked hraw quote c next next' hnext
  | hidden quote => rfl

/-- The masked text is left as it is. -/
theorem blankFrom_masked (hraw : ∀ q, rawQuote = some q → q ≠ ' ' ∧ q ≠ '\n' ∧ q ≠ '/')
    (mode : Mode) (s : List Char) :
    blankFrom rawQuote mode.masked (blankFrom rawQuote mode s) = blankFrom rawQuote mode s := by
  induction s generalizing mode with
  | nil => rfl
  | cons c s ih =>
      have hstep := step_masked hraw mode c s.head?
        (blankFrom rawQuote (mode.step rawQuote c s.head?).2 s).head?
        (fun d hspace hnewline h => head?_of_head?_blankFrom hspace hnewline h)
      rw [blankFrom, blankFrom, hstep, ih]
      rfl

/-- **Masking once is enough.** A masked text holds no comment. -/
theorem maskComments_idem (hraw : ∀ q, rawQuote = some q → q ≠ ' ' ∧ q ≠ '\n' ∧ q ≠ '/')
    (text : List Char) :
    maskComments rawQuote (maskComments rawQuote text) = maskComments rawQuote text := by
  rw [maskComments_eq_blankFrom, maskComments_eq_blankFrom]
  exact blankFrom_masked hraw .code text

end ServiceMap.Source
