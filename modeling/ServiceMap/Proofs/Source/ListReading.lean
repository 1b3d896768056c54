import ServiceMap.Proofs.Source.Groups
import ServiceMap.Proofs.Source.Stretches

/-!
# Lists, one character at a time

The pieces of a list are found by jumping over its string literals. The reading of this module takes
one character at a time and remembers which literal it is in and how many brackets count as open. Both
find the same pieces: a list is split at the separators that are read outside literals while no bracket
counts as open, and nowhere else.
-/

namespace ServiceMap.Source

open Text

/-! ## Separators -/

/-- A character that can separate the parts of a list: no blank, no quote and no bracket. -/
structure IsSeparator (c : Char) : Prop where
  notBlank : isBlank c = false
  notQuote : isQuote c = false
  notOpener : isOpener c = false
  notCloser : isCloser c = false

theorem IsSeparator.ne_newline {c : Char} (h : IsSeparator c) : c ≠ '\n' := by
  rintro rfl
  exact absurd h.notBlank (by decide)

theorem isSeparator_comma : IsSeparator ',' :=
  ⟨by decide, by decide, by decide, by decide⟩

/-! ## The reading of a list -/

/-- Whether a character of a list stands outside literals, and what comes next. Only double and single
quotes open a literal. -/
def Reading.listStep (c : Char) : Reading → Bool × Reading
  | .code => if isQuote c then (false, .literal c) else (true, .code)
  | reading => reading.step c

/-- The brackets that count as open after a character. The four kinds count alike, and a closer that
closes nothing is passed over. -/
def depthStep (depth : Nat) (c : Char) : Nat :=
  if isOpener c then depth + 1 else if isCloser c then depth - 1 else depth

/-- What the next character of a list is read as a part of, and how many brackets count as open. -/
structure ListState where
  reading : Reading
  depth : Nat
deriving DecidableEq

namespace ListState

/-- Outside of literals, with no bracket open. -/
def top : ListState := ⟨.code, 0⟩

/-- The state after a character. -/
def step (state : ListState) (c : Char) : ListState where
  reading := (state.reading.listStep c).2
  depth := if (state.reading.listStep c).1 then depthStep state.depth c else state.depth

/-- The state after a text. -/
def after (state : ListState) (s : List Char) : ListState :=
  s.foldl step state

variable (state : ListState)

@[simp] theorem after_nil : state.after [] = state := rfl

@[simp] theorem after_cons (c : Char) (s : List Char) :
    state.after (c :: s) = (state.step c).after s := rfl

theorem after_append (s t : List Char) : state.after (s ++ t) = (state.after s).after t :=
  List.foldl_append

/-- The state after a character outside of literals. -/
theorem step_code {c : Char} (hc : isQuote c = false) (depth : Nat) :
    step ⟨.code, depth⟩ c = ⟨.code, depthStep depth c⟩ := by
  simp [step, Reading.listStep, hc]

section Literals

variable {quote : Char} (hquote : isQuote quote = true) (depth : Nat)
include hquote

theorem ne_backtick_of_isQuote : quote ≠ backtick := by
  rintro rfl
  exact absurd hquote (by decide)

theorem step_escape : step ⟨.literal quote, depth⟩ '\\' = ⟨.hidden quote, depth⟩ := by
  simp [step, Reading.listStep, Reading.step, ne_backtick_of_isQuote hquote]

theorem step_close : step ⟨.literal quote, depth⟩ quote = ⟨.code, depth⟩ := by
  simp [step, Reading.listStep, Reading.step, ne_backslash_of_isQuote hquote]

/-- A newline cuts a literal off. -/
theorem step_newline : step ⟨.literal quote, depth⟩ '\n' = ⟨.code, depth⟩ := by
  have hne : '\n' ≠ quote := by
    rintro rfl
    exact absurd hquote (by decide)
  have hdepth : depthStep depth '\n' = depth := by
    rw [depthStep, if_neg (by decide), if_neg (by decide)]
  simp [step, Reading.listStep, Reading.step, ne_backtick_of_isQuote hquote, hne, hdepth]

omit hquote in
theorem step_content {c : Char} (hescape : c ≠ '\\') (hclose : c ≠ quote) (hnewline : c ≠ '\n') :
    step ⟨.literal quote, depth⟩ c = ⟨.literal quote, depth⟩ := by
  simp [step, Reading.listStep, Reading.step, hescape, hclose, hnewline]

omit hquote in
theorem step_hidden (c : Char) : step ⟨.hidden quote, depth⟩ c = ⟨.literal quote, depth⟩ := rfl

end Literals

theorem step_quote {c : Char} (hc : isQuote c = true) (depth : Nat) :
    step ⟨.code, depth⟩ c = ⟨.literal c, depth⟩ := by
  simp [step, Reading.listStep, hc]

theorem step_separator {separator : Char} (h : IsSeparator separator) : top.step separator = top := by
  rw [top, step_code h.notQuote, depthStep, if_neg (by simp [h.notOpener]),
    if_neg (by simp [h.notCloser])]

end ListState

open ListState

/-! ## Blanks -/

theorem plain_of_isBlank {c : Char} (hc : isBlank c = true) :
    isQuote c = false ∧ isOpener c = false ∧ isCloser c = false := by
  have hlabel : IsLabel [c] := fun d hd => Or.inr (List.mem_singleton.mp hd ▸ hc)
  obtain ⟨hquote, hopener, hcloser, -⟩ := plain_of_label hlabel (List.mem_singleton.mpr rfl)
  exact ⟨isQuote_of_not_isAnyQuote hquote, hopener, hcloser⟩

theorem step_blank {c : Char} (hc : isBlank c = true) (depth : Nat) :
    step ⟨.code, depth⟩ c = ⟨.code, depth⟩ := by
  obtain ⟨hquote, hopener, hcloser⟩ := plain_of_isBlank hc
  rw [step_code hquote, depthStep, if_neg (by simp [hopener]), if_neg (by simp [hcloser])]

/-- Blanks outside literals change nothing. -/
theorem after_gap {s : List Char} (h : IsGap s) (depth : Nat) : after ⟨.code, depth⟩ s = ⟨.code, depth⟩ := by
  induction s with
  | nil => rfl
  | cons c s ih =>
      rw [after_cons, step_blank (h c List.mem_cons_self)]
      exact ih fun d hd => h d (List.mem_cons_of_mem c hd)

/-! ## Pieces -/

/-- The pieces of a list, one character at a time: it is split at the separators at the top. -/
def readPieces (separator : Char) : ListState → List Char → List (List Char)
  | _, [] => [[]]
  | state, c :: s =>
    if c = separator ∧ state = top then [] :: readPieces separator top s
    else prepend [c] (readPieces separator (state.step c) s)

section Pieces

variable {separator : Char} {state : ListState}

theorem readPieces_ne_nil (s : List Char) : readPieces separator state s ≠ [] := by
  cases s with
  | nil => exact List.cons_ne_nil _ _
  | cons c s =>
      rw [readPieces]
      split
      · exact List.cons_ne_nil _ _
      · exact prepend_ne_nil _ _

theorem readPieces_separator (s : List Char) :
    readPieces separator top (separator :: s) = [] :: readPieces separator top s :=
  if_pos ⟨rfl, rfl⟩

theorem readPieces_of_not {c : Char} (h : ¬(c = separator ∧ state = top)) (s : List Char) :
    readPieces separator state (c :: s) = prepend [c] (readPieces separator (state.step c) s) :=
  if_neg h

theorem readPieces_inside {c : Char} {reading : Reading} (hreading : reading ≠ .code) (depth : Nat)
    (s : List Char) :
    readPieces separator ⟨reading, depth⟩ (c :: s)
      = prepend [c] (readPieces separator (step ⟨reading, depth⟩ c) s) :=
  readPieces_of_not (fun h => hreading (congrArg ListState.reading h.2)) s

/-- A literal is read to its end as part of one piece. -/
theorem readPieces_literal (hseparator : IsSeparator separator) {quote : Char}
    (hquote : isQuote quote = true) (depth : Nat) (s : List Char) :
    readPieces separator ⟨.literal quote, depth⟩ s
      = prepend (s.take (literalRest quote true s))
          (readPieces separator ⟨.code, depth⟩ (s.drop (literalRest quote true s))) := by
  have hliteral : Reading.literal quote ≠ .code := fun h => nomatch h
  have hhidden : Reading.hidden quote ≠ .code := fun h => nomatch h
  generalize hescapes : true = escapes
  fun_induction literalRest quote escapes s with
  | case1 => rfl
  | case2 c hc =>
      rw [readPieces_inside hliteral]
      rfl
  | case3 c hc d t ih =>
      obtain rfl : c = '\\' := by simpa [← hescapes] using hc
      rw [readPieces_inside hliteral, step_escape hquote, readPieces_inside hhidden, step_hidden, ih,
        prepend_prepend, prepend_prepend]
      rfl
  | case4 c s hc hclose =>
      obtain rfl : c = quote := beq_iff_eq.mp hclose
      rw [readPieces_inside hliteral, step_close hquote]
      rfl
  | case5 c s hc hclose hnewline =>
      obtain rfl : c = '\n' := by
        have h := Bool.and_eq_true_iff.mp hnewline
        exact beq_iff_eq.mp h.1
      rw [readPieces_inside hliteral, step_newline hquote, List.take_zero, List.drop_zero,
        prepend_nil (readPieces_ne_nil _),
        readPieces_of_not (fun h => hseparator.ne_newline h.1.symm), step_code (by decide)]
      rfl
  | case6 c s hc hclose hnewline ih =>
      have hescape : c ≠ '\\' := by simpa [← hescapes] using hc
      have hplain : c ≠ '\n' := by
        rintro rfl
        exact hnewline (by simpa using ne_backtick_of_isQuote hquote)
      rw [readPieces_inside hliteral, step_content depth hescape (by simpa using hclose) hplain, ih,
        prepend_prepend]
      rfl

/-- **Both readings find the same pieces.** -/
theorem pieces_eq_readPieces (hseparator : IsSeparator separator) (depth : Nat) (s : List Char) :
    pieces separator depth s = readPieces separator ⟨.code, depth⟩ s := by
  have hspecial : ∀ {c : Char}, isQuote c = true ∨ isOpener c = true ∨ isCloser c = true →
      ∀ {state : ListState}, ¬(c = separator ∧ state = top) := by
    rintro c hc state ⟨rfl, -⟩
    simp [hseparator.notQuote, hseparator.notOpener, hseparator.notCloser] at hc
  fun_induction pieces separator depth s with
  | case1 => rfl
  | case2 depth c s hquote n ih =>
      rw [readPieces_of_not (hspecial (Or.inl hquote)), step_quote hquote,
        readPieces_literal hseparator hquote, prepend_prepend, ih]
      rfl
  | case3 depth c s hquote hopener ih =>
      rw [readPieces_of_not (hspecial (Or.inr (Or.inl hopener))), step_code (by simpa using hquote),
        depthStep, if_pos hopener, ih]
  | case4 depth c s hquote hopener hcloser ih =>
      rw [readPieces_of_not (hspecial (Or.inr (Or.inr hcloser))), step_code (by simpa using hquote),
        depthStep, if_neg hopener, if_pos hcloser, ih]
  | case5 depth c s hquote hopener hcloser hsplit ih =>
      obtain ⟨rfl, rfl⟩ : c = separator ∧ depth = 0 := by simpa using hsplit
      rw [ih]
      exact (readPieces_separator s).symm
  | case6 depth c s hquote hopener hcloser hsplit ih =>
      have hnot : ¬(c = separator ∧ (⟨.code, depth⟩ : ListState) = top) := by
        rintro ⟨rfl, htop⟩
        have hzero : depth = 0 := congrArg ListState.depth htop
        exact hsplit (by simp [hzero])
      rw [readPieces_of_not hnot, step_code (by simpa using hquote), depthStep, if_neg hopener,
        if_neg hcloser, ih]

end Pieces

end ServiceMap.Source
