import ServiceMap.Proofs.Source.Balance
import ServiceMap.Source.FromEnd

/-!
# Groups

The end of a group is found by jumping from one string literal to the next. The scan of this module
takes one character at a time, remembers only which literal it is in, and blanks the characters of
literals out. In what it leaves, a group ends at the first closer at which as many brackets of its
kind are closed as were opened; and of two groups of one kind that one scan meets, one lies in the
other or they lie apart.

All of it holds of positions that count from the end of a text too, where a scan goes on at the
start of the text when it has come to its end.
-/

namespace ServiceMap.Source

open ServiceMap.Text

/-! ## The scan -/

/-- What the next character of a text is read as a part of. -/
inductive Reading where
  | code
  | literal (quote : Char)
  /-- A character of a literal that a backslash hides. -/
  | hidden (quote : Char)
deriving DecidableEq, Repr

/-- Whether a character stands outside literals, and what comes next. A newline that cuts a literal
off is not part of it. -/
def Reading.step (c : Char) : Reading → Bool × Reading
  | .code => if isAnyQuote c then (false, .literal c) else (true, .code)
  | .literal quote =>
      if quote ≠ backtick ∧ c = '\\' then (false, .hidden quote)
      else if c = quote then (false, .code)
      else if c = '\n' ∧ quote ≠ backtick then (true, .code)
      else (false, .literal quote)
  | .hidden quote => (false, .literal quote)

/-- The text with the characters of its string literals blanked out. -/
def withoutLiterals : Reading → List Char → List Char
  | _, [] => []
  | reading, c :: s =>
      (if (reading.step c).1 then c else ' ') :: withoutLiterals (reading.step c).2 s

/-- The character at a position. -/
def charAt? (text : List Char) (position : Int) : Option Char :=
  if 0 ≤ position then text[position.toNat]?
  else if text.length + position < 0 then none
  else text[place text position]?

/-- What a scan from a position goes through. -/
def textFrom (text : List Char) (position : Int) : List Char :=
  if 0 ≤ position then text.drop position.toNat else text.drop (place text position) ++ text

/-- What a scan from a position sees. -/
def seenFrom (text : List Char) (position : Int) : List Char :=
  withoutLiterals .code (textFrom text position)

/-- A scan meets a character at a later position, outside literals. -/
def SeesAt (text : List Char) (start position : Int) (c : Char) : Prop :=
  start ≤ position ∧ (seenFrom text start)[(position - start).toNat]? = some c

namespace Bracket

/-- The first `n` characters end in a closer, and hold as many openers as closers. -/
def IsLevel (b : Bracket) (seen : List Char) (n : Nat) : Prop :=
  (seen.take n).getLast? = some b.closer
    ∧ (seen.take n).count b.opener = (seen.take n).count b.closer

/-- A scan has just seen a closer, and so far as many openers as closers. -/
def IsLevelAt (b : Bracket) (text : List Char) (start stop : Int) : Prop :=
  start < stop ∧ stop ≤ text.length ∧ b.IsLevel (seenFrom text start) (stop - start).toNat

/-- The position after the first closer at which a scan has seen as many openers as closers. -/
def ClosesAt (b : Bracket) (text : List Char) (start stop : Int) : Prop :=
  b.IsLevelAt text start stop ∧ ∀ k < stop, ¬b.IsLevelAt text start k

end Bracket

/-! ## Literals are passed over -/

theorem withoutLiterals_literal (quote : Char) (s : List Char) :
    withoutLiterals (.literal quote) s
      = List.replicate (literalRest quote (quote != backtick) s) ' '
        ++ withoutLiterals .code (s.drop (literalRest quote (quote != backtick) s)) := by
  have hescapes : (quote != backtick) = true ↔ quote ≠ backtick := bne_iff_ne
  generalize (quote != backtick) = escapes at hescapes ⊢
  fun_induction literalRest quote escapes s with
  | case1 => rfl
  | case2 c hc =>
      have hc : quote ≠ backtick ∧ c = '\\' := by simpa [hescapes] using hc
      simp [withoutLiterals, Reading.step, hc]
  | case3 c hc d t ih =>
      have hc : quote ≠ backtick ∧ c = '\\' := by simpa [hescapes] using hc
      simp [withoutLiterals, Reading.step, hc, ih, List.replicate_succ]
  | case4 c s hc hq =>
      have hc : ¬(quote ≠ backtick ∧ c = '\\') := by simpa [hescapes] using hc
      have hstep : Reading.step c (.literal quote) = (false, .code) := by
        rw [Reading.step, if_neg hc, if_pos (by simpa using hq)]
      simp [withoutLiterals, hstep]
  | case5 c s hc hq hn =>
      have hc : ¬(quote ≠ backtick ∧ c = '\\') := by simpa [hescapes] using hc
      have hn : c = '\n' ∧ quote ≠ backtick := by simpa using hn
      have hstep : Reading.step c (.literal quote) = (true, .code) := by
        rw [Reading.step, if_neg hc, if_neg (by simpa using hq), if_pos hn]
      have hcode : Reading.step c .code = (true, .code) := by
        rw [hn.1]
        rfl
      simp [withoutLiterals, hstep, hcode]
  | case6 c s hc hq hn ih =>
      have hc : ¬(quote ≠ backtick ∧ c = '\\') := by simpa [hescapes] using hc
      have hn : ¬(c = '\n' ∧ quote ≠ backtick) := by simpa using hn
      have hstep : Reading.step c (.literal quote) = (false, .literal quote) := by
        rw [Reading.step, if_neg hc, if_neg (by simpa using hq), if_neg hn]
      simp [withoutLiterals, hstep, ih, List.replicate_succ]

theorem length_withoutLiterals (reading : Reading) (s : List Char) :
    (withoutLiterals reading s).length = s.length := by
  induction s generalizing reading with
  | nil => rfl
  | cons c s ih => rw [withoutLiterals, List.length_cons, List.length_cons, ih]

theorem withoutLiterals_cons_of_not_quote {c : Char} (hc : isAnyQuote c = false) (s : List Char) :
    withoutLiterals .code (c :: s) = c :: withoutLiterals .code s := by
  simp [withoutLiterals, Reading.step, hc]

/-- A character that is shown is no quote, and what comes after it is read as code. -/
theorem Reading.of_shown {reading : Reading} {c : Char} (h : (reading.step c).1 = true) :
    isAnyQuote c = false ∧ (reading.step c).2 = .code := by
  cases reading with
  | code =>
      by_cases hc : isAnyQuote c = true
      · simp [step, hc] at h
      · simp [step, hc]
  | literal quote =>
      rw [step] at h ⊢
      split at h
      · simp at h
      · split at h
        · simp at h
        · split at h
          · rename_i hescape hclose hcut
            obtain ⟨rfl, hspan⟩ := hcut
            simp only [hspan, hclose, ne_eq, not_false_eq_true, and_true, if_false, if_true,
              show '\n' ≠ '\\' by decide, and_false]
            decide
          · simp at h
  | hidden quote => simp [step] at h

/-- No quote is left. -/
theorem isAnyQuote_of_mem_withoutLiterals {reading : Reading} {s : List Char} {c : Char}
    (h : c ∈ withoutLiterals reading s) : isAnyQuote c = false := by
  induction s generalizing reading with
  | nil => simp [withoutLiterals] at h
  | cons d s ih =>
      rw [withoutLiterals] at h
      rcases List.mem_cons.mp h with rfl | h
      · split
        · rename_i hshown
          exact (Reading.of_shown hshown).1
        · decide
      · exact ih h

theorem closing?_replicate_append (b : Bracket) (depth n : Nat) (s : List Char) :
    b.closing? depth (List.replicate n ' ' ++ s) = (b.closing? depth s).map (· + n) := by
  have hspace : isAnyQuote ' ' = false ∧ (' ' == b.opener) = false ∧ (' ' == b.closer) = false := by
    cases b <;> decide
  induction n with
  | zero => simp
  | succ n ih =>
      rw [List.replicate_succ, List.cons_append, Bracket.closing?, ih]
      simp [hspace, Function.comp_def, Nat.add_assoc]

/-- **Literals do not count.** A group ends where it ends in the text without literals. -/
theorem closing?_withoutLiterals (b : Bracket) (depth : Nat) (s : List Char) :
    b.closing? depth (withoutLiterals .code s) = b.closing? depth s := by
  fun_induction Bracket.closing? b depth s with
  | case1 => simp [withoutLiterals, Bracket.closing?]
  | case2 depth c s hquote n ih =>
      have hhead : withoutLiterals .code (c :: s) = ' ' :: withoutLiterals (.literal c) s := by
        simp [withoutLiterals, Reading.step, hquote]
      rw [hhead, withoutLiterals_literal, ← List.cons_append, ← List.replicate_succ,
        closing?_replicate_append, ih]
      rfl
  | case3 depth c s hquote h ih =>
      rw [withoutLiterals_cons_of_not_quote (by simpa using hquote), Bracket.closing?,
        if_neg hquote, if_pos h, ih]
  | case4 depth c s hquote h h' hdepth =>
      rw [withoutLiterals_cons_of_not_quote (by simpa using hquote), Bracket.closing?,
        if_neg hquote, if_neg h, if_pos h', if_pos hdepth]
  | case5 depth c s hquote h h' hdepth ih =>
      rw [withoutLiterals_cons_of_not_quote (by simpa using hquote), Bracket.closing?,
        if_neg hquote, if_neg h, if_pos h', if_neg hdepth, ih]
  | case6 depth c s hquote h h' ih =>
      rw [withoutLiterals_cons_of_not_quote (by simpa using hquote), Bracket.closing?,
        if_neg hquote, if_neg h, if_neg h', ih]

/-- A bracket that a scan shows stands in the text, and what the scan shows after it is what a scan
shows that starts there. -/
theorem split_of_seen {b : Bracket} {reading : Reading} {s : List Char} {k : Nat}
    (h : (withoutLiterals reading s)[k]? = some b.opener) :
    ∃ front back, s = front ++ b.opener :: back ∧ front.length = k
      ∧ withoutLiterals reading s
        = withoutLiterals reading front ++ b.opener :: withoutLiterals .code back := by
  induction s generalizing reading k with
  | nil => simp [withoutLiterals] at h
  | cons c s ih =>
      rw [withoutLiterals] at h ⊢
      cases k with
      | zero =>
          have hspace : ' ' ≠ b.opener := by cases b <;> decide
          have hc : (if (reading.step c).1 then c else ' ') = b.opener := by simpa using h
          split at hc
          · rename_i hshown
            refine ⟨[], s, by rw [hc]; rfl, rfl, ?_⟩
            rw [if_pos hshown, (Reading.of_shown hshown).2, hc]
            rfl
          · exact absurd hc hspace
      | succ k =>
          rw [List.getElem?_cons_succ] at h
          obtain ⟨front, back, rfl, hlength, hseen⟩ := ih h
          refine ⟨c :: front, back, rfl, by simp [hlength], ?_⟩
          rw [hseen, withoutLiterals]
          rfl

/-! ## Where a group is level -/

namespace Bracket

variable {b : Bracket}

/-- Either no closer of a text comes too early, or there is a first one. -/
theorem depthAfter_split (b : Bracket) (v : List Char) (depth : Nat) :
    (∃ after, b.depthAfter depth v = some after)
      ∨ ∃ front rest, v = front ++ b.closer :: rest ∧ b.depthAfter depth front = some 0 := by
  induction v generalizing depth with
  | nil => exact Or.inl ⟨depth, rfl⟩
  | cons c v ih =>
      by_cases hopener : c = b.opener
      · subst hopener
        rcases ih (depth + 1) with ⟨after, h⟩ | ⟨front, rest, rfl, h⟩
        · exact Or.inl ⟨after, by rwa [depthAfter_opener]⟩
        · exact Or.inr ⟨b.opener :: front, rest, rfl, by rwa [depthAfter_opener]⟩
      · by_cases hcloser : c = b.closer
        · subst hcloser
          cases depth with
          | zero => exact Or.inr ⟨[], v, rfl, rfl⟩
          | succ depth =>
              rcases ih depth with ⟨after, h⟩ | ⟨front, rest, rfl, h⟩
              · exact Or.inl ⟨after, by rwa [depthAfter_closer]⟩
              · exact Or.inr ⟨b.closer :: front, rest, rfl, by rwa [depthAfter_closer]⟩
        · rcases ih depth with ⟨after, h⟩ | ⟨front, rest, rfl, h⟩
          · exact Or.inl ⟨after, by rwa [depthAfter_other _ _ hopener hcloser]⟩
          · exact Or.inr ⟨c :: front, rest, rfl, by rwa [depthAfter_other _ _ hopener hcloser]⟩

/-- A text that closes more than it opens has a balanced beginning before a closer. -/
theorem exists_isBalanced {s : List Char} {depth : Nat}
    (h : b.depthAfter (depth + 1) s = some 0) :
    ∃ front rest, s = front ++ b.closer :: rest ∧ b.IsBalanced front := by
  rcases b.depthAfter_split s 0 with ⟨after, hafter⟩ | hclosed
  · have hmore := depthAfter_add (depth + 1) hafter
    rw [Nat.zero_add, h] at hmore
    simp at hmore
  · exact hclosed

/-- The two ways in which the search for the end of a group can go. -/
theorem closing?_cases (b : Bracket) (s : List Char) :
    (∃ front rest, withoutLiterals .code s = front ++ b.closer :: rest ∧ b.IsBalanced front
        ∧ b.closing? 1 s = some (front.length + 1))
      ∨ (b.closing? 1 s = none
        ∧ ∃ depth, b.depthAfter 0 (withoutLiterals .code s) = some depth) := by
  have hquote : ∀ c ∈ withoutLiterals .code s, isAnyQuote c = false :=
    fun c hc => isAnyQuote_of_mem_withoutLiterals hc
  rw [← closing?_withoutLiterals]
  rcases b.depthAfter_split (withoutLiterals .code s) 0 with ⟨depth, h⟩ | ⟨front, rest, hs, h⟩
  · refine Or.inr ⟨?_, depth, h⟩
    have hopen := closing?_append [] hquote h
    rw [List.append_nil] at hopen
    simpa [closing?] using hopen
  · refine Or.inl ⟨front, rest, hs, h, ?_⟩
    rw [hs]
    refine closing?_of_isBalanced rest (fun c hc => hquote c ?_) h
    rw [hs]
    exact List.mem_append_left _ hc

/-- A group ends within the text. -/
theorem closing?_getD_le (b : Bracket) (s : List Char) :
    (b.closing? 1 s).getD s.length ≤ s.length := by
  rcases b.closing?_cases s with ⟨front, rest, hs, -, h⟩ | ⟨h, -⟩
  · have hlength := congrArg List.length hs
    rw [length_withoutLiterals, List.length_append, List.length_cons] at hlength
    rw [h, Option.getD_some]
    omega
  · exact h ▸ Nat.le_refl _

/-- A group that opens inside balanced text closes inside of it. -/
theorem closing?_inside {outer front rest back : List Char} (hfront : b.IsBalanced front)
    (h : outer ++ b.opener :: withoutLiterals .code back = front ++ b.closer :: rest)
    (hle : outer.length ≤ front.length) :
    ∃ n, b.closing? 1 back = some n ∧ outer.length + 1 + n ≤ front.length := by
  obtain ⟨middle, hmiddle, hback⟩ : ∃ middle, front = outer ++ middle
      ∧ b.opener :: withoutLiterals .code back = middle ++ b.closer :: rest := by
    rcases List.append_eq_append_iff.mp h with ⟨middle, hfront, hback⟩ | ⟨middle, houter, hback⟩
    · exact ⟨middle, hfront, hback⟩
    · have hnil : middle = [] := by
        have hlength := congrArg List.length houter
        rw [List.length_append] at hlength
        exact List.eq_nil_of_length_eq_zero (by omega)
      subst hnil
      exact ⟨[], by simpa using houter.symm, by simpa using hback.symm⟩
  cases middle with
  | nil => exact absurd (List.cons.inj hback).1 b.opener_ne_closer
  | cons c middle =>
      obtain ⟨rfl, hrest⟩ := List.cons.inj hback
      subst hmiddle
      obtain ⟨depth, hdepth⟩ := hfront.prefix_depth
      rw [IsBalanced, depthAfter_append, hdepth, Option.bind_some, depthAfter_opener] at hfront
      obtain ⟨inside, after, rfl, hinside⟩ := exists_isBalanced hfront
      have hback : withoutLiterals .code back
          = inside ++ b.closer :: (after ++ b.closer :: rest) := by
        rw [hrest]
        exact List.append_assoc ..
      refine ⟨inside.length + 1, ?_, ?_⟩
      · rw [← closing?_withoutLiterals, hback]
        refine closing?_of_isBalanced _ (fun c hc => ?_) hinside
        have hmem : c ∈ withoutLiterals .code back := by
          rw [hback]
          exact List.mem_append_left _ hc
        exact isAnyQuote_of_mem_withoutLiterals hmem
      · simp only [List.length_append, List.length_cons]
        omega

/-- As long as no closer comes too early, the opener of the group is not closed. -/
theorem not_isLevel_of_depthAfter {v : List Char} {n depth : Nat}
    (h : b.depthAfter 0 (v.take n) = some depth) : ¬b.IsLevel (b.opener :: v) (n + 1) := by
  intro hlevel
  have hcount := count_of_depthAfter h
  have hequal := hlevel.2
  rw [List.take_succ_cons, List.count_cons_self, List.count_cons_of_ne b.opener_ne_closer] at hequal
  omega

theorem not_isLevel_zero (seen : List Char) : ¬b.IsLevel seen 0 := by
  intro hlevel
  simpa using hlevel.1

/-- A group is level after the closer of its balanced inside, and nowhere before. -/
theorem isLevel_of_isBalanced {front : List Char} (rest : List Char) (h : b.IsBalanced front) :
    b.IsLevel (b.opener :: (front ++ b.closer :: rest)) (front.length + 2)
      ∧ ∀ n < front.length + 2, ¬b.IsLevel (b.opener :: (front ++ b.closer :: rest)) n := by
  constructor
  · have htake : (b.opener :: (front ++ b.closer :: rest)).take (front.length + 2)
        = b.opener :: (front ++ [b.closer]) := by
      rw [List.take_succ_cons, List.take_length_add_append]
      rfl
    have hcount := count_of_depthAfter h
    rw [IsLevel, htake]
    constructor
    · rw [← List.cons_append, List.getLast?_concat]
    · rw [List.count_cons_self, List.count_cons_of_ne b.opener_ne_closer, List.count_append,
        List.count_append, List.count_singleton_self,
        List.count_cons_of_ne b.opener_ne_closer.symm]
      simp only [List.count_nil]
      omega
  · intro n hn
    cases n with
    | zero => exact not_isLevel_zero _
    | succ n =>
        have htaken : (front ++ b.closer :: rest).take n = front.take n :=
          List.take_append_of_le_length (by omega)
        obtain ⟨depth, hdepth⟩ := IsBalanced.prefix_depth
          (show b.IsBalanced (front.take n ++ front.drop n) by rwa [List.take_append_drop])
        exact not_isLevel_of_depthAfter (htaken ▸ hdepth)

end Bracket

/-! ## Scans from a position -/

section Positions

variable {text : List Char} {position : Int} {c : Char}

theorem place_of_neg (text : List Char) (h : position < 0) :
    place text position = (text.length + position).toNat :=
  if_pos h

/-- The character at a position is the first one that a scan from there goes through. -/
theorem charAt?_eq_head? (hstart : 0 ≤ text.length + position) :
    charAt? text position = (textFrom text position).head? := by
  by_cases h : 0 ≤ position
  · simp [charAt?, textFrom, h, List.head?_drop]
  · have hplace := place_of_neg text (Int.not_le.mp h)
    have hlt : place text position < text.length := by omega
    rw [charAt?, textFrom, if_neg h, if_neg h, if_neg (by omega), List.head?_append,
      List.head?_drop, List.getElem?_eq_getElem hlt]
    rfl

theorem start_of_charAt? (h : charAt? text position = some c) : 0 ≤ text.length + position := by
  by_cases hposition : 0 ≤ position
  · omega
  · rw [charAt?, if_neg hposition] at h
    split at h
    · simp at h
    · omega

/-- A scan goes on to the end of the text. -/
theorem textFrom_eq_cons (h : charAt? text position = some c) :
    ∃ s, textFrom text position = c :: s ∧ position + (s.length + 1 : Nat) = text.length := by
  have hstart := start_of_charAt? h
  rw [charAt?_eq_head? hstart] at h
  obtain ⟨s, hs⟩ := List.head?_eq_some_iff.mp h
  refine ⟨s, hs, ?_⟩
  have hlength := congrArg List.length hs
  by_cases hposition : 0 ≤ position
  · simp only [textFrom, hposition, if_true, List.length_drop, List.length_cons] at hlength
    omega
  · simp only [textFrom, hposition, if_false, List.length_append, List.length_drop,
      List.length_cons, place_of_neg text (Int.not_le.mp hposition)] at hlength
    omega

/-- A scan from a later position goes through what is left of the scan. -/
theorem textFrom_drop (hstart : 0 ≤ text.length + position) {later : Int}
    (hle : position ≤ later) :
    textFrom text later = (textFrom text position).drop (later - position).toNat := by
  by_cases hposition : 0 ≤ position
  · have hlater : 0 ≤ later := Int.le_trans hposition hle
    rw [textFrom, textFrom, if_pos hlater, if_pos hposition, List.drop_drop]
    congr 1
    omega
  · have hplace := place_of_neg text (Int.not_le.mp hposition)
    rw [textFrom, textFrom, if_neg hposition]
    by_cases hlater : 0 ≤ later
    · have hlength : (text.drop (place text position)).length = (-position).toNat := by
        rw [List.length_drop, hplace]
        omega
      have hpast : (text.drop (place text position)).length ≤ (later - position).toNat := by omega
      rw [if_pos hlater, List.drop_append, List.drop_eq_nil_of_le hpast, List.nil_append, hlength]
      congr 1
      omega
    · have hplace' := place_of_neg text (Int.not_le.mp hlater)
      rw [if_neg hlater, List.drop_append_of_le_length (by simp only [List.length_drop]; omega),
        List.drop_drop]
      congr 2
      omega

theorem seenFrom_eq_cons {b : Bracket} {s : List Char} (hs : textFrom text position = b.opener :: s) :
    seenFrom text position = b.opener :: withoutLiterals .code s := by
  rw [seenFrom, hs]
  exact withoutLiterals_cons_of_not_quote (by cases b <;> decide) s

/-- The end of the group, told by what a scan goes through. -/
theorem groupEndAt_opener {b : Bracket} {s : List Char}
    (hopen : charAt? text position = some b.opener)
    (hs : textFrom text position = b.opener :: s) :
    groupEndAt text position
      = .ok (position + ((b.closing? 1 s).getD s.length + 1 : Nat)) := by
  obtain ⟨_, hcons, hlength⟩ := textFrom_eq_cons hopen
  obtain rfl := (List.cons.inj (hcons.symm.trans hs)).2
  by_cases hposition : 0 ≤ position
  · rw [textFrom, if_pos hposition] at hs
    rw [groupEndAt, if_pos hposition, groupEnd, hs]
    simp only [b.ofOpener?_opener]
    refine congrArg Except.ok ?_
    show Int.ofNat _ = _
    cases b.closing? 1 _ with
    | none =>
        show (text.length : Int) = _
        exact hlength.symm
    | some n =>
        show ((position.toNat + 1 + n : Nat) : Int) = position + (n + 1 : Nat)
        omega
  · rw [textFrom, if_neg hposition] at hs
    have hstart := start_of_charAt? hopen
    rw [groupEndAt, if_neg hposition, if_neg (by omega), hs, groupEnd, List.drop_zero]
    simp only [b.ofOpener?_opener]
    refine congrArg Except.ok ?_
    cases b.closing? 1 _ with
    | none => rfl
    | some n =>
        show position + ((0 + 1 + n : Nat) : Int) = position + (n + 1 : Nat)
        omega

end Positions

/-! ## Groups of one kind -/

section Groups

variable {text : List Char} {position : Int} {b : Bracket} {s : List Char}

/-- What a scan from a bracket sees up to a position. -/
theorem isLevelAt_iff (hs : textFrom text position = b.opener :: s) (stop : Int) :
    b.IsLevelAt text position stop
      ↔ position < stop ∧ stop ≤ text.length
        ∧ b.IsLevel (b.opener :: withoutLiterals .code s) (stop - position).toNat := by
  rw [Bracket.IsLevelAt, seenFrom_eq_cons hs]

/-- A group ends where its inside is balanced. -/
theorem closesAt_of_isBalanced {front rest : List Char}
    (hs : textFrom text position = b.opener :: s)
    (hsplit : withoutLiterals .code s = front ++ b.closer :: rest) (hfront : b.IsBalanced front)
    (hend : position + (front.length + 2 : Nat) ≤ text.length) :
    b.ClosesAt text position (position + (front.length + 2 : Nat)) := by
  obtain ⟨hlevel, hbefore⟩ := Bracket.isLevel_of_isBalanced rest hfront
  rw [← hsplit] at hlevel hbefore
  constructor
  · rw [isLevelAt_iff hs]
    refine ⟨by omega, hend, ?_⟩
    rwa [show (position + ((front.length + 2 : Nat) : Int) - position).toNat = front.length + 2
      by omega]
  · intro k hk hlevelAt
    rw [isLevelAt_iff hs] at hlevelAt
    exact hbefore _ (by omega) hlevelAt.2.2

/-- A scan in which no closer comes too early is level nowhere. -/
theorem not_isLevelAt_of_depthAfter {depth : Nat} (hs : textFrom text position = b.opener :: s)
    (h : b.depthAfter 0 (withoutLiterals .code s) = some depth) (k : Int) :
    ¬b.IsLevelAt text position k := by
  intro hlevelAt
  rw [isLevelAt_iff hs] at hlevelAt
  obtain ⟨hlt, -, hlevel⟩ := hlevelAt
  obtain ⟨n, hn⟩ : ∃ n, (k - position).toNat = n + 1 := ⟨(k - position).toNat - 1, by omega⟩
  rw [hn] at hlevel
  rw [← List.take_append_drop n (withoutLiterals .code s), Bracket.depthAfter_append] at h
  cases hdepth : b.depthAfter 0 ((withoutLiterals .code s).take n) with
  | none =>
      rw [hdepth] at h
      exact nomatch h
  | some d => exact Bracket.not_isLevel_of_depthAfter hdepth hlevel

/-- A bracket that a scan meets opens a group of its own, and what the scan sees after the bracket
is what a scan of that group sees. -/
theorem meets_opener {inside : Int} (hopen : charAt? text position = some b.opener)
    (hs : textFrom text position = b.opener :: s) (hlt : position < inside)
    (hsees : SeesAt text position inside b.opener) :
    ∃ front back, s = front ++ b.opener :: back
      ∧ inside = position + (front.length + 1 : Nat)
      ∧ withoutLiterals .code s
        = withoutLiterals .code front ++ b.opener :: withoutLiterals .code back
      ∧ groupEndAt text inside
        = .ok (inside + ((b.closing? 1 back).getD back.length + 1 : Nat)) := by
  obtain ⟨n, hn⟩ : ∃ n : Nat, inside = position + (n + 1 : Nat) :=
    ⟨(inside - position).toNat - 1, by omega⟩
  have hseen := hsees.2
  rw [seenFrom_eq_cons hs, show (inside - position).toNat = n + 1 by omega,
    List.getElem?_cons_succ] at hseen
  obtain ⟨front, back, rfl, hfront, hsplit⟩ := split_of_seen hseen
  have hstart := start_of_charAt? hopen
  have hinside : textFrom text inside = b.opener :: back := by
    rw [textFrom_drop hstart (by omega), hs, show (inside - position).toNat = n + 1 by omega,
      List.drop_succ_cons, ← hfront, List.drop_left]
  have hchar : charAt? text inside = some b.opener := by
    rw [charAt?_eq_head? (by omega), hinside]
    rfl
  exact ⟨front, back, rfl, by rw [hn, hfront], hsplit, groupEndAt_opener hchar hinside⟩

end Groups

/-- **Groups are exact, and nested or apart.** The group that a bracket opens ends after the bracket,
at the latest at the end of the text. It ends after the first closer at which a scan from the bracket
has seen as many brackets of its kind closed as opened, or at the end of the text if there is none.
The group of a bracket of its kind that the scan meets inside ends inside as well, and before a
closer. The inside of a group that is closed is what stands between its brackets. -/
theorem groups_are_exact_and_nested {text : List Char} {position : Int} {b : Bracket}
    (hopen : charAt? text position = some b.opener) :
    ∃ stop, groupEndAt text position = .ok stop ∧ position < stop ∧ stop ≤ text.length
      ∧ (b.ClosesAt text position stop
        ∨ stop = text.length ∧ ∀ k, ¬b.IsLevelAt text position k)
      ∧ (∀ inside, position < inside → inside < stop → SeesAt text position inside b.opener →
          ∃ inner, groupEndAt text inside = .ok inner ∧ inner ≤ stop
            ∧ (b.ClosesAt text position stop → inner < stop))
      ∧ (b.ClosesAt text position stop →
          groupAt text position
            = .ok (slice text (place text (position + 1)) (place text (stop - 1)), stop)) := by
  obtain ⟨s, hs, hlength⟩ := textFrom_eq_cons hopen
  rw [groupAt, groupEndAt_opener hopen hs]
  rcases b.closing?_cases s with ⟨front, rest, hsplit, hfront, hclosing⟩ | ⟨hclosing, depth, hdepth⟩
  · have hwithin := b.closing?_getD_le s
    rw [hclosing, Option.getD_some] at hwithin ⊢
    have hcloses := closesAt_of_isBalanced hs hsplit hfront (by omega)
    refine ⟨_, rfl, by omega, by omega, Or.inl hcloses, ?_, ?_⟩
    · intro inside hlt hinside hsees
      obtain ⟨outer, back, rfl, rfl, hseen, hend⟩ := meets_opener hopen hs hlt hsees
      rw [hseen] at hsplit
      obtain ⟨n, hn, hle⟩ := Bracket.closing?_inside hfront hsplit
        (by rw [length_withoutLiterals]; omega)
      rw [length_withoutLiterals] at hle
      rw [hn, Option.getD_some] at hend
      exact ⟨_, hend, by omega, fun _ => by omega⟩
    · intro _
      have hmax : max (position + 1) (position + (front.length + 1 + 1 : Nat) - 1)
          = position + (front.length + 1 + 1 : Nat) - 1 := by omega
      show Except.ok (slice text _ (place text (max _ _)), _) = _
      rw [hmax]
  · rw [hclosing, Option.getD_none]
    have hnot := not_isLevelAt_of_depthAfter hs hdepth
    refine ⟨_, rfl, by omega, by omega, Or.inr ⟨hlength, hnot⟩, ?_, ?_⟩
    · intro inside hlt hinside hsees
      obtain ⟨outer, back, rfl, rfl, -, hend⟩ := meets_opener hopen hs hlt hsees
      have hwithin := b.closing?_getD_le back
      simp only [List.length_append, List.length_cons] at hlength ⊢
      exact ⟨_, hend, by omega, fun hcloses => absurd hcloses.1 (hnot _)⟩
    · intro hcloses
      exact absurd hcloses.1 (hnot _)

/-- The group of the first bracket of a text with a bracket in a literal and a group inside. -/
theorem groups_of_nested_call :
    charAt? "(')', (x)) y".toList 0 = some Bracket.round.opener
      ∧ SeesAt "(')', (x)) y".toList 0 6 Bracket.round.opener
      ∧ ∃ stop, groupEndAt "(')', (x)) y".toList 0 = .ok stop
        ∧ Bracket.round.ClosesAt "(')', (x)) y".toList 0 stop
        ∧ ∃ inner, groupEndAt "(')', (x)) y".toList 6 = .ok inner ∧ inner < stop := by
  have hopen : charAt? "(')', (x)) y".toList 0 = some Bracket.round.opener := by decide
  have hsees : SeesAt "(')', (x)) y".toList 0 6 Bracket.round.opener := ⟨by decide, by decide⟩
  have hend : groupEndAt "(')', (x)) y".toList 0 = .ok 10 := by cbv
  refine ⟨hopen, hsees, ?_⟩
  obtain ⟨stop, hstop, -, -, hcloses | ⟨hlast, -⟩, hinside, -⟩ := groups_are_exact_and_nested hopen
  · obtain rfl := Except.ok.inj (hstop.symm.trans hend)
    obtain ⟨inner, hinner, -, hlt⟩ := hinside 6 (by decide) (by decide) hsees
    exact ⟨10, hend, hcloses, inner, hinner, hlt hcloses⟩
  · rw [hlast] at hstop
    exact absurd (Except.ok.inj (hstop.symm.trans hend)) (by decide)

end ServiceMap.Source
