import ServiceMap.Proofs.Declaration.StructLines
import ServiceMap.Proofs.Facts.SameCode

/-!
# Lines in print, numbered lines and lines of a document

Lines without breaks are read back from a text that has each of them with a newline after it, or a
newline between each two. The lines that line numbers count end at newlines, those of a document at
every break. A document has the lines of its numbered lines, one numbered line after the other; so its
first lines are the numbered ones if there is no other break in these, and come from further up if
there is one.
-/

namespace ServiceMap.Text

/-! ## Lines in print -/

/-- Lines, each with its newline. -/
def printLines (list : List (List Char)) : List Char :=
  list.flatMap fun line => line ++ ['\n']

theorem printLines_cons (line : List Char) (list : List (List Char)) :
    printLines (line :: list) = line ++ '\n' :: printLines list := by
  rw [printLines, List.flatMap_cons, List.append_assoc]
  rfl

theorem printLines_append (list more : List (List Char)) :
    printLines (list ++ more) = printLines list ++ printLines more :=
  List.flatMap_append

theorem lines_printLines_append {list : List (List Char)}
    (h : ∀ line ∈ list, ∀ c ∈ line, isLineBreak c = false) (rest : List Char) :
    lines (printLines list ++ rest) = list ++ lines rest := by
  induction list with
  | nil => rfl
  | cons line list ih =>
      rw [printLines_cons, List.append_assoc, List.cons_append,
        lines_append_newline (h line List.mem_cons_self),
        ih fun other hother => h other (List.mem_cons_of_mem line hother)]
      rfl

theorem lines_printLines {list : List (List Char)}
    (h : ∀ line ∈ list, ∀ c ∈ line, isLineBreak c = false) : lines (printLines list) = list := by
  have hlines := lines_printLines_append h []
  rwa [List.append_nil, lines, List.append_nil] at hlines

/-- The same below an empty line. -/
theorem lines_newline_printLines {list : List (List Char)}
    (h : ∀ line ∈ list, ∀ c ∈ line, isLineBreak c = false) :
    lines ('\n' :: printLines list) = [] :: list := by
  have hall : ∀ line ∈ [] :: list, ∀ c ∈ line, isLineBreak c = false :=
    List.forall_mem_cons.mpr ⟨fun c hc => absurd hc List.not_mem_nil, h⟩
  have hlines := lines_printLines hall
  rwa [printLines_cons, List.nil_append] at hlines

theorem joinLines_append_singleton (list : List (List Char)) (last : List Char) :
    joinLines (list ++ [last]) = printLines list ++ last := by
  induction list with
  | nil => rfl
  | cons line list ih =>
      rw [List.cons_append, printLines_cons, List.append_assoc, List.cons_append, ← ih, joinLines,
        joinLines]
      cases list with
      | nil => rw [List.nil_append, join_cons_cons, List.singleton_append]
      | cons other list => rw [List.cons_append, join_cons_cons, List.singleton_append]

theorem lines_of_no_break {line : List Char} (hne : line ≠ [])
    (h : ∀ c ∈ line, isLineBreak c = false) : lines line = [line] := by
  induction line with
  | nil => exact absurd rfl hne
  | cons c line ih =>
      rw [lines_cons (h c List.mem_cons_self)]
      cases line with
      | nil => rfl
      | cons d line =>
          rw [ih (List.cons_ne_nil d line) fun e he => h e (List.mem_cons_of_mem c he)]

/-- Lines that are not empty are read back from what they were joined to. -/
theorem lines_joinLines {list : List (List Char)} (hne : ∀ line ∈ list, line ≠ [])
    (h : ∀ line ∈ list, ∀ c ∈ line, isLineBreak c = false) : lines (joinLines list) = list := by
  rcases List.eq_nil_or_concat list with rfl | ⟨front, last, rfl⟩
  · rfl
  · rw [List.concat_eq_append] at hne h ⊢
    have hlast : last ∈ front ++ [last] := List.mem_append_right front List.mem_cons_self
    have hfront : ∀ line ∈ front, ∀ c ∈ line, isLineBreak c = false :=
      fun line hline => h line (List.mem_append_left _ hline)
    rw [joinLines_append_singleton, lines_printLines_append hfront,
      lines_of_no_break (hne last hlast) (h last hlast)]

/-! ## Numbered lines -/

variable {text line : List Char} {n : Nat}

/-- The first lines of a text, as many as asked for, as line numbers count them. -/
def linesAbove (text : List Char) (n : Nat) : List (List Char) :=
  (splitOn (· == '\n') text).take n

/-- The lines of a document that lie in its first numbered lines. -/
def documentLinesAbove (text : List Char) (n : Nat) : List (List Char) :=
  (linesAbove text n).flatMap fun line => lines (line ++ ['\n'])

/-! ## One line after the other -/

theorem lines_newline_ne_nil (s : List Char) : lines (s ++ ['\n']) ≠ [] := by
  intro h
  have hcount := newlines_le_length_lines (s ++ ['\n'])
  rw [h, newlines, List.count_append] at hcount
  exact absurd hcount (by simp)

theorem lines_cons_append_newline {c : Char} {s rest : List Char} (hc : isLineBreak c = false)
    (h : lines (s ++ '\n' :: rest) = lines (s ++ ['\n']) ++ lines rest) :
    lines (c :: s ++ '\n' :: rest) = lines (c :: s ++ ['\n']) ++ lines rest := by
  obtain ⟨first, others, hfirst⟩ := List.exists_cons_of_ne_nil (lines_newline_ne_nil s)
  rw [List.cons_append, List.cons_append, lines_cons hc, lines_cons hc, h, hfirst]
  rfl

/-- What is above a newline and what is below it have no line in common. -/
theorem lines_append_newline_cons (s rest : List Char) :
    lines (s ++ '\n' :: rest) = lines (s ++ ['\n']) ++ lines rest := by
  -- a carriage return right before the newline belongs to the same break
  fun_induction lines s with
  | case1 =>
      rw [List.nil_append, List.nil_append]
      have hnone : ∀ c ∈ ([] : List Char), isLineBreak c = false := List.forall_mem_nil _
      exact lines_append_newline hnone rest
  | case2 s ih =>
      rw [List.cons_append, List.cons_append, List.cons_append, List.cons_append, lines, lines, ih]
      rfl
  | case3 c s hreturn hc ih =>
      by_cases hlast : c = '\r' ∧ s = []
      · obtain ⟨rfl, rfl⟩ := hlast
        rfl
      · have hbreak : ∀ t, lines (c :: (s ++ '\n' :: t)) = [] :: lines (s ++ '\n' :: t) := by
          intro t
          rw [lines, if_pos hc]
          rintro u rfl heq
          cases s with
          | nil => exact hlast ⟨rfl, rfl⟩
          | cons d s =>
              obtain ⟨rfl, -⟩ := List.cons.inj heq
              exact hreturn s rfl rfl
        rw [List.cons_append, List.cons_append, hbreak, hbreak, ih]
        rfl
  | case4 c s _ hc hnil ih => exact lines_cons_append_newline (Bool.eq_false_iff.mpr hc) ih
  | case5 c s _ hc line rest hlines ih =>
      exact lines_cons_append_newline (Bool.eq_false_iff.mpr hc) ih

theorem lines_printed_append (above : List (List Char)) (rest : List Char) :
    lines (printLines above ++ rest)
      = (above.flatMap fun line => lines (line ++ ['\n'])) ++ lines rest := by
  induction above with
  | nil => rfl
  | cons line above ih =>
      rw [printLines_cons, List.flatMap_cons, List.append_assoc, List.cons_append,
        lines_append_newline_cons, ih, List.append_assoc]

/-- A document has at least one line in each of its numbered lines. -/
theorem length_le_flatMap_lines (above : List (List Char)) :
    above.length ≤ (above.flatMap fun line => lines (line ++ ['\n'])).length := by
  induction above with
  | nil => exact Nat.le_refl 0
  | cons line above ih =>
      have hline := List.length_pos_iff.mpr (lines_newline_ne_nil line)
      rw [List.flatMap_cons, List.length_append, List.length_cons]
      omega

/-- The first numbered lines stand at the start of the text, each with its newline. -/
theorem exists_below (h : n ≤ newlines text) :
    (linesAbove text n).length = n
      ∧ ∃ rest, text = printLines (linesAbove text n) ++ rest := by
  induction n generalizing text with
  | zero => exact ⟨rfl, text, rfl⟩
  | succ n ih =>
      have hmem : '\n' ∈ text := List.count_pos_iff.mp (Nat.lt_of_lt_of_le (Nat.succ_pos n) h)
      obtain ⟨line, below, rfl, hline⟩ := List.eq_append_cons_of_mem hmem
      have hnewlines : newlines (line ++ '\n' :: below) = newlines below + 1 := by
        simp [newlines, List.count_eq_zero.mpr hline]
      have hnotBreak : ∀ c ∈ line, (c == '\n') = false := by
        rintro c hc
        exact beq_eq_false_iff_ne.mpr fun heq => hline (heq ▸ hc)
      have habove : linesAbove (line ++ '\n' :: below) (n + 1) = line :: linesAbove below n := by
        rw [linesAbove, splitOn_append_cons hnotBreak (beq_self_eq_true _), List.take_succ_cons]
        rfl
      rw [hnewlines] at h
      obtain ⟨hlength, rest, hrest⟩ := ih (Nat.le_of_succ_le_succ h)
      refine ⟨by rw [habove, List.length_cons, hlength], rest, ?_⟩
      rw [habove, printLines_cons, List.append_assoc, List.cons_append, ← hrest]

/-- **The first lines of a document** are those of its first numbered lines. -/
theorem take_lines (h : n ≤ newlines text) :
    (lines text).take n = (documentLinesAbove text n).take n := by
  obtain ⟨hlength, rest, hrest⟩ := exists_below h
  have hlines : lines text = documentLinesAbove text n ++ lines rest := by
    conv_lhs => rw [hrest]
    exact lines_printed_append (linesAbove text n) rest
  have hle := length_le_flatMap_lines (linesAbove text n)
  rw [hlength] at hle
  rw [hlines]
  exact List.take_append_of_le_length hle

/-! ## Lines without other breaks -/

/-- A numbered line without a break in it, except for a carriage return right before its newline. -/
def IsUnbroken (line : List Char) : Prop :=
  ∃ body, (line = body ∨ line = body ++ ['\r']) ∧ ∀ c ∈ body, isLineBreak c = false

theorem lines_append_return {body : List Char} (hbody : ∀ c ∈ body, isLineBreak c = false)
    (s : List Char) : lines (body ++ '\r' :: '\n' :: s) = body :: lines s := by
  induction body with
  | nil => rw [List.nil_append, lines]
  | cons c body ih =>
      rw [List.cons_append, lines_cons (hbody c List.mem_cons_self),
        ih fun d hd => hbody d (List.mem_cons_of_mem c hd)]

/-- Such a line is one line of the document, but for blanks at its end. -/
theorem IsUnbroken.lines_eq (h : IsUnbroken line) :
    ∃ body, lines (line ++ ['\n']) = [body] ∧ trim body = trim line := by
  obtain ⟨body, rfl | rfl, hbody⟩ := h
  · exact ⟨line, lines_append_newline hbody [], rfl⟩
  · have hreturn : IsGap ['\r'] := by simp [IsGap, isBlank]
    refine ⟨body, ?_, (trim_between isGap_nil hreturn body).symm⟩
    rw [List.append_assoc]
    exact lines_append_return hbody []

/-- Such lines are read as the lines of the document if blanks at their ends do not count. -/
theorem map_documentLinesAbove {α : Type} {read : List Char → α}
    (hread : ∀ s t, trim s = trim t → read s = read t)
    (hplain : ∀ line ∈ linesAbove text n, IsUnbroken line) :
    (documentLinesAbove text n).map read = (linesAbove text n).map read := by
  rw [documentLinesAbove]
  generalize linesAbove text n = above at hplain ⊢
  induction above with
  | nil => rfl
  | cons line above ih =>
      obtain ⟨body, hlines, htrim⟩ := (hplain line List.mem_cons_self).lines_eq
      rw [List.flatMap_cons, List.map_append, hlines, List.map_cons,
        ih fun other hother => hplain other (List.mem_cons_of_mem line hother),
        hread body line htrim]
      rfl

end ServiceMap.Text
