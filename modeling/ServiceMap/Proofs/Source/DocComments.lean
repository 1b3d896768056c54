import ServiceMap.Facts.Reading
import ServiceMap.Proofs.Source.AtSigns
import ServiceMap.Proofs.Source.Attributes
import ServiceMap.Proofs.Source.Balance
import ServiceMap.Proofs.Source.CommentLexer
import ServiceMap.Proofs.Source.CommentLines

/-!
# Documentation in print

Documentation is printed as a comment between a statement and a declaration. Masking blanks the comment
and nothing else, the preamble of the declaration goes back to the end of the statement, and what masking
took away in it is the comment; so the lines of documentation are read back, whatever stands in them.
-/

namespace ServiceMap.Source

open ServiceMap.Text

variable {rawQuote : Option Char}

/-! ## Where a text ends -/

/-- The mode after a text. -/
def Mode.after (rawQuote : Option Char) : Mode → List Char → Mode
  | mode, [] => mode
  | mode, c :: s => (mode.step rawQuote c s.head?).2.after rawQuote s

/-- The next character tells something only about a slash or an asterisk. -/
theorem step_congr (rawQuote : Option Char) {c : Char} (hslash : c ≠ '/') (hasterisk : c ≠ '*')
    (mode : Mode) (next next' : Option Char) :
    mode.step rawQuote c next = mode.step rawQuote c next' := by
  have hcode : codeStep rawQuote c next = codeStep rawQuote c next' := by
    rw [codeStep_of_ne_slash hslash, codeStep_of_ne_slash hslash]
  cases mode <;> simp [Mode.step, hcode, hasterisk]

/-- What follows a text is read from the mode after it, unless the last character of the text could be
the first one of a mark. -/
theorem blankFrom_append (rawQuote : Option Char) {front : List Char}
    (hlast : ∀ c ∈ front.getLast?, c ≠ '/' ∧ c ≠ '*') (mode : Mode) (s : List Char) :
    blankFrom rawQuote mode (front ++ s)
      = blankFrom rawQuote mode front ++ blankFrom rawQuote (mode.after rawQuote front) s := by
  induction front generalizing mode with
  | nil => rfl
  | cons c front ih =>
      cases front with
      | nil =>
          obtain ⟨hslash, hasterisk⟩ := hlast c rfl
          have hstep := step_congr rawQuote hslash hasterisk mode s.head? none
          rw [List.singleton_append, blankFrom, hstep]
          rfl
      | cons d front =>
          rw [List.cons_append, blankFrom, ih hlast]
          rfl

theorem codeStep_kept {c : Char} (hc : c ≠ '/') (next : Option Char) :
    (codeStep rawQuote c next).1 = false := by
  rw [codeStep_of_ne_slash hc]
  split <;> rfl

/-- A comment goes on after its characters, unless it closes. -/
theorem step_kept {c : Char} {next : Option Char} {mode : Mode} (hc : c ≠ '/')
    (hmode : mode ≠ .blockClosing) (h : (mode.step rawQuote c next).2 = .code) :
    (mode.step rawQuote c next).1 = false := by
  cases mode with
  | code => exact codeStep_kept hc next
  | lineComment =>
      rw [Mode.step] at h ⊢
      split at h
      · rename_i hnewline
        rw [if_pos hnewline]
        exact codeStep_kept hc next
      · cases h
  | blockOpening => cases h
  | blockComment =>
      rw [Mode.step] at h
      split at h
      · cases h
      · cases h
  | blockClosing => exact absurd rfl hmode
  | literal quote =>
      rw [Mode.step]
      split
      · rfl
      · split
        · rfl
        · split
          · exact codeStep_kept hc next
          · rfl
  | hidden quote => rfl

/-- A block comment closes at a slash. -/
theorem step_closing {c : Char} {next : Option Char} {mode : Mode}
    (h : (mode.step rawQuote c next).2 = .blockClosing) : next = some '/' := by
  have hcode : (codeStep rawQuote c next).2 ≠ .blockClosing := by
    unfold codeStep
    intro hclosing
    split at hclosing
    · cases hclosing
    · split at hclosing
      · cases hclosing
      · split at hclosing <;> cases hclosing
  cases mode with
  | code => exact absurd h hcode
  | lineComment =>
      rw [Mode.step] at h
      split at h
      · exact absurd h hcode
      · cases h
  | blockOpening => cases h
  | blockComment =>
      rw [Mode.step] at h
      split at h
      · rename_i hclosing
        exact hclosing.2
      · cases h
  | blockClosing => cases h
  | literal quote =>
      rw [Mode.step] at h
      split at h
      · cases h
      · split at h
        · cases h
        · split at h
          · exact absurd h hcode
          · cases h
  | hidden quote => cases h

/-- The last character of a text that ends in code is kept if it closes no comment. -/
theorem exists_blankFrom_concat {front : List Char} {c : Char} (hc : c ≠ '/') :
    ∀ mode : Mode, (mode = .blockClosing → (front ++ [c]).head? = some '/') →
      mode.after rawQuote (front ++ [c]) = .code →
      ∃ masked, blankFrom rawQuote mode (front ++ [c]) = masked ++ [c] := by
  induction front with
  | nil =>
      intro mode hmode hafter
      have hkept : (mode.step rawQuote c none).1 = false :=
        step_kept hc (fun heq => hc (Option.some.inj (hmode heq))) hafter
      refine ⟨[], ?_⟩
      rw [List.nil_append, blankFrom, List.head?_nil, hkept]
      rfl
  | cons d front ih =>
      intro mode hmode hafter
      obtain ⟨masked, hmasked⟩ := ih _ step_closing hafter
      rw [List.cons_append, blankFrom, hmasked]
      exact ⟨_ :: masked, rfl⟩

/-! ## Comments in code -/

/-- A text of which nothing but newlines is kept if it is read from one mode on, and that ends in
another, whatever follows. -/
def IsBlanked (rawQuote : Option Char) (mode mode' : Mode) (s : List Char) : Prop :=
  ∀ t, blankFrom rawQuote mode (s ++ t) = s.map blank ++ blankFrom rawQuote mode' t

theorem isBlanked_nil (mode : Mode) : IsBlanked rawQuote mode mode [] :=
  fun _ => rfl

theorem IsBlanked.append {first second third : Mode} {s u : List Char}
    (hs : IsBlanked rawQuote first second s) (hu : IsBlanked rawQuote second third u) :
    IsBlanked rawQuote first third (s ++ u) := by
  intro t
  rw [List.append_assoc, hs, hu, List.map_append, List.append_assoc]

/-- Lines are blanked if each of them is, with its newline. -/
theorem isBlanked_printLines {mode : Mode} {list : List (List Char)}
    (h : ∀ line ∈ list, IsBlanked rawQuote mode mode (line ++ ['\n'])) :
    IsBlanked rawQuote mode mode (printLines list) := by
  induction list with
  | nil => exact isBlanked_nil mode
  | cons line list ih =>
      rw [printLines, List.flatMap_cons]
      exact (h line List.mem_cons_self).append
        (ih fun other hother => h other (List.mem_cons_of_mem line hother))

theorem isBlanked_newline (hraw : rawQuote ≠ some '\n') : IsBlanked rawQuote .code .code ['\n'] := by
  intro t
  have hstep : Mode.step rawQuote '\n' t.head? .code = (false, .code) := by
    simp [Mode.step, codeStep, isQuote, hraw]
  rw [List.singleton_append, blankFrom, hstep]
  rfl

/-- A line comment with its newline. -/
theorem isBlanked_lineComment (hraw : rawQuote ≠ some '\n') {s : List Char} (hs : '\n' ∉ s) :
    IsBlanked rawQuote .code .code ("//".toList ++ s ++ ['\n']) := by
  intro t
  have hplain : ∀ c ∈ s, (c != '\n') = true := by
    intro c hc
    exact bne_iff_ne.mpr fun heq => hs (heq ▸ hc)
  have htake : (s ++ '\n' :: t).takeWhile (· != '\n') = s := by
    rw [List.takeWhile_append_of_pos hplain]
    simp
  have hdrop : (s ++ '\n' :: t).dropWhile (· != '\n') = '\n' :: t := by
    rw [List.dropWhile_append_of_pos hplain]
    simp
  have hcomment : blankFrom rawQuote .code ('/' :: '/' :: (s ++ '\n' :: t))
      = ' ' :: ' ' :: blankFrom rawQuote .lineComment (s ++ '\n' :: t) := by
    rw [blankFrom, blankFrom]
    simp [Mode.step, codeStep, blank]
  have hnewline := isBlanked_newline hraw t
  rw [List.singleton_append] at hnewline
  rw [List.append_assoc, List.append_assoc, List.singleton_append]
  show blankFrom rawQuote .code ('/' :: '/' :: (s ++ '\n' :: t)) = _
  rw [hcomment, blankFrom_lineComment, htake, hdrop, hnewline]
  simp [blank]

/-- A stretch of a block comment in which the comment does not close. -/
theorem blankFrom_blockComment_append (rawQuote : Option Char) {s t : List Char}
    (hs : ¬"*/".toList <:+: s)
    (hlast : s.getLast? = some '*' → t.head? ≠ some '/') :
    blankFrom rawQuote .blockComment (s ++ t)
      = s.map blank ++ blankFrom rawQuote .blockComment t := by
  induction s with
  | nil => rfl
  | cons c s ih =>
      rw [List.infix_cons_iff, not_or] at hs
      have hopen : ¬(c = '*' ∧ (s ++ t).head? = some '/') := by
        rintro ⟨rfl, hhead⟩
        cases s with
        | nil => exact hlast rfl hhead
        | cons d s =>
            obtain rfl : d = '/' := Option.some.inj hhead
            exact hs.1 ⟨s, rfl⟩
      have hstep : Mode.step rawQuote c (s ++ t).head? .blockComment = (true, .blockComment) := by
        rw [Mode.step, if_neg hopen]
      have hrest : s.getLast? = some '*' → t.head? ≠ some '/' := by
        intro hlast'
        cases s with
        | nil => cases hlast'
        | cons d s => exact hlast hlast'
      rw [List.cons_append, blankFrom, hstep, ih hs.2 hrest]
      rfl

/-- If the stretch does not end in an asterisk, the comment goes on whatever follows. -/
theorem isBlanked_of_last {s : List Char} (hs : ¬"*/".toList <:+: s)
    (hlast : s.getLast? ≠ some '*') : IsBlanked rawQuote .blockComment .blockComment s :=
  fun _ => blankFrom_blockComment_append rawQuote hs fun h => absurd h hlast

theorem isBlanked_docLine (line : DocLine) :
    IsBlanked rawQuote .blockComment .blockComment (" * ".toList ++ line.text ++ ['\n']) := by
  have hmark : IsBlanked rawQuote .blockComment .blockComment " * ".toList :=
    isBlanked_of_last (by decide) (by decide)
  have hnewline : IsBlanked rawQuote .blockComment .blockComment ['\n'] :=
    isBlanked_of_last (by decide) (by decide)
  -- the line may end in an asterisk, which does not close the comment before a newline
  have htext : IsBlanked rawQuote .blockComment .blockComment (line.text ++ ['\n']) := by
    intro t
    have hnext : line.text.getLast? = some '*' → ('\n' :: t).head? ≠ some '/' := fun _ => by simp
    have hline := blankFrom_blockComment_append rawQuote line.staysOpen hnext
    have hrest := hnewline t
    rw [List.singleton_append] at hrest
    rw [List.append_assoc, List.singleton_append, hline, hrest, List.map_append, List.append_assoc]
  rw [List.append_assoc]
  exact hmark.append htext

theorem isBlanked_opening : IsBlanked rawQuote .code .blockComment "/*".toList := by
  intro t
  show blankFrom rawQuote .code ('/' :: '*' :: t) = ' ' :: ' ' :: blankFrom rawQuote .blockComment t
  rw [blankFrom, blankFrom]
  simp [Mode.step, codeStep, blank]

theorem isBlanked_closing : IsBlanked rawQuote .blockComment .code "*/".toList := by
  intro t
  show blankFrom rawQuote .blockComment ('*' :: '/' :: t) = ' ' :: ' ' :: blankFrom rawQuote .code t
  rw [blankFrom, blankFrom]
  simp [Mode.step, blank]

theorem isBlanked_blockComment (hraw : rawQuote ≠ some '\n') (lines : List DocLine) :
    IsBlanked rawQuote .code .code (printLines (blockComment lines)) := by
  have hfirst : IsBlanked rawQuote .blockComment .blockComment "*\n".toList :=
    isBlanked_of_last (by decide) (by decide)
  have hlines : IsBlanked rawQuote .blockComment .blockComment
      (printLines (lines.map fun line => " * ".toList ++ line.text)) :=
    isBlanked_printLines (List.forall_mem_map.mpr fun line _ => isBlanked_docLine line)
  have hlast : IsBlanked rawQuote .blockComment .blockComment " ".toList :=
    isBlanked_of_last (by decide) (by decide)
  have hprint : printLines (blockComment lines) = "/*".toList ++ "*\n".toList
      ++ printLines (lines.map fun line => " * ".toList ++ line.text) ++ " ".toList
      ++ "*/".toList ++ ['\n'] := by
    rw [blockComment, framed, printLines_cons, printLines_append, printLines_cons]
    simp [printLines]
  rw [hprint]
  exact ((((isBlanked_opening.append hfirst).append hlines).append hlast).append
    isBlanked_closing).append (isBlanked_newline hraw)

theorem isBlanked_summaryComment (hraw : rawQuote ≠ some '\n') (lines : List DocLine) :
    IsBlanked rawQuote .code .code (printLines (summaryComment lines)) := by
  have hplain : ∀ line ∈ summaryComment lines, '\n' ∉ line := by
    intro line hline hmem
    exact absurd (no_break_in_framed lines (by simp [isLineBreak]) line hline '\n' hmem)
      (by decide)
  apply isBlanked_printLines
  intro line hline
  have hslashes : ∃ s, line = "//".toList ++ s := by
    rcases List.mem_cons.mp hline with rfl | hline
    · exact ⟨"/ <summary>".toList, rfl⟩
    · rcases List.mem_append.mp hline with hline | hline
      · obtain ⟨line, -, rfl⟩ := List.mem_map.mp hline
        exact ⟨"/ ".toList ++ line.text, rfl⟩
      · obtain rfl := List.mem_singleton.mp hline
        exact ⟨"/ </summary>".toList, rfl⟩
  obtain ⟨s, rfl⟩ := hslashes
  exact isBlanked_lineComment hraw fun hmem => hplain _ hline (List.mem_append_right _ hmem)

/-! ## Preambles -/

/-- A text that ends in code, with the semicolon or brace that ends a statement. -/
structure EndsStatement (rawQuote : Option Char) (front : List Char) : Prop where
  code : Mode.after rawQuote .code front = .code
  last : ∃ c ∈ front.getLast?, c = ';' ∨ c = '\x7b' ∨ c = '\x7d'

/-- Masking keeps the end of the statement and blanks the comments after it. -/
theorem EndsStatement.maskComments_append {front region : List Char}
    (hfront : EndsStatement rawQuote front) (hregion : IsBlanked rawQuote .code .code region)
    (t : List Char) :
    ∃ masked c, (c = ';' ∨ c = '\x7b' ∨ c = '\x7d') ∧ (masked ++ [c]).length = front.length
      ∧ maskComments rawQuote (front ++ (region ++ t))
        = (masked ++ [c]) ++ (region.map blank ++ blankFrom rawQuote .code t) := by
  obtain ⟨c, hlast, hc⟩ := hfront.last
  obtain ⟨init, hinit⟩ := List.getLast?_eq_some_iff.mp hlast
  have hmark : c ≠ '/' ∧ c ≠ '*' := by
    rcases hc with rfl | rfl | rfl <;> decide
  have hcode := hfront.code
  rw [hinit] at hcode
  obtain ⟨masked, hmasked⟩ := exists_blankFrom_concat hmark.1 .code (fun h => nomatch h) hcode
  rw [← hinit] at hmasked
  refine ⟨masked, c, hc, ?_, ?_⟩
  · rw [← hmasked, ← maskComments_eq_blankFrom, length_maskComments]
  · have happend := blankFrom_append rawQuote
      (fun d hd => Option.some.inj (hlast.symm.trans hd) ▸ hmark) .code (region ++ t)
    rw [maskComments_eq_blankFrom, happend, hmasked, hfront.code, hregion]

/-- Read backwards, blanks belong to the preamble and the end of a statement does not. -/
theorem preambleLength_blank {c : Char} (hc : c = ';' ∨ c = '\x7b' ∨ c = '\x7d') (v : List Char) :
    ∀ u : List Char, preambleLength 0 ((u.map blank) ++ c :: v) = u.length := by
  intro u
  induction u with
  | nil => rcases hc with rfl | rfl | rfl <;> rfl
  | cons d u ih =>
      have hblank : blank d = ' ' ∨ blank d = '\n' := by
        by_cases hd : d = '\n' <;> simp [blank, hd]
      rw [List.map_cons, List.cons_append, List.length_cons, ← ih]
      rcases hblank with h | h <;> rw [h] <;> rfl

theorem preambleStart_append {c : Char} (hc : c = ';' ∨ c = '\x7b' ∨ c = '\x7d')
    (front region rest : List Char) :
    preambleStart ((front ++ [c]) ++ (region.map blank ++ rest))
        ((front ++ [c]).length + region.length) = .ok (front ++ [c]).length := by
  have hlength : (front ++ [c] ++ region.map blank).length
      = (front ++ [c]).length + region.length := by
    rw [List.length_append, List.length_map]
  have htake : ((front ++ [c]) ++ (region.map blank ++ rest)).take
      ((front ++ [c]).length + region.length) = front ++ [c] ++ region.map blank := by
    rw [← List.append_assoc, List.take_left' hlength]
  have hreverse : (front ++ [c] ++ region.map blank).reverse
      = region.reverse.map blank ++ c :: front.reverse := by
    simp
  have hwithin : ¬((front ++ [c]) ++ (region.map blank ++ rest)).length
      < (front ++ [c]).length + region.length := by
    rw [← List.append_assoc, List.length_append, hlength]
    omega
  rw [preambleStart, if_neg hwithin, htake, hreverse, preambleLength_blank hc,
    List.length_reverse, Nat.add_sub_cancel]

/-- What masking took away from comments is the comments. -/
theorem commentsOf_blank (s : List Char) : commentsOf s (s.map blank) = s := by
  induction s with
  | nil => rfl
  | cons c s ih =>
      have hchar : (if c != blank c || c == '\n' then c else ' ') = c := by
        by_cases hc : c = '\n'
        · simp [hc]
        · by_cases hspace : c = ' '
          · simp [hspace]
          · simp [blank, hc, hspace]
      rw [commentsOf] at ih ⊢
      rw [List.map_cons, List.zip_cons_cons, List.map_cons, ih]
      exact congrArg (· :: s) hchar

/-- **The preamble between a statement and a declaration** that are separated by comments and newlines
holds all of these. -/
theorem readPreamble_comments {front region : List Char} (hfront : EndsStatement rawQuote front)
    (hregion : IsBlanked rawQuote .code .code region)
    (annotations : List Char → Except Fault (List (List Char))) (comments : List Char → List Char)
    (t : List Char) :
    readPreamble ⟨annotations, comments⟩ (front ++ (region ++ t))
        (maskComments rawQuote (front ++ (region ++ t))) (front.length + region.length)
      = (annotations (region.map blank)).map fun marks => ⟨marks, comments region⟩ := by
  obtain ⟨masked, c, hc, hlength, hmask⟩ := hfront.maskComments_append hregion t
  have hstart := preambleStart_append hc masked region (blankFrom rawQuote .code t)
  have hslice := slice_middle (masked ++ [c]) (region.map blank) (blankFrom rawQuote .code t)
  rw [List.length_map, hlength] at hslice
  rw [hlength] at hstart
  rw [readPreamble, hmask, hstart, except_ok_bind, readRegion]
  dsimp only
  rw [hslice, slice_middle, commentsOf_blank]
  cases annotations (region.map blank) <;> rfl

/-! ## Marks among blanks -/

theorem not_mem_blank {c : Char} (hspace : c ≠ ' ') (hnewline : c ≠ '\n') (s : List Char) :
    c ∉ s.map blank := by
  intro hmem
  obtain ⟨d, -, rfl⟩ := List.mem_map.mp hmem
  by_cases hd : d = '\n'
  · exact hnewline (by simp [blank, hd])
  · exact hspace (by simp [blank, hd])

theorem readAnnotations_blank (s : List Char) : readAnnotations (s.map blank) = .ok [] := by
  have htexts := readTexts_append_of_not_mem (not_mem_blank (by decide) (by decide) s) []
  rw [List.append_nil] at htexts
  rw [readAnnotations_eq, htexts]
  rfl

theorem readAttributes_blank (s : List Char) : readAttributes (s.map blank) = [] := by
  have hgroups := squareGroups_append (not_mem_blank (by decide) (by decide) s) []
  rw [List.append_nil] at hgroups
  rw [readAttributes, hgroups, squareGroups]
  rfl

/-! ## Documentation -/

/-- What is printed below a statement: the comment, starting on a new line. -/
def below (comment : List (List Char)) : List Char :=
  '\n' :: printLines comment

/-- The preamble of a declaration below a comment that is printed below a statement. -/
def preambleBelow (style : PreambleStyle) (rawQuote : Option Char) (front : List Char)
    (comment : List (List Char)) (declaration : List Char) : Except Fault Preamble :=
  let text := front ++ (below comment ++ declaration)
  readPreamble style text (maskComments rawQuote text) (front.length + (below comment).length)

theorem preambleBelow_eq {front : List Char} {comment : List (List Char)}
    (hraw : rawQuote ≠ some '\n') (hfront : EndsStatement rawQuote front)
    (hcomment : IsBlanked rawQuote .code .code (printLines comment))
    (annotations : List Char → Except Fault (List (List Char))) {comments : List Char → List Char}
    {description : List Char} (hdescription : comments (below comment) = description)
    (declaration : List Char) :
    preambleBelow ⟨annotations, comments⟩ rawQuote front comment declaration
      = (annotations ((below comment).map blank)).map fun marks => ⟨marks, description⟩ := by
  have hbelow : IsBlanked rawQuote .code .code (below comment) :=
    (isBlanked_newline hraw).append hcomment
  rw [← hdescription]
  exact readPreamble_comments hfront hbelow annotations comments declaration

/-- **Documentation is read back.** Lines of documentation that are printed as a comment between a
statement and a declaration are the description of the declaration: those of a block comment if none of
them is a block tag, those of a summary if there is no tag in them. The comment holds no annotations,
whatever stands in it; another reader of annotations sees nothing but blanks. -/
theorem documentation_is_read_back (language : Language) {front : List Char}
    (hfront : EndsStatement language.rawQuote front) (lines : List DocLine)
    (declaration : List Char) :
    ((∀ line ∈ lines, line.text.head? ≠ some '@') →
        preambleBelow annotatedStyle language.rawQuote front (blockComment lines) declaration
            = .ok ⟨[], joinLines (lines.map DocLine.text)⟩
          ∧ ∀ annotations,
            preambleBelow ⟨annotations, docText⟩ language.rawQuote front (blockComment lines)
                declaration
              = (annotations ((below (blockComment lines)).map blank)).map fun marks =>
                ⟨marks, joinLines (lines.map DocLine.text)⟩)
      ∧ ((∀ line ∈ lines, '<' ∉ line.text) →
        preambleBelow attributedStyle language.rawQuote front (summaryComment lines) declaration
            = .ok ⟨[], joinLines (lines.map DocLine.text)⟩
          ∧ ∀ annotations,
            preambleBelow ⟨annotations, xmlDocText⟩ language.rawQuote front (summaryComment lines)
                declaration
              = (annotations ((below (summaryComment lines)).map blank)).map fun marks =>
                ⟨marks, joinLines (lines.map DocLine.text)⟩) := by
  have hraw : language.rawQuote ≠ some '\n' := by
    cases language <;> decide
  have hblock := isBlanked_blockComment hraw lines
  have hsummary := isBlanked_summaryComment hraw lines
  constructor
  · intro htags
    have hread := fun annotations => preambleBelow_eq hraw hfront hblock annotations
      (docText_blockComment htags) declaration
    refine ⟨?_, hread⟩
    rw [annotatedStyle, hread, readAnnotations_blank]
    rfl
  · intro htags
    have hread := fun annotations => preambleBelow_eq hraw hfront hsummary annotations
      (xmlDocText_summaryComment htags) declaration
    refine ⟨?_, hread⟩
    rw [attributedStyle, hread, readAttributes_blank]
    rfl

/-- A line of documentation that is checked by a look at its characters. -/
theorem staysOpen_of_isWithin {text : List Char} (h : isWithin "*/".toList text = false) :
    ¬"*/".toList <:+: text :=
  fun hinfix => Bool.false_ne_true (h.symm.trans (isWithin_iff.mpr hinfix))

/-- Documentation that is full of marks. -/
def markedLines : List DocLine :=
  [⟨"See \"/*\" and //; @once > *".toList, ⟨by decide, by simp [isBlank], by simp [isBlank]⟩,
      forall_mem_of_all (by decide), staysOpen_of_isWithin (by decide)⟩,
    ⟨"* [Get(\x7b'".toList, ⟨by decide, by simp [isBlank], by simp [isBlank]⟩,
      forall_mem_of_all (by decide), staysOpen_of_isWithin (by decide)⟩]

/-- The start of a class, with the mark of a comment in a literal. -/
def classStart : List Char :=
  "class Store \x7b\n  String mark = \"/*\";".toList

theorem marked_lines_are_read_back :
    EndsStatement Language.java.rawQuote classStart
      ∧ (∀ line ∈ markedLines, line.text.head? ≠ some '@')
      ∧ (∀ line ∈ markedLines, '<' ∉ line.text)
      ∧ preambleBelow annotatedStyle Language.java.rawQuote classStart (blockComment markedLines)
          "String load();".toList
        = .ok ⟨[], "See \"/*\" and //; @once > *\n* [Get(\x7b'".toList⟩
      ∧ preambleBelow attributedStyle Language.java.rawQuote classStart
          (summaryComment markedLines) "String load();".toList
        = .ok ⟨[], "See \"/*\" and //; @once > *\n* [Get(\x7b'".toList⟩ := by
  have hstart : EndsStatement Language.java.rawQuote classStart :=
    ⟨by decide, ';', by decide, Or.inl rfl⟩
  have hblock : ∀ line ∈ markedLines, line.text.head? ≠ some '@' := by simp [markedLines]
  have htags : ∀ line ∈ markedLines, '<' ∉ line.text := by simp [markedLines]
  obtain ⟨hdoc, hsummary⟩ :=
    documentation_is_read_back .java hstart markedLines "String load();".toList
  exact ⟨hstart, hblock, htags, (hdoc hblock).1, (hsummary htags).1⟩

end ServiceMap.Source
