import ServiceMap.Proofs.Pattern.Found
import ServiceMap.Proofs.Text.DocumentLines
import ServiceMap.Source.Comment

/-!
# Lines of comments

A line of documentation is printed after a mark: an asterisk in a block comment, three slashes in a line
comment. The reader of comments takes the marks away again and leaves the lines as they were, whatever
marks, quotes or brackets these hold themselves.
-/

namespace ServiceMap

open Text Pattern

namespace Text

/-! ## Texts that do not occur -/

/-- Nothing is replaced where nothing occurs. -/
theorem replace_of_not_infix {old s : List Char} (new : List Char) (h : ¬old <:+: s) :
    replace old new s = s := by
  rw [replace]
  induction s with
  | nil => rfl
  | cons c s ih =>
      rw [List.infix_cons_iff, not_or] at h
      rw [replaceFrom, if_neg fun hprefix => h.1 (List.isPrefixOf_iff_prefix.mp hprefix), ih h.2]

end Text

namespace Pattern

/-- A reluctant repetition is remembered up to the first place at which what follows can match. -/
theorem takesFirst_few_captured {accepts : Char → Bool} {limit slot : Nat} {p : Place}
    {s rest t rest' : List Char} {tail : Pattern} {new : List (Nat × Capture)}
    (htext : p.rest = s ++ rest) (hs : ∀ c ∈ s, accepts c = true)
    (htail : tail.TakesFirst limit
      (p.after s rest [(slot, ⟨p.index, p.index + s.length, p.rest⟩)]) t rest' new)
    (hbefore : ∀ d e more, s = d ++ e → e ≠ [] → tail.Fails limit (p.after d (e ++ rest) more)) :
    (capture slot (few accepts) ++ tail).TakesFirst limit p (s ++ t) rest'
      (new ++ [(slot, ⟨p.index, p.index + s.length, p.rest⟩)]) where
  text := by
    rw [htext, List.append_assoc]
    exact congrArg (s ++ ·) htail.text
  first := by
    intro follow last hlast
    show (chars accepts false).run limit p
      (fun r => tail.run limit (r.remember slot p) follow) = some last
    refine run_chars_reluctant limit htext hs ?_ ?_
    · refine htail.first follow last ?_
      rwa [Place.after_after]
    · intro d e hde he
      exact hbefore d e [(slot, ⟨p.index, p.index + d.length, p.rest⟩)] hde he follow

end Pattern

namespace Source

/-- A line of documentation: blank at neither end, on one line, and without the mark that closes a
block comment. -/
structure DocLine where
  text : List Char
  trimmed : IsTrimmed text
  oneLine : ∀ c ∈ text, isLineBreak c = false
  staysOpen : ¬"*/".toList <:+: text

/-! ## Marks -/

/-- The mark that may open a line of a comment. -/
def openingMark : Pattern :=
  (lit "//" ++ opt (lit "/")) <|> (lit "/*" ++ opt (lit "*")) <|> lit "*/" <|> lit "*"

/-- The mark at the front of a line is dropped with the space after it. -/
theorem dropMark_of_takesFirst (c : Char) (mark : List Char) {rest : List Char}
    (hc : isBlank c = false)
    (h : openingMark.TakesFirst (c :: mark ++ ' ' :: rest).length
      ⟨none, c :: mark ++ ' ' :: rest, 0, []⟩ (c :: mark) (' ' :: rest) []) :
    dropMark (c :: mark ++ ' ' :: rest) = rest := by
  have hblanks : blanks.TakesFirst (c :: mark ++ ' ' :: rest).length
      ⟨none, c :: mark ++ ' ' :: rest, 0, []⟩ [] (c :: mark ++ ' ' :: rest) [] := by
    refine takesFirst_many rfl (List.forall_mem_nil _) ?_
    intro d hd
    exact Option.some.inj hd ▸ hc
  have hspace : (char isBlank).TakesFirst (c :: mark ++ ' ' :: rest).length
      (Place.after ⟨none, c :: mark ++ ' ' :: rest, 0, []⟩ (c :: mark) (' ' :: rest) []) [' '] rest
      [] := takesFirst_char rfl (by decide)
  have hwhole : commentMark.TakesFirst (c :: mark ++ ' ' :: rest).length
      (Place.start (c :: mark ++ ' ' :: rest)) (c :: mark ++ [' ']) rest [] :=
    (hblanks.append h.opt).append hspace.opt
  rw [dropMark, matchStart?, matchHere?_of_takesFirst hwhole]
  show (c :: mark ++ ' ' :: rest).drop (0 + (c :: mark ++ [' ']).length) = rest
  rw [Nat.zero_add, List.append_cons (c :: mark) ' ' rest, List.drop_left]

/-- An asterisk with a space after it is a mark. -/
theorem dropMark_asterisk (rest : List Char) : dropMark ("* ".toList ++ rest) = rest := by
  refine dropMark_of_takesFirst '*' [] (by decide) ?_
  have hslash : ('*' :: ' ' :: rest).head? ≠ some '/' := by simp
  -- the marks that are tried before it start with a slash or go on with one
  refine ((fails_lit rfl hslash).append _).right ?_
  refine ((fails_lit rfl hslash).append _).right ?_
  refine Fails.right ?_ (takesFirst_lit rfl)
  refine fails_of_not_takes ?_
  intro taken rest' htext htakes
  rw [takes_lit.mp htakes] at htext
  exact absurd (List.cons.inj (List.cons.inj htext).2).1 (by decide)

theorem dropMark_slashes (rest : List Char) : dropMark ("/// ".toList ++ rest) = rest := by
  refine dropMark_of_takesFirst '/' ['/', '/'] (by decide) ?_
  refine TakesFirst.left ?_
  have htwo : (lit "//").TakesFirst ("///".toList ++ ' ' :: rest).length
      ⟨none, "///".toList ++ ' ' :: rest, 0, []⟩ "//".toList ('/' :: ' ' :: rest) [] :=
    takesFirst_lit rfl
  exact htwo.append (takesFirst_lit rfl).opt

/-! ## Lines of documentation -/

theorem commentLine_eq (front : List Char) {mark : List Char} {line : DocLine}
    (hfront : IsGap front) (hmark : IsTrimmed mark)
    (hopen : ¬"*/".toList <:+: mark ++ ' ' :: line.text)
    (hdrop : dropMark (mark ++ ' ' :: line.text) = line.text) :
    commentLine (front ++ (mark ++ ' ' :: line.text)) = line.text := by
  have htrim : trim (front ++ (mark ++ ' ' :: line.text)) = mark ++ ' ' :: line.text := by
    have hwhole := hmark.around [' '] line.trimmed
    have hgap := trim_between hfront isGap_nil (mark ++ [' '] ++ line.text)
    rw [List.append_nil, hwhole.trim_eq] at hgap
    rwa [List.append_assoc, List.singleton_append] at hgap
  have hne : (mark ++ ' ' :: line.text).isEmpty = false := by simp
  rw [commentLine, htrim, hne, replace_of_not_infix [] hopen, hdrop]
  exact line.trimmed.trim_eq

theorem commentLine_asterisk (line : DocLine) :
    commentLine (" * ".toList ++ line.text) = line.text := by
  have hopen : ¬"*/".toList <:+: ['*'] ++ ' ' :: line.text := by
    simpa [List.infix_cons_iff] using line.staysOpen
  exact commentLine_eq [' '] (by simp [IsGap, isBlank])
    (isTrimmed_word (s := ['*']) (by simp [isBlank])) hopen (dropMark_asterisk line.text)

theorem commentLine_slashes (line : DocLine) :
    commentLine ("/// ".toList ++ line.text) = line.text := by
  have hopen : ¬"*/".toList <:+: "///".toList ++ ' ' :: line.text := by
    simpa [List.infix_cons_iff] using line.staysOpen
  exact commentLine_eq [] isGap_nil (isTrimmed_word (s := "///".toList) (by simp [isBlank])) hopen
    (dropMark_slashes line.text)

/-! ## Comments -/

/-- Lines of documentation after a mark each, between two other lines. -/
def framed (opening mark closing : String) (lines : List DocLine) : List (List Char) :=
  opening.toList :: (lines.map (fun line => mark.toList ++ line.text) ++ [closing.toList])

/-- A block comment. -/
def blockComment (lines : List DocLine) : List (List Char) :=
  framed "/**" " * " " */" lines

/-- Line comments with a summary. -/
def summaryComment (lines : List DocLine) : List (List Char) :=
  framed "/// <summary>" "/// " "/// </summary>" lines

section

variable {opening mark closing : String} {lines : List DocLine}

theorem no_break_in_framed (lines : List DocLine)
    (h : ∀ s ∈ [opening, mark, closing], ∀ c ∈ s.toList, isLineBreak c = false) :
    ∀ line ∈ framed opening mark closing lines, ∀ c ∈ line, isLineBreak c = false := by
  intro line hline
  rcases List.mem_cons.mp hline with rfl | hline
  · exact h opening (by simp)
  · rcases List.mem_append.mp hline with hline | hline
    · obtain ⟨line, -, rfl⟩ := List.mem_map.mp hline
      intro c hc
      rcases List.mem_append.mp hc with hc | hc
      · exact h mark (by simp) c hc
      · exact line.oneLine c hc
    · obtain rfl := List.mem_singleton.mp hline
      exact h closing (by simp)

theorem no_break_in_texts (lines : List DocLine) :
    ∀ text ∈ lines.map DocLine.text, ∀ c ∈ text, isLineBreak c = false :=
  List.forall_mem_map.mpr fun line _ => line.oneLine

theorem filter_texts (lines : List DocLine) :
    (lines.map DocLine.text).filter (fun line => !line.isEmpty) = lines.map DocLine.text := by
  refine List.filter_eq_self.mpr (List.forall_mem_map.mpr ?_)
  intro line _
  simp [line.trimmed.nonempty]

/-- What is read of a framed comment below an empty line: the two lines around it, as far as there is
something in them, and the lines of documentation as they were. -/
theorem commentText_framed
    (h : ∀ s ∈ [opening, mark, closing], ∀ c ∈ s.toList, isLineBreak c = false)
    (hmark : ∀ line : DocLine, commentLine (mark.toList ++ line.text) = line.text) :
    commentText ('\n' :: printLines (framed opening mark closing lines))
      = joinLines (([commentLine opening.toList].filter fun line => !line.isEmpty)
        ++ (lines.map DocLine.text
          ++ [commentLine closing.toList].filter fun line => !line.isEmpty)) := by
  have hlines := lines_newline_printLines (no_break_in_framed lines h)
  have hread : ([] :: framed opening mark closing lines).map commentLine
      = [[]] ++ ([commentLine opening.toList] ++ (lines.map DocLine.text
        ++ [commentLine closing.toList])) := by
    have htexts : (lines.map fun line => mark.toList ++ line.text).map commentLine
        = lines.map DocLine.text := by
      rw [List.map_map]
      exact List.map_congr_left fun line _ => hmark line
    rw [framed, List.map_cons, List.map_cons, List.map_append, htexts]
    rfl
  rw [commentText, hlines, hread, List.filter_append, List.filter_append, List.filter_append,
    filter_texts]
  rfl

/-- A block comment is read as its lines if none of them is a block tag. -/
theorem docText_blockComment (h : ∀ line ∈ lines, line.text.head? ≠ some '@') :
    docText ('\n' :: printLines (blockComment lines)) = joinLines (lines.map DocLine.text) := by
  have hopening : commentLine "/**".toList = [] := by decide
  have hclosing : commentLine " */".toList = [] := by decide
  have htext : commentText ('\n' :: printLines (blockComment lines))
      = joinLines (lines.map DocLine.text) := by
    rw [blockComment, commentText_framed (by simp [isLineBreak]) commentLine_asterisk,
      hopening, hclosing]
    exact congrArg joinLines (List.append_nil _)
  have hlines := lines_joinLines (List.forall_mem_map.mpr fun line _ => line.trimmed.nonempty)
    (no_break_in_texts lines)
  rw [docText, htext, hlines, List.filter_eq_self.mpr]
  refine List.forall_mem_map.mpr ?_
  intro line hline
  simpa using h line hline

/-! ## Summaries -/

/-- A summary with no tag in it is found as a whole. -/
theorem group_summaryElement {s : List Char} (h : '<' ∉ s) :
    ∃ m, summaryElement.find? ("<summary>".toList ++ (s ++ "</summary>".toList)) = some m
      ∧ m.group 1 = s := by
  generalize htext : "<summary>".toList ++ (s ++ "</summary>".toList) = text
  have hopening : (lit "<summary>").TakesFirst text.length (Place.start text) "<summary>".toList
      (s ++ "</summary>".toList) [] := takesFirst_lit htext.symm
  -- no closing tag starts where the text still is that of the summary
  have hbefore : ∀ d e more, s = d ++ e → e ≠ [] → (lit "</summary>").Fails text.length
      (((Place.start text).after "<summary>".toList (s ++ "</summary>".toList) []).after d
        (e ++ "</summary>".toList) more) := by
    intro d e more hs he
    obtain ⟨c, e, rfl⟩ := List.exists_cons_of_ne_nil he
    refine fails_lit rfl ?_
    intro hhead
    obtain rfl : c = '<' := Option.some.inj hhead
    exact h (by rw [hs]; simp)
  have hcaptured : (capture 1 (few fun _ => true) ++ lit "</summary>").TakesFirst text.length
      ((Place.start text).after "<summary>".toList (s ++ "</summary>".toList) [])
      (s ++ "</summary>".toList) [] _ :=
    takesFirst_few_captured rfl (fun _ _ => rfl) (takesFirst_lit rfl) hbefore
  have hwhole := takesFirst_append_assoc.mpr (hopening.append hcaptured)
  have hfound : summaryElement.find? ([] ++ text) = some _ :=
    find?_of_matchHere? (fun _ _ => Nat.zero_le _) (matchHere?_of_takesFirst hwhole)
  exact ⟨_, hfound, group_of_lookup rfl rfl⟩

theorem replaceAll_markupTag {s : List Char} (h : '<' ∉ s) : markupTag.replaceAll [] s = s := by
  have hnone : markupTag.findAll s = [] := by
    refine allFrom_eq_nil ?_
    intro d e hde
    have hfails : markupTag.Fails s.length ⟨lastOr none d, e, 0 + d.length, []⟩ := by
      refine ((fails_lit rfl ?_).append _).append _
      intro hhead
      obtain ⟨rest, hrest⟩ := List.head?_eq_some_iff.mp hhead
      exact h (by rw [hde, show e = '<' :: rest from hrest]; simp)
    rw [matchHere?, hfails]
    rfl
  rw [replaceAll, hnone]
  rfl

/-- Line comments with a summary are read as its lines if there is no tag in them. -/
theorem xmlDocText_summaryComment (h : ∀ line ∈ lines, '<' ∉ line.text) :
    xmlDocText ('\n' :: printLines (summaryComment lines))
      = joinLines (lines.map DocLine.text) := by
  have hopening : commentLine "/// <summary>".toList = "<summary>".toList := by decide
  have hclosing : commentLine "/// </summary>".toList = "</summary>".toList := by decide
  have htext : commentText ('\n' :: printLines (summaryComment lines))
      = "<summary>".toList ++ ('\n' :: printLines (lines.map DocLine.text)
        ++ "</summary>".toList) := by
    rw [summaryComment, commentText_framed (by simp [isLineBreak]) commentLine_slashes,
      hopening, hclosing]
    show joinLines (("<summary>".toList :: lines.map DocLine.text) ++ ["</summary>".toList]) = _
    rw [joinLines_append_singleton, printLines_cons, List.append_assoc]
  have hplain : '<' ∉ '\n' :: printLines (lines.map DocLine.text) := by
    intro hmem
    rcases List.mem_cons.mp hmem with heq | hmem
    · exact absurd heq (by decide)
    · obtain ⟨text, htext, hmem⟩ := List.mem_flatMap.mp hmem
      obtain ⟨line, hline, rfl⟩ := List.mem_map.mp htext
      rcases List.mem_append.mp hmem with hmem | hmem
      · exact h line hline hmem
      · exact absurd (List.mem_singleton.mp hmem) (by decide)
  have htrim : (lines.map DocLine.text).map trim = lines.map DocLine.text := by
    rw [List.map_map]
    exact List.map_congr_left fun line _ => line.trimmed.trim_eq
  obtain ⟨m, hm, hgroup⟩ := group_summaryElement hplain
  rw [xmlDocText, htext, hm]
  dsimp only
  rw [hgroup, replaceAll_markupTag hplain, lines_newline_printLines (no_break_in_texts lines),
    List.map_cons, htrim]
  exact congrArg joinLines (filter_texts lines)

end

end Source

end ServiceMap
