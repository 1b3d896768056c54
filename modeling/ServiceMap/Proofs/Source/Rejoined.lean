import ServiceMap.Proofs.Source.ListReading

/-!
# Parts joined again

The parts of a list are not split any further, and joined by the separator they are the parts of the
list that results. Each piece is read from the top and none but the last one ends anywhere else, so
that trimming a piece takes away nothing but blanks outside literals, except at the end of the text.
-/

namespace ServiceMap.Source

open Text ListState

variable {separator : Char} {state : ListState} {s : List Char}

/-! ## Texts that are one piece -/

/-- A text that is read as one piece. -/
def IsPiece (separator : Char) (state : ListState) (s : List Char) : Prop :=
  readPieces separator state s = [s]

theorem prepend_eq_singleton {c : Char} {list : List (List Char)} (hne : list ≠ []) :
    prepend [c] list = [c :: s] ↔ list = [s] := by
  obtain ⟨piece, list, rfl⟩ := List.exists_cons_of_ne_nil hne
  simp [prepend]

theorem isPiece_cons (c : Char) : IsPiece separator state (c :: s)
    ↔ ¬(c = separator ∧ state = top) ∧ IsPiece separator (state.step c) s := by
  rw [IsPiece, IsPiece]
  by_cases hsplit : c = separator ∧ state = top
  · obtain ⟨rfl, rfl⟩ := hsplit
    rw [readPieces_separator]
    simp
  · rw [readPieces_of_not hsplit, prepend_eq_singleton (readPieces_ne_nil s)]
    simp [hsplit]

theorem isPiece_append (t : List Char) : IsPiece separator state (s ++ t)
    ↔ IsPiece separator state s ∧ IsPiece separator (state.after s) t := by
  induction s generalizing state with
  | nil => simp [IsPiece, readPieces]
  | cons c s ih => rw [List.cons_append, isPiece_cons, isPiece_cons, ih, and_assoc, after_cons]

/-- A piece that ends at the top is split off at the separator behind it. -/
theorem IsPiece.readPieces_append (h : IsPiece separator state s) (hafter : state.after s = top)
    (t : List Char) :
    readPieces separator state (s ++ separator :: t) = s :: readPieces separator top t := by
  induction s generalizing state with
  | nil =>
      obtain rfl : state = top := hafter
      exact readPieces_separator t
  | cons c s ih =>
      obtain ⟨hnot, hrest⟩ := (isPiece_cons c).mp h
      rw [List.cons_append, readPieces_of_not hnot, ih hrest hafter]
      rfl

/-- A list is one piece, or a first piece is split off. -/
theorem readPieces_cases (separator : Char) (state : ListState) (s : List Char) :
    IsPiece separator state s ∨ ∃ front rest, s = front ++ separator :: rest
      ∧ IsPiece separator state front ∧ state.after front = top := by
  induction s generalizing state with
  | nil => exact Or.inl rfl
  | cons c s ih =>
      by_cases hsplit : c = separator ∧ state = top
      · obtain ⟨rfl, rfl⟩ := hsplit
        exact Or.inr ⟨[], s, rfl, rfl, rfl⟩
      · rcases ih (state.step c) with h | ⟨front, rest, rfl, hfront, hafter⟩
        · exact Or.inl ((isPiece_cons c).mpr ⟨hsplit, h⟩)
        · exact Or.inr ⟨c :: front, rest, rfl, (isPiece_cons c).mpr ⟨hsplit, hfront⟩, hafter⟩

/-! ## The pieces of a list -/

/-- A piece behind which a list can go on: it ends at the top. -/
structure IsInnerPiece (separator : Char) (s : List Char) : Prop where
  piece : IsPiece separator top s
  ends : top.after s = top

/-- What the pieces of a list are: stretches of it, and all but the last end at the top. -/
theorem exists_readPieces (separator : Char) (s : List Char) :
    ∃ init last, readPieces separator top s = init ++ [last]
      ∧ (∀ piece ∈ init, IsInnerPiece separator piece ∧ piece <:+: s)
      ∧ IsPiece separator top last ∧ last <:+: s := by
  induction hlength : s.length using Nat.strongRecOn generalizing s with
  | ind length ih =>
      rcases readPieces_cases separator top s with h | ⟨front, rest, rfl, hfront, hafter⟩
      · exact ⟨[], s, h, fun _ hpiece => absurd hpiece List.not_mem_nil, h, List.infix_refl s⟩
      · obtain ⟨init, last, hpieces, hinit, hlast, hwithin⟩ :=
          ih rest.length (by rw [← hlength]; simp; omega) rest rfl
        have hrest : rest <:+: front ++ separator :: rest :=
          ((List.suffix_cons separator rest).trans (List.suffix_append front _)).isInfix
        refine ⟨front :: init, last, ?_, fun piece hpiece => ?_, hlast, hwithin.trans hrest⟩
        · rw [hfront.readPieces_append hafter, hpieces]
          rfl
        · rcases List.mem_cons.mp hpiece with rfl | hpiece
          · exact ⟨⟨hfront, hafter⟩, (List.prefix_append _ _).isInfix⟩
          · exact ⟨(hinit piece hpiece).1, (hinit piece hpiece).2.trans hrest⟩

/-- Pieces that end at the top, and a last one, are read back. -/
theorem readPieces_join {init : List (List Char)} {last : List Char}
    (hinit : ∀ piece ∈ init, IsInnerPiece separator piece) (hlast : IsPiece separator top last) :
    readPieces separator top (join [separator] (init ++ [last])) = init ++ [last] := by
  induction init with
  | nil => exact hlast
  | cons piece init ih =>
      obtain ⟨next, rest, hnext⟩ : ∃ next rest, init ++ [last] = next :: rest :=
        List.exists_cons_of_ne_nil (List.append_ne_nil_of_right_ne_nil init (List.cons_ne_nil _ _))
      have hpiece := hinit piece List.mem_cons_self
      have hrest := ih fun other hother => hinit other (List.mem_cons_of_mem piece hother)
      rw [List.cons_append, hnext, join_cons_cons, ← hnext, List.singleton_append,
        hpiece.piece.readPieces_append hpiece.ends, hrest]

/-! ## Trimming -/

/-- The quote of a literal that is being read is a quote. -/
def Reading.IsProper : Reading → Prop
  | .code => True
  | .literal quote => isQuote quote = true
  | .hidden quote => isQuote quote = true

theorem isProper_step {c : Char} (h : state.reading.IsProper) : (state.step c).reading.IsProper := by
  obtain ⟨reading, depth⟩ := state
  cases reading with
  | code =>
      by_cases hc : isQuote c = true
      · rw [step_quote hc]
        exact hc
      · rw [step_code (by simpa using hc)]
        trivial
  | literal quote =>
      have hquote : isQuote quote = true := h
      by_cases hescape : c = '\\'
      · rw [hescape, step_escape hquote]
        exact hquote
      by_cases hclose : c = quote
      · rw [hclose, step_close hquote]
        trivial
      by_cases hnewline : c = '\n'
      · rw [hnewline, step_newline hquote]
        trivial
      · rw [step_content depth hescape hclose hnewline]
        exact hquote
  | hidden quote => exact h

theorem isProper_after (h : state.reading.IsProper) (s : List Char) :
    (state.after s).reading.IsProper := by
  induction s generalizing state with
  | nil => exact h
  | cons c s ih => exact ih (isProper_step h)

/-- No blank but a newline leads to the top from elsewhere. -/
theorem eq_top_of_step {c : Char} (hproper : state.reading.IsProper) (hc : isBlank c = true)
    (hnewline : c ≠ '\n') (h : state.step c = top) : state = top := by
  obtain ⟨reading, depth⟩ := state
  cases reading with
  | code => rwa [step_blank hc] at h
  | literal quote =>
      have hescape : c ≠ '\\' := by
        rintro rfl
        exact absurd hc (by decide)
      have hclose : c ≠ quote := by
        rintro rfl
        exact Bool.false_ne_true ((plain_of_isBlank hc).1.symm.trans hproper)
      rw [step_content depth hescape hclose hnewline] at h
      exact nomatch congrArg ListState.reading h
  | hidden quote => exact nomatch congrArg ListState.reading h

theorem eq_top_of_after_gap (hproper : state.reading.IsProper) (hgap : IsGap s) (hnewline : '\n' ∉ s)
    (h : state.after s = top) : state = top := by
  induction s generalizing state with
  | nil => exact h
  | cons c s ih =>
      have hc : c ≠ '\n' := fun heq => hnewline (heq ▸ List.mem_cons_self)
      refine eq_top_of_step hproper (hgap c List.mem_cons_self) hc (ih (isProper_step hproper)
        (fun d hd => hgap d (List.mem_cons_of_mem c hd))
        (fun hmem => hnewline (List.mem_cons_of_mem c hmem)) h)

/-- A piece is still one when it is trimmed. -/
theorem IsPiece.trim (h : IsPiece separator top s) : IsPiece separator top (trim s) := by
  obtain ⟨front, back, hs, hfront, -⟩ := exists_trim s
  rw [hs, isPiece_append, isPiece_append] at h
  have hmiddle := h.1.2
  rwa [top, after_gap hfront] at hmiddle

/-- A text without newlines that ends at the top still does so when it is trimmed. -/
theorem IsInnerPiece.trim (hnewline : '\n' ∉ s) (h : IsInnerPiece separator s) :
    IsInnerPiece separator (trim s) := by
  obtain ⟨hpiece, hends⟩ := h
  refine ⟨hpiece.trim, ?_⟩
  obtain ⟨front, back, hs, hfront, hback⟩ := exists_trim s
  have htop : (top.after (Text.trim s)).after back = top := by
    rw [hs, after_append, after_append, top, after_gap hfront] at hends
    exact hends
  have hproper : top.reading.IsProper := trivial
  refine eq_top_of_after_gap (isProper_after hproper _) hback (fun hmem => hnewline ?_) htop
  rw [hs]
  exact List.mem_append_right _ hmem

theorem isTrimmed_trim (h : trim s ≠ []) : IsTrimmed (trim s) where
  nonempty := h
  head := head_trim s
  last := getLast_dropRight isBlank (trimLeft s)

/-! ## The parts of a list -/

theorem trim_filter_eq_self {list : List (List Char)} (h : ∀ s ∈ list, IsTrimmed s) :
    ((list.map Text.trim).filter fun part => !part.isEmpty) = list := by
  have hmap : list.map Text.trim = list := by
    conv_rhs => rw [← List.map_id list]
    exact List.map_congr_left fun s hs => (h s hs).trim_eq
  rw [hmap, List.filter_eq_self]
  intro s hs
  rw [Bool.not_eq_true', List.isEmpty_eq_false_iff]
  exact (h s hs).nonempty

/-- What the parts of a list are: trimmed pieces, and all but the last end at the top. -/
theorem exists_parts (hseparator : IsSeparator separator) (hnewline : '\n' ∉ s) :
    partsAt separator s = [] ∨ ∃ init last, partsAt separator s = init ++ [last]
      ∧ (∀ part ∈ init, IsInnerPiece separator part ∧ IsTrimmed part)
      ∧ IsPiece separator top last ∧ IsTrimmed last := by
  obtain ⟨init, last, hpieces, hinit, hlast, -⟩ := exists_readPieces separator s
  have hparts : partsAt separator s
      = ((init.map Text.trim).filter fun part => !part.isEmpty)
        ++ ([Text.trim last].filter fun part => !part.isEmpty) := by
    rw [partsAt, pieces_eq_readPieces hseparator, ← List.filter_append, ← List.map_singleton,
      ← List.map_append, ← hpieces]
    rfl
  have hinner : ∀ part ∈ (init.map Text.trim).filter fun part => !part.isEmpty,
      IsInnerPiece separator part ∧ IsTrimmed part := by
    intro part hpart
    obtain ⟨hpart, hkept⟩ := List.mem_filter.mp hpart
    obtain ⟨piece, hpiece, rfl⟩ := List.mem_map.mp hpart
    obtain ⟨hends, hwithin⟩ := hinit piece hpiece
    exact ⟨hends.trim fun hmem => hnewline (hwithin.subset hmem),
      isTrimmed_trim (by simpa using hkept)⟩
  rw [hparts]
  by_cases hempty : Text.trim last = []
  · -- the last piece is blank: the part before it is the last one
    rw [hempty, show ([[]].filter fun part : List Char => !part.isEmpty) = [] from rfl,
      List.append_nil]
    rcases List.eq_nil_or_concat ((init.map Text.trim).filter fun part => !part.isEmpty) with
      hnil | ⟨front, part, hconcat⟩
    · exact Or.inl hnil
    · rw [List.concat_eq_append] at hconcat
      rw [hconcat] at hinner ⊢
      obtain ⟨hpart, htrimmed⟩ := hinner part (List.mem_append_right _ (List.mem_singleton.mpr rfl))
      exact Or.inr ⟨front, part, rfl, fun other hother => hinner other
        (List.mem_append_left _ hother), hpart.piece, htrimmed⟩
  · have hkept : ([Text.trim last].filter fun part => !part.isEmpty) = [Text.trim last] := by
      simp [hempty]
    rw [hkept]
    exact Or.inr ⟨_, _, rfl, hinner, hlast.trim, isTrimmed_trim hempty⟩

/-- Parts that end at the top, and a last one, are read back. -/
theorem partsAt_join (hseparator : IsSeparator separator) {init : List (List Char)}
    {last : List Char} (hinit : ∀ part ∈ init, IsInnerPiece separator part ∧ IsTrimmed part)
    (hlast : IsPiece separator top last) (htrimmed : IsTrimmed last) :
    partsAt separator (join [separator] (init ++ [last])) = init ++ [last] := by
  rw [partsAt, pieces_eq_readPieces hseparator]
  show ((readPieces separator top _).map Text.trim).filter _ = _
  rw [readPieces_join (fun part hpart => (hinit part hpart).1) hlast]
  refine trim_filter_eq_self fun part hpart => ?_
  rcases List.mem_append.mp hpart with hpart | hpart
  · exact (hinit part hpart).2
  · exact List.mem_singleton.mp hpart ▸ htrimmed

/-- **Parts stay parts.** Whatever literals and brackets a text without newlines opens or closes, each
of its parts is trimmed and not split any further, and joined by the separator the parts are read back. -/
theorem joined_parts_are_read_back (hseparator : IsSeparator separator) {text : List Char}
    (hnewline : '\n' ∉ text) :
    (∀ part ∈ partsAt separator text, IsTrimmed part ∧ partsAt separator part = [part])
      ∧ partsAt separator (join [separator] (partsAt separator text)) = partsAt separator text := by
  rcases exists_parts hseparator hnewline with hnil | ⟨init, last, hparts, hinit, hlast, htrimmed⟩
  · rw [hnil]
    refine ⟨fun _ hpart => absurd hpart List.not_mem_nil, ?_⟩
    rw [join, partsAt, pieces]
    rfl
  · rw [hparts]
    refine ⟨fun part hpart => ?_, partsAt_join hseparator hinit hlast htrimmed⟩
    have hone : ∀ {part : List Char}, IsPiece separator top part → IsTrimmed part →
        partsAt separator part = [part] := fun hpiece htrimmed =>
      partsAt_join hseparator (fun _ hother => absurd hother List.not_mem_nil) hpiece htrimmed
    rcases List.mem_append.mp hpart with hpart | hpart
    · obtain ⟨hpiece, htrimmed⟩ := hinit part hpart
      exact ⟨htrimmed, hone hpiece.piece htrimmed⟩
    · obtain rfl := List.mem_singleton.mp hpart
      exact ⟨htrimmed, hone hlast htrimmed⟩

/-- A list with a group and a literal, with a closer that closes nothing and with a literal that is not
closed. -/
def unevenList : List Char :=
  "f(a, ']') , b) ,, \"x, y ".toList

/-- The parts of an uneven list, and the list that they make up. -/
theorem uneven_parts_are_read_back :
    IsSeparator ',' ∧ '\n' ∉ unevenList
      ∧ partsAt ',' unevenList = ["f(a, ']')".toList, "b)".toList, "\"x, y".toList]
      ∧ partsAt ',' (join [','] (partsAt ',' unevenList)) = partsAt ',' unevenList := by
  have hnewline : '\n' ∉ unevenList := by decide
  refine ⟨isSeparator_comma, hnewline, ?_,
    (joined_parts_are_read_back isSeparator_comma hnewline).2⟩
  rw [partsAt, pieces_eq_readPieces isSeparator_comma]
  decide

end ServiceMap.Source
