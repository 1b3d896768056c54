import ServiceMap.Declaration.CSharpType

/-!
# Marks

The characters that divide a source up: quotes, brackets, and the signs at which a line, a statement
or a declaration ends. Where groups end, how deep a position lies, on which line it is and where its
preamble starts depends on the marks of a text and on where they stand, and on nothing else.
-/

namespace ServiceMap.Source

open ServiceMap.Text

/-- Quotes, the backslash, the newline, brackets, the semicolon and the equals sign. -/
def marks : List Char :=
  ['\x22', '\x27', backtick, '\\', '\n', '(', ')', '[', ']', '\x7b', '\x7d', '<', '>', ';', '=']

/-- Whether a character is no mark. -/
def isPlain (c : Char) : Bool :=
  !marks.contains c

/-- A character as far as marks are concerned. -/
def blot (c : Char) : Char :=
  if isPlain c then ' ' else c

theorem blot_of_mark {c : Char} (h : isPlain c = false) : blot c = c := by
  rw [blot, h]
  rfl

theorem ne_of_isPlain {c d : Char} (hc : isPlain c = true) (hd : isPlain d = false) : c ≠ d := by
  rintro rfl
  exact Bool.false_ne_true (hd.symm.trans hc)

/-- To look for a mark it is enough to see the marks. -/
theorem blot_beq (c : Char) {d : Char} (hd : isPlain d = false) : (blot c == d) = (c == d) := by
  cases hc : isPlain c with
  | false => rw [blot_of_mark hc]
  | true =>
      rw [blot, hc, if_pos rfl, beq_false_of_ne (ne_of_isPlain hc hd)]
      exact beq_false_of_ne (ne_of_isPlain (by decide) hd)

/-! ## Literals and groups -/

theorem isAnyQuote_blot (c : Char) : isAnyQuote (blot c) = isAnyQuote c := by
  simp only [isAnyQuote, isQuote, blot_beq c (d := '\x22') (by decide),
    blot_beq c (d := '\x27') (by decide), blot_beq c (d := backtick) (by decide)]

theorem isPlain_of_isAnyQuote {c : Char} (h : isAnyQuote c = true) : isPlain c = false := by
  simp only [isAnyQuote, isQuote, Bool.or_eq_true, beq_iff_eq] at h
  rcases h with (rfl | rfl) | rfl <;> decide

theorem literalRest_blot {quote : Char} (hquote : isPlain quote = false) (escapes : Bool)
    (s : List Char) :
    literalRest quote escapes (s.map blot) = literalRest quote escapes s := by
  have hslash : ∀ c, (blot c == '\\') = (c == '\\') := fun c => blot_beq c (by decide)
  have hnewline : ∀ c, (blot c == '\n') = (c == '\n') := fun c => blot_beq c (by decide)
  have hclose : ∀ c, (blot c == quote) = (c == quote) := fun c => blot_beq c hquote
  fun_induction literalRest quote escapes s with
  | case1 => rfl
  | case2 c h => simp [literalRest, hslash, h]
  | case3 c h d t ih => simp [literalRest, hslash, h, ih]
  | case4 c s h hq =>
      rw [List.map_cons, literalRest.eq_def]
      dsimp only
      rw [if_neg (by rwa [hslash]), if_pos (by rwa [hclose])]
  | case5 c s h hq hn =>
      rw [List.map_cons, literalRest.eq_def]
      dsimp only
      rw [if_neg (by rwa [hslash]), if_neg (by rwa [hclose]), if_pos (by rwa [hnewline])]
  | case6 c s h hq hn ih =>
      rw [List.map_cons, literalRest.eq_def]
      dsimp only
      rw [if_neg (by rwa [hslash]), if_neg (by rwa [hclose]), if_neg (by rwa [hnewline]), ih]

theorem isPlain_opener (b : Bracket) : isPlain b.opener = false := by
  cases b <;> decide

theorem isPlain_closer (b : Bracket) : isPlain b.closer = false := by
  cases b <;> decide

theorem closing?_blot (b : Bracket) (depth : Nat) (s : List Char) :
    b.closing? depth (s.map blot) = b.closing? depth s := by
  have hopen : ∀ c, (blot c == b.opener) = (c == b.opener) :=
    fun c => blot_beq c (isPlain_opener b)
  have hclose : ∀ c, (blot c == b.closer) = (c == b.closer) :=
    fun c => blot_beq c (isPlain_closer b)
  fun_induction Bracket.closing? b depth s with
  | case1 => rw [List.map_nil, Bracket.closing?]
  | case2 depth c s hquote n ih =>
      have hmark := isPlain_of_isAnyQuote hquote
      rw [List.map_cons, Bracket.closing?, if_pos ((isAnyQuote_blot c).trans hquote),
        blot_of_mark hmark]
      dsimp only
      rw [literalRest_blot hmark, ← List.map_drop, ih]
  | case3 depth c s hquote h ih =>
      rw [List.map_cons, Bracket.closing?, if_neg (by rwa [isAnyQuote_blot]),
        if_pos ((hopen c).trans h), ih]
  | case4 depth c s hquote h h' hdepth =>
      rw [List.map_cons, Bracket.closing?, if_neg (by rwa [isAnyQuote_blot]),
        if_neg (by rwa [hopen]), if_pos ((hclose c).trans h'), if_pos hdepth]
  | case5 depth c s hquote h h' hdepth ih =>
      rw [List.map_cons, Bracket.closing?, if_neg (by rwa [isAnyQuote_blot]),
        if_neg (by rwa [hopen]), if_pos ((hclose c).trans h'), if_neg hdepth, ih]
  | case6 depth c s hquote h h' ih =>
      rw [List.map_cons, Bracket.closing?, if_neg (by rwa [isAnyQuote_blot]),
        if_neg (by rwa [hopen]), if_neg (by rwa [hclose]), ih]

/-- What stands just before the end of a group that is closed. -/
theorem closer_of_closing? (b : Bracket) (depth : Nat) (s : List Char) :
    ∀ {n : Nat}, b.closing? depth s = some n →
      ∃ front rest, s = front ++ b.closer :: rest ∧ n = front.length + 1 := by
  fun_induction Bracket.closing? b depth s with
  | case1 => exact fun h => nomatch h
  | case2 depth c s hquote k =>
      rename_i ih
      intro n h
      obtain ⟨m, hm, rfl⟩ := Option.map_eq_some_iff.mp h
      obtain ⟨front, rest, hs, rfl⟩ := ih hm
      refine ⟨c :: (s.take k ++ front), rest, ?_, ?_⟩
      · rw [List.cons_append, List.append_assoc, ← hs, List.take_append_drop]
      · have hk : k ≤ s.length := literalRest_le_length _ _ s
        rw [List.length_cons, List.length_append, List.length_take]
        omega
  | case3 depth c s _ _ ih | case5 depth c s _ _ _ _ ih | case6 depth c s _ _ _ ih =>
      intro n h
      obtain ⟨m, hm, rfl⟩ := Option.map_eq_some_iff.mp h
      obtain ⟨front, rest, rfl, rfl⟩ := ih hm
      exact ⟨c :: front, rest, rfl, rfl⟩
  | case4 depth c s _ _ hclose _ =>
      intro n h
      obtain rfl := Option.some.inj h
      exact ⟨[], s, by rw [beq_iff_eq.mp hclose]; rfl, rfl⟩

theorem ofOpener?_blot (c : Char) : Bracket.ofOpener? (blot c) = Bracket.ofOpener? c := by
  have h : ∀ b : Bracket, (b.opener == blot c) = (b.opener == c) := fun b => by
    rw [BEq.comm, blot_beq c (isPlain_opener b), BEq.comm]
  simp only [Bracket.ofOpener?, h]

theorem groupEnd_blot (s : List Char) (index : Nat) :
    groupEnd (s.map blot) index = groupEnd s index := by
  unfold groupEnd
  rw [← List.map_drop]
  cases s.drop index with
  | nil => rfl
  | cons c rest => simp only [List.map_cons, ofOpener?_blot, closing?_blot, List.length_map]

/-! ## Texts within texts -/

theorem isPrefixOf_blot {needle : List Char} (h : needle.any isPlain = false) (s : List Char) :
    needle.isPrefixOf (s.map blot) = needle.isPrefixOf s := by
  induction needle generalizing s with
  | nil => rfl
  | cons d needle ih =>
      obtain ⟨hd, hneedle⟩ := Bool.or_eq_false_iff.mp (List.any_cons ▸ h)
      cases s with
      | nil => rfl
      | cons c s =>
          rw [List.map_cons, List.isPrefixOf_cons_cons, List.isPrefixOf_cons_cons, BEq.comm,
            blot_beq c hd, BEq.comm, ih hneedle]

theorem find?_blot {needle : List Char} (h : needle.any isPlain = false) (s : List Char) :
    find? needle (s.map blot) = find? needle s := by
  induction s with
  | nil => rfl
  | cons c s ih => rw [List.map_cons, find?, find?, ← List.map_cons, isPrefixOf_blot h, ih]

theorem count_blot {d : Char} (hd : isPlain d = false) (s : List Char) :
    (s.map blot).count d = s.count d := by
  unfold List.count
  rw [List.countP_map]
  congr 1
  funext c
  exact blot_beq c hd

theorem contains_blot {d : Char} (hd : isPlain d = false) (s : List Char) :
    (s.map blot).contains d = s.contains d := by
  induction s with
  | nil => rfl
  | cons c s ih =>
      have h : (d == blot c) = (d == c) := by rw [BEq.comm, blot_beq c hd, BEq.comm]
      rw [List.map_cons, List.contains_cons, List.contains_cons, h, ih]

theorem preambleLength_blot (depth : Int) (s : List Char) :
    preambleLength depth (s.map blot) = preambleLength depth s := by
  have hmarks : ∀ (c : Char) {d : Char}, isPlain d = false → (blot c == d) = (c == d) :=
    fun c _ hd => blot_beq c hd
  induction s generalizing depth with
  | nil => rfl
  | cons c s ih =>
      simp only [List.map_cons, preambleLength, ih, hmarks c (d := ')') (by decide),
        hmarks c (d := ']') (by decide), hmarks c (d := '(') (by decide),
        hmarks c (d := '[') (by decide), hmarks c (d := ';') (by decide),
        hmarks c (d := '\x7b') (by decide), hmarks c (d := '\x7d') (by decide)]

/-! ## Texts with the same marks -/

/-- The marks of two texts are the same and stand at the same places. -/
def SameMarks (s t : List Char) : Prop :=
  s.map blot = t.map blot

namespace SameMarks

variable {s t : List Char}

theorem length_eq (h : SameMarks s t) : s.length = t.length := by
  have := congrArg List.length h
  rwa [List.length_map, List.length_map] at this

theorem take (h : SameMarks s t) (n : Nat) : SameMarks (s.take n) (t.take n) := by
  rw [SameMarks, List.map_take, List.map_take, show s.map blot = t.map blot from h]

theorem drop (h : SameMarks s t) (n : Nat) : SameMarks (s.drop n) (t.drop n) := by
  rw [SameMarks, List.map_drop, List.map_drop, show s.map blot = t.map blot from h]

theorem slice (h : SameMarks s t) (start stop : Nat) :
    SameMarks (slice s start stop) (slice t start stop) :=
  (h.take stop).drop start

theorem reverse (h : SameMarks s t) : SameMarks s.reverse t.reverse := by
  rw [SameMarks, List.map_reverse, List.map_reverse, show s.map blot = t.map blot from h]

/-- What is found by the marks alone is found alike. -/
theorem congr {α : Sort _} {f : List Char → α} (hf : ∀ s, f (s.map blot) = f s)
    (h : SameMarks s t) : f s = f t := by
  rw [← hf s, show s.map blot = t.map blot from h, hf]

theorem groupEnd (h : SameMarks s t) (index : Nat) : groupEnd s index = groupEnd t index :=
  h.congr (f := (Source.groupEnd · index)) (groupEnd_blot · index)

theorem findFrom? (needle : List Char) (hneedle : needle.any isPlain = false)
    (h : SameMarks s t) (start : Nat) : findFrom? needle s start = findFrom? needle t start := by
  rw [Text.findFrom?, Text.findFrom?,
    (h.drop start).congr (f := find? needle) (find?_blot hneedle)]

theorem contains {d : Char} (hd : isPlain d = false) (h : SameMarks s t) :
    s.contains d = t.contains d :=
  h.congr (f := (List.contains · d)) (contains_blot hd)

theorem count {d : Char} (hd : isPlain d = false) (h : SameMarks s t) : s.count d = t.count d :=
  h.congr (f := (List.count d ·)) (count_blot hd)

theorem braceDepth (h : SameMarks s t) (start index : Nat) :
    braceDepth s start index = braceDepth t start index := by
  have hslice := h.slice start index
  simp only [Source.braceDepth, hslice.count (d := '\x7b') (by decide),
    hslice.count (d := '\x7d') (by decide)]

theorem lineNumber (h : SameMarks s t) (index : Nat) : lineNumber s index = lineNumber t index := by
  rw [Text.lineNumber, Text.lineNumber, newlines, newlines,
    (h.take index).count (d := '\n') (by decide)]

theorem preambleStart (h : SameMarks s t) (index : Nat) :
    preambleStart s index = preambleStart t index := by
  rw [Source.preambleStart, Source.preambleStart, h.length_eq,
    (h.take index).reverse.congr (f := (preambleLength 0 ·)) (preambleLength_blot 0)]

theorem encloses (h : SameMarks s t) (span : Declaration.Span) (index : Nat) :
    span.encloses s index = span.encloses t index := by
  rw [Declaration.Span.encloses, Declaration.Span.encloses, h.braceDepth]

theorem owner? (h : SameMarks s t) (spans : List Declaration.Span) (index : Nat) :
    Declaration.owner? spans s index = Declaration.owner? spans t index := by
  simp only [Declaration.owner?, h.encloses]

end SameMarks

end ServiceMap.Source
