import ServiceMap.Proofs.Source.Balance
import ServiceMap.Proofs.Text.Blanks

/-!
# Texts with string literals

A text by what it is made of: characters outside of string literals, and literals, which may hold any
characters. The scan for the end of a group and the splitting of a list both pass over a literal, so
that of such a text only the brackets outside of literals count. A list that is printed from parts
that stay whole is split into these parts again.
-/

namespace ServiceMap.Source

open Text

/-! ## Literals -/

/-- What may stand between the quotes of a literal: characters other than its quote and newlines, and
after a backslash any character. -/
inductive IsContent (quote : Char) : List Char → Prop where
  | nil : IsContent quote []
  | plain {c : Char} {s : List Char} (notQuote : c ≠ quote) (notEscape : c ≠ '\\')
      (notNewline : c ≠ '\n') (rest : IsContent quote s) : IsContent quote (c :: s)
  | escaped (c : Char) {s : List Char} (rest : IsContent quote s) : IsContent quote ('\\' :: c :: s)

theorem isContent_of_forall {quote : Char} {s : List Char}
    (h : ∀ c ∈ s, c ≠ quote ∧ c ≠ '\\' ∧ c ≠ '\n') : IsContent quote s := by
  induction s with
  | nil => exact .nil
  | cons c s ih =>
      obtain ⟨hquote, hescape, hnewline⟩ := h c List.mem_cons_self
      exact .plain hquote hescape hnewline (ih fun d hd => h d (List.mem_cons_of_mem c hd))

theorem ne_backslash_of_isQuote {quote : Char} (h : isQuote quote = true) : quote ≠ '\\' := by
  rintro rfl
  exact absurd h (by decide)

theorem isAnyQuote_of_isQuote {quote : Char} (h : isQuote quote = true) :
    isAnyQuote quote = true := by
  rw [isAnyQuote, h, Bool.true_or]

theorem isQuote_of_not_isAnyQuote {c : Char} (h : isAnyQuote c = false) : isQuote c = false :=
  (Bool.or_eq_false_iff.mp h).1

/-- A literal ends with its second quote. -/
theorem IsContent.literalRest {quote : Char} (hquote : isQuote quote = true) {s : List Char}
    (h : IsContent quote s) (t : List Char) :
    literalRest quote true (s ++ quote :: t) = s.length + 1 := by
  induction h with
  | nil =>
      have hescape := ne_backslash_of_isQuote hquote
      rw [List.nil_append, Source.literalRest.eq_def]
      simp [hescape]
  | plain hne hescape hnewline _ ih =>
      rw [List.cons_append, Source.literalRest.eq_def]
      simp [hescape, hne, hnewline, ih]
  | escaped c _ ih =>
      rw [List.cons_append, List.cons_append, Source.literalRest.eq_def]
      simp [ih]

/-- Names and blanks hold no quotes, brackets and commas. -/
theorem plain_of_label {s : List Char} {c : Char} (h : IsLabel s) (hc : c ∈ s) :
    isAnyQuote c = false ∧ isOpener c = false ∧ isCloser c = false ∧ c ≠ ',' := by
  refine ⟨?_, Bool.eq_false_iff.mpr fun hopener => ?_, Bool.eq_false_iff.mpr fun hcloser => ?_,
    h.ne hc (by decide)⟩
  · rw [isAnyQuote, isQuote, Bool.or_eq_false_iff, Bool.or_eq_false_iff, beq_eq_false_iff_ne,
      beq_eq_false_iff_ne, beq_eq_false_iff_ne]
    exact ⟨⟨h.ne hc (by decide), h.ne hc (by decide)⟩, h.ne hc (by decide)⟩
  · obtain ⟨b, rfl⟩ := Bracket.exists_opener hopener
    exact h.ne hc (by cases b <;> decide) rfl
  · obtain ⟨b, rfl⟩ := Bracket.exists_closer hcloser
    exact h.ne hc (by cases b <;> decide) rfl

/-! ## Stretches -/

/-- A character outside of literals, or a literal. -/
inductive Stretch where
  | code (c : Char) (ofCode : isAnyQuote c = false)
  | literal (quote : Char) (content : List Char) (ofQuote : isQuote quote = true)
      (ofContent : IsContent quote content)

namespace Stretch

/-- A stretch as it is written. -/
def text : Stretch → List Char
  | code c _ => [c]
  | literal quote content _ _ => quote :: (content ++ [quote])

/-- What stands between the quotes. -/
def content : Stretch → List Char
  | code .. => []
  | literal _ content _ _ => content

/-- A stretch without its literal. -/
def code? : Stretch → Option Char
  | code c _ => some c
  | literal .. => none

end Stretch

/-- A text without quotes, character by character. -/
def stretchesOf (s : List Char) (h : ∀ c ∈ s, isAnyQuote c = false) : List Stretch :=
  s.attach.map fun c => .code c.1 (h c.1 c.2)

/-- Stretches as they are written, one after the other. -/
def written (stretches : List Stretch) : List Char :=
  stretches.flatMap Stretch.text

/-- The characters outside of literals. -/
def shown (stretches : List Stretch) : List Char :=
  stretches.filterMap Stretch.code?

section Lists

variable {stretches more : List Stretch} {c : Char} {hc : isAnyQuote c = false}

@[simp] theorem written_append : written (stretches ++ more) = written stretches ++ written more :=
  List.flatMap_append

@[simp] theorem shown_append : shown (stretches ++ more) = shown stretches ++ shown more :=
  List.filterMap_append

@[simp] theorem written_code : written (.code c hc :: more) = c :: written more := rfl

@[simp] theorem shown_code : shown (.code c hc :: more) = c :: shown more := rfl

@[simp] theorem written_literal {quote : Char} {content : List Char} {hquote : isQuote quote = true}
    {hcontent : IsContent quote content} :
    written (.literal quote content hquote hcontent :: more)
      = quote :: (content ++ quote :: written more) := by
  simp [written, Stretch.text]

theorem written_literal_append {quote : Char} {content : List Char} {hquote : isQuote quote = true}
    {hcontent : IsContent quote content} (t : List Char) :
    written (.literal quote content hquote hcontent :: more) ++ t
      = quote :: (content ++ quote :: (written more ++ t)) := by
  simp

@[simp] theorem shown_literal {quote : Char} {content : List Char} {hquote : isQuote quote = true}
    {hcontent : IsContent quote content} :
    shown (.literal quote content hquote hcontent :: more) = shown more := rfl

end Lists

theorem take_literal (quote : Char) (content t : List Char) :
    (content ++ quote :: t).take (content.length + 1) = content ++ [quote] := by
  rw [← List.singleton_append, ← List.append_assoc]
  exact List.take_left' (by simp)

theorem drop_literal (quote : Char) (content t : List Char) :
    (content ++ quote :: t).drop (content.length + 1) = t := by
  rw [← List.singleton_append, ← List.append_assoc]
  exact List.drop_left' (by simp)

/-- A first part without quotes is made of characters outside of literals. -/
theorem split_written_of_plain {s rest : List Char} :
    ∀ {stretches : List Stretch}, (∀ c ∈ s, isAnyQuote c = false) → written stretches = s ++ rest →
      ∃ before after, stretches = before ++ after ∧ written before = s ∧ shown before = s
        ∧ written after = rest := by
  induction s with
  | nil => exact fun _ h => ⟨[], _, rfl, rfl, rfl, h⟩
  | cons c s ih =>
      intro stretches hs h
      cases stretches with
      | nil => exact nomatch h
      | cons stretch stretches =>
          cases stretch with
          | code d hd =>
              obtain ⟨rfl, hmore⟩ := List.cons.inj h
              obtain ⟨before, after, rfl, hprint, hshown, hrest⟩ :=
                ih (fun e he => hs e (List.mem_cons_of_mem d he)) hmore
              exact ⟨.code d hd :: before, after, rfl, congrArg (d :: ·) hprint,
                congrArg (d :: ·) hshown, hrest⟩
          | literal quote content hquote hcontent =>
              rw [written_literal] at h
              obtain ⟨rfl, -⟩ := List.cons.inj h
              have hany := isAnyQuote_of_isQuote hquote
              rw [hs quote List.mem_cons_self] at hany
              exact nomatch hany

/-- Where a character that is not its quote stands in a text that begins with a literal: in the content
of the literal, or behind it. -/
theorem split_literal_cons {c quote : Char} {content more front rest : List Char} (hne : c ≠ quote)
    (h : quote :: (content ++ quote :: more) = front ++ c :: rest) :
    (∃ x y, content = x ++ c :: y ∧ rest = y ++ quote :: more)
      ∨ ∃ x, front = quote :: (content ++ quote :: x) ∧ more = x ++ c :: rest := by
  cases front with
  | nil => exact absurd (List.cons.inj h).1.symm hne
  | cons e front =>
      obtain ⟨rfl, hinside⟩ := List.cons.inj h
      rcases List.append_eq_append_iff.mp hinside with ⟨x, rfl, hx⟩ | ⟨y, rfl, hy⟩
      · cases x with
        | nil => exact absurd (List.cons.inj hx).1.symm hne
        | cons d x =>
            obtain ⟨rfl, hrest⟩ := List.cons.inj hx
            exact Or.inr ⟨x, rfl, hrest⟩
      · cases y with
        | nil => exact absurd (List.cons.inj hy).1 hne
        | cons d y =>
            obtain ⟨rfl, hrest⟩ := List.cons.inj hy
            exact Or.inl ⟨front, y, rfl, hrest⟩

/-- Where a character that is no quote stands: outside of literals, or in the content of one. -/
theorem split_written_cons {c : Char} (hc : isAnyQuote c = false) {rest : List Char} :
    ∀ {stretches : List Stretch} {front : List Char}, written stretches = front ++ c :: rest →
      (∃ before after, stretches = before ++ .code c hc :: after ∧ written before = front
          ∧ written after = rest)
        ∨ ∃ before quote content hquote hcontent after x y,
          stretches = before ++ .literal quote content hquote hcontent :: after
            ∧ content = x ++ c :: y ∧ rest = y ++ quote :: written after := by
  intro stretches
  induction stretches with
  | nil => exact fun h => absurd (congrArg List.length h) (by simp [written])
  | cons stretch stretches ih =>
      intro front h
      -- what is found behind the first stretch
      have hlater : ∀ {behind : List Char}, front = stretch.text ++ behind →
          written stretches = behind ++ c :: rest →
          (∃ before after, stretch :: stretches = before ++ .code c hc :: after
              ∧ written before = front ∧ written after = rest)
            ∨ ∃ before quote content hquote hcontent after x y,
              stretch :: stretches = before ++ .literal quote content hquote hcontent :: after
                ∧ content = x ++ c :: y ∧ rest = y ++ quote :: written after := by
        intro behind hfront h
        rcases ih h with ⟨before, after, rfl, rfl, hrest⟩
          | ⟨before, quote, content, hquote, hcontent, after, x, y, rfl, hmore⟩
        · exact Or.inl ⟨stretch :: before, after, rfl, hfront.symm, hrest⟩
        · exact Or.inr
            ⟨stretch :: before, quote, content, hquote, hcontent, after, x, y, rfl, hmore⟩
      cases stretch with
      | code d hd =>
          cases front with
          | nil =>
              obtain ⟨rfl, hrest⟩ := List.cons.inj h
              exact Or.inl ⟨[], stretches, rfl, rfl, hrest⟩
          | cons e front =>
              obtain ⟨rfl, hrest⟩ := List.cons.inj h
              exact hlater rfl hrest
      | literal quote content hquote hcontent =>
          have hne : c ≠ quote := by
            rintro rfl
            exact Bool.false_ne_true (hc.symm.trans (isAnyQuote_of_isQuote hquote))
          rw [written_literal] at h
          rcases split_literal_cons hne h with ⟨x, y, hinside, hrest⟩ | ⟨behind, rfl, hbehind⟩
          · exact Or.inr ⟨[], quote, content, hquote, hcontent, stretches, x, y, rfl, hinside, hrest⟩
          · exact hlater (by simp [Stretch.text]) hbehind

/-- Where a character outside of literals stands. -/
theorem split_shown_cons {c : Char} {front rest : List Char} {stretches : List Stretch}
    (h : shown stretches = front ++ c :: rest) :
    ∃ before hc after, stretches = before ++ .code c hc :: after ∧ shown before = front
      ∧ shown after = rest := by
  obtain ⟨before, more, rfl, hbefore, hmore⟩ := List.filterMap_eq_append_iff.mp h
  obtain ⟨literals, stretch, after, rfl, hliterals, hstretch, hafter⟩ :=
    List.filterMap_eq_cons_iff.mp hmore
  cases stretch with
  | literal => exact nomatch hstretch
  | code d hd =>
      obtain rfl := Option.some.inj hstretch
      have hnone : shown literals = [] :=
        List.filterMap_eq_nil_iff.mpr fun literal hliteral => hliterals literal hliteral
      refine ⟨before ++ literals, hd, after, (List.append_assoc _ _ _).symm, ?_, hafter⟩
      rw [shown_append, hnone, List.append_nil]
      exact hbefore

/-! ## Ends of groups -/

/-- A literal that ends within a text ends there in every longer text. -/
theorem literalRest_append {quote : Char} {escapes : Bool} {s : List Char} (t : List Char)
    (h : Source.literalRest quote escapes s < s.length) :
    Source.literalRest quote escapes (s ++ t) = Source.literalRest quote escapes s := by
  fun_induction Source.literalRest quote escapes s with
  | case1 => exact absurd h (Nat.lt_irrefl 0)
  | case2 c hescape => exact absurd h (Nat.lt_irrefl 1)
  | case3 c hescape d s ih =>
      rw [List.cons_append, List.cons_append, Source.literalRest.eq_def]
      dsimp only
      rw [if_pos hescape, ih (by simpa using h)]
  | case4 c s hescape hquote =>
      rw [List.cons_append, Source.literalRest.eq_def]
      dsimp only
      rw [if_neg hescape, if_pos hquote]
  | case5 c s hescape hquote hnewline =>
      rw [List.cons_append, Source.literalRest.eq_def]
      dsimp only
      rw [if_neg hescape, if_neg hquote, if_pos hnewline]
  | case6 c s hescape hquote hnewline ih =>
      rw [List.cons_append, Source.literalRest.eq_def]
      dsimp only
      rw [if_neg hescape, if_neg hquote, if_neg hnewline, ih (by simpa using h)]

/-- A group that ends within a text ends there in every longer text. -/
theorem Bracket.closing?_append_of_eq_some {b : Bracket} {depth n : Nat} {s : List Char}
    (t : List Char) (h : b.closing? depth s = some n) : b.closing? depth (s ++ t) = some n := by
  fun_induction Bracket.closing? b depth s generalizing n with
  | case1 => exact nomatch h
  | case2 depth c s hquote k =>
      rename_i ih
      obtain ⟨m, hm, rfl⟩ := Option.map_eq_some_iff.mp h
      have hlt : k < s.length := by
        by_contra hle
        rw [List.drop_eq_nil_of_le (Nat.le_of_not_lt hle), Bracket.closing?] at hm
        exact nomatch hm
      have hdrop : (s ++ t).drop k = s.drop k ++ t := List.drop_append_of_le_length (Nat.le_of_lt hlt)
      rw [List.cons_append, Bracket.closing?, if_pos hquote]
      simp only [literalRest_append t hlt]
      show (b.closing? depth ((s ++ t).drop k)).map (· + k + 1) = _
      rw [hdrop, ih hm]
      rfl
  | case3 depth c s hquote hopener ih =>
      obtain ⟨m, hm, rfl⟩ := Option.map_eq_some_iff.mp h
      rw [List.cons_append, Bracket.closing?, if_neg hquote, if_pos hopener, ih hm]
      rfl
  | case4 depth c s hquote hopener hcloser hdepth =>
      rw [List.cons_append, Bracket.closing?, if_neg hquote, if_neg hopener, if_pos hcloser,
        if_pos hdepth]
      exact h
  | case5 depth c s hquote hopener hcloser hdepth ih =>
      obtain ⟨m, hm, rfl⟩ := Option.map_eq_some_iff.mp h
      rw [List.cons_append, Bracket.closing?, if_neg hquote, if_neg hopener, if_pos hcloser,
        if_neg hdepth, ih hm]
      rfl
  | case6 depth c s hquote hopener hcloser ih =>
      obtain ⟨m, hm, rfl⟩ := Option.map_eq_some_iff.mp h
      rw [List.cons_append, Bracket.closing?, if_neg hquote, if_neg hopener, if_neg hcloser, ih hm]
      rfl

namespace Bracket

variable {b : Bracket}

/-- The end of a group lies behind stretches in which it is not closed outside of literals. -/
theorem closing?_written {stretches : List Stretch} {depth after : Nat} (t : List Char)
    (h : b.depthAfter depth (shown stretches) = some after) :
    b.closing? (depth + 1) (written stretches ++ t)
      = (b.closing? (after + 1) t).map (· + (written stretches).length) := by
  induction stretches generalizing depth with
  | nil =>
      rw [← Option.some.inj h]
      exact Option.map_id'.symm
  | cons stretch stretches ih =>
      cases stretch with
      | code c hc =>
          -- one character, and then the others
          have hfirst : ∀ {next : Nat}, b.depthAfter depth [c] = some next →
              b.closing? (depth + 1) ([c] ++ (written stretches ++ t))
                = (b.closing? (next + 1) (written stretches ++ t)).map (· + [c].length) :=
            closing?_append _ fun d hd => List.mem_singleton.mp hd ▸ hc
          obtain ⟨next, hnext, hrest⟩ : ∃ next, b.depthAfter depth [c] = some next
              ∧ b.depthAfter next (shown stretches) = some after := by
            rw [shown_code, ← List.singleton_append, depthAfter_append] at h
            exact Option.bind_eq_some_iff.mp h
          rw [written_code, List.cons_append, ← List.singleton_append, hfirst hnext, ih hrest,
            Option.map_map]
          rfl
      | literal quote content hquote hcontent =>
          have hescapes : (quote != backtick) = true := by
            rw [bne_iff_ne]
            rintro rfl
            exact absurd hquote (by decide)
          rw [written_literal_append, closing?, if_pos (isAnyQuote_of_isQuote hquote)]
          simp only [hescapes, hcontent.literalRest hquote, drop_literal]
          rw [ih h, Option.map_map]
          refine congrArg (fun f => Option.map f _) (funext fun n => ?_)
          simp only [Function.comp_apply, written_literal, List.length_cons, List.length_append]
          omega

/-- A text that a scan for the end of a group passes over: no bracket of this kind is closed in it that
is not opened in it, and none stays open. -/
def PassesOver (b : Bracket) (s : List Char) : Prop :=
  ∀ depth t, b.closing? (depth + 1) (s ++ t) = (b.closing? (depth + 1) t).map (· + s.length)

theorem PassesOver.append {s t : List Char} (hs : b.PassesOver s) (ht : b.PassesOver t) :
    b.PassesOver (s ++ t) := by
  intro depth u
  rw [List.append_assoc, hs, ht, Option.map_map]
  refine congrArg (fun f => Option.map f _) (funext fun n => ?_)
  simp only [Function.comp_apply, List.length_append]
  omega

theorem passesOver_plain {s : List Char}
    (h : ∀ c ∈ s, isAnyQuote c = false ∧ c ≠ b.opener ∧ c ≠ b.closer) : b.PassesOver s :=
  fun depth t => closing?_append t (fun c hc => (h c hc).1)
    (depthAfter_of_none depth fun c hc => (h c hc).2)

theorem passesOver_written {stretches : List Stretch} (h : b.IsBalanced (shown stretches)) :
    b.PassesOver (written stretches) := by
  intro depth t
  have hdepth := depthAfter_add depth h
  rw [Nat.zero_add] at hdepth
  exact closing?_written t hdepth

/-- A group whose inside is passed over ends with the closer behind it. -/
theorem PassesOver.closing? {s : List Char} (h : b.PassesOver s) (t : List Char) :
    b.closing? 1 (s ++ b.closer :: t) = some (s.length + 1) := by
  rw [h 0, closing?_closer, if_pos (Nat.le_refl 1)]
  exact congrArg some (Nat.add_comm 1 s.length)

end Bracket

/-! ## All kinds of bracket -/

/-- The brackets open in all. -/
def openInAll (depth : Bracket → Nat) : Nat :=
  depth .round + depth .square + depth .curly + depth .angle

theorem openInAll_update (kind : Bracket) (depth : Bracket → Nat) (n : Nat) :
    openInAll (Function.update depth kind n) + depth kind = openInAll depth + n := by
  cases kind <;> simp [openInAll, Function.update] <;> omega

/-- No bracket is closed too early in a text, the kinds taken one by one, with the numbers of brackets
that are open before it and after it. -/
def KeepsOpen (depth : Bracket → Nat) (s : List Char) (after : Bracket → Nat) : Prop :=
  ∀ b : Bracket, b.depthAfter (depth b) s = some (after b)

/-- What one character does to the numbers of open brackets. -/
theorem KeepsOpen.step {depth after : Bracket → Nat} {c : Char} {s : List Char}
    (h : KeepsOpen depth (c :: s) after) :
    ∃ next, KeepsOpen next s after
      ∧ ((∃ kind : Bracket, c = kind.opener ∧ openInAll next = openInAll depth + 1)
        ∨ (∃ kind : Bracket, c = kind.closer ∧ openInAll depth = openInAll next + 1)
        ∨ isOpener c = false ∧ isCloser c = false ∧ next = depth) := by
  by_cases hopener : isOpener c = true
  · obtain ⟨kind, rfl⟩ := Bracket.exists_opener hopener
    have hnext := openInAll_update kind depth (depth kind + 1)
    refine ⟨Function.update depth kind (depth kind + 1), fun b => ?_,
      Or.inl ⟨kind, rfl, by omega⟩⟩
    have hdepth := h b
    rcases eq_or_ne b kind with rfl | hne
    · rwa [Bracket.depthAfter_opener, ← Function.update_self b (depth b + 1) depth] at hdepth
    · rwa [Bracket.depthAfter_other _ _ (fun heq => hne (Bracket.opener_injective heq).symm)
        (kind.opener_ne_closer_of b), ← Function.update_of_ne hne (depth kind + 1) depth] at hdepth
  · by_cases hcloser : isCloser c = true
    · obtain ⟨kind, rfl⟩ := Bracket.exists_closer hcloser
      obtain ⟨inner, hinner⟩ : ∃ inner, depth kind = inner + 1 := by
        rcases Bracket.depthAfter_cases (h kind) with
          ⟨heq, -⟩ | ⟨-, inner, hinner, -⟩ | ⟨-, hne, -⟩
        · exact absurd heq.symm kind.opener_ne_closer
        · exact ⟨inner, hinner⟩
        · exact absurd rfl hne
      have hnext := openInAll_update kind depth inner
      refine ⟨Function.update depth kind inner, fun b => ?_,
        Or.inr (Or.inl ⟨kind, rfl, by omega⟩)⟩
      have hdepth := h b
      rcases eq_or_ne b kind with rfl | hne
      · rwa [hinner, Bracket.depthAfter_closer, ← Function.update_self b inner depth] at hdepth
      · rwa [Bracket.depthAfter_other _ _ (b.opener_ne_closer_of kind).symm
          (fun heq => hne (Bracket.closer_injective heq).symm),
          ← Function.update_of_ne hne inner depth] at hdepth
    · refine ⟨depth, fun b => ?_, Or.inr (Or.inr ⟨Bool.eq_false_iff.mpr hopener,
        Bool.eq_false_iff.mpr hcloser, rfl⟩)⟩
      have hdepth := h b
      have hnotOpener : c ≠ b.opener := fun heq => hopener (heq ▸ b.isOpener_opener)
      have hnotCloser : c ≠ b.closer := fun heq => hcloser (heq ▸ b.isCloser_closer)
      rwa [Bracket.depthAfter_other _ _ hnotOpener hnotCloser] at hdepth

/-! ## Parts of lists -/

/-- Inside `low` or more brackets, a text is part of one piece of a list, and `more` brackets are open
after it. -/
def StaysWhole (separator : Char) (low more : Nat) (s : List Char) : Prop :=
  ∀ depth t, low ≤ depth →
    pieces separator depth (s ++ t) = prepend s (pieces separator (depth + more) t)

section Whole

variable {separator : Char} {low more low' more' : Nat} {s t : List Char}

theorem staysWhole_nil : StaysWhole separator low 0 [] :=
  fun _ _ _ => (prepend_nil (pieces_ne_nil _ _ _)).symm

theorem StaysWhole.append (hs : StaysWhole separator low more s)
    (ht : StaysWhole separator low' more' t) (h : low' ≤ low + more) :
    StaysWhole separator low (more + more') (s ++ t) := by
  intro depth u hdepth
  rw [List.append_assoc, hs depth _ hdepth, ht (depth + more) u (by omega), prepend_prepend,
    Nat.add_assoc]

theorem StaysWhole.mono (h : StaysWhole separator low more s) (hle : low ≤ low') :
    StaysWhole separator low' more s :=
  fun depth t hdepth => h depth t (Nat.le_trans hle hdepth)

theorem staysWhole_plain (h : ∀ c ∈ s, isQuote c = false ∧ isOpener c = false ∧ isCloser c = false
    ∧ c ≠ separator) : StaysWhole separator 0 0 s :=
  fun depth t _ => pieces_of_plain depth t h

/-- What is whole inside a bracket is whole with brackets around it. -/
theorem StaysWhole.group (b : Bracket) (h : StaysWhole separator 1 more s) :
    StaysWhole separator 0 more (b.opener :: (s ++ [b.closer])) := by
  intro depth t _
  rw [List.cons_append, List.append_assoc, List.singleton_append, pieces_opener,
    h (depth + 1) _ (Nat.le_add_left 1 depth), pieces_closer, prepend_prepend, prepend_prepend,
    show depth + 1 + more - 1 = depth + more by omega]
  rfl

/-- Inside a bracket separators do not count. -/
theorem staysWhole_separator (hquote : isQuote separator = false)
    (hopener : isOpener separator = false) (hcloser : isCloser separator = false) :
    StaysWhole separator 1 0 [separator] := by
  intro depth t hdepth
  rw [List.singleton_append, pieces, if_neg (by simp [hquote]), if_neg (by simp [hopener]),
    if_neg (by simp [hcloser]), if_neg (by simp; omega)]
  rfl

/-- Inside a bracket, one character is part of a piece. -/
theorem KeepsOpen.pieces_cons {depth after : Bracket → Nat} {c : Char} {s : List Char} (outer : Nat)
    (t : List Char) (h : KeepsOpen depth (c :: s) after) (hquote : isAnyQuote c = false) :
    ∃ next, KeepsOpen next s after ∧ pieces separator (outer + 1 + openInAll depth) (c :: t)
      = prepend [c] (pieces separator (outer + 1 + openInAll next) t) := by
  obtain ⟨next, hnext, ⟨kind, rfl, hopen⟩ | ⟨kind, rfl, hclosed⟩ | ⟨hopener, hcloser, rfl⟩⟩ :=
    h.step
  · refine ⟨next, hnext, ?_⟩
    rw [pieces_opener, hopen, Nat.add_assoc _ _ 1]
  · refine ⟨next, hnext, ?_⟩
    rw [pieces_closer, hclosed, ← Nat.add_assoc, Nat.add_sub_cancel]
  · refine ⟨next, hnext, ?_⟩
    rw [pieces, if_neg (by simp [isQuote_of_not_isAnyQuote hquote]), if_neg (by simp [hopener]),
      if_neg (by simp [hcloser]), if_neg (by simp)]

/-- Inside a bracket, stretches are part of one piece as long as no bracket is closed too early. -/
theorem pieces_written {stretches : List Stretch} {after : Bracket → Nat} (outer : Nat)
    (t : List Char) :
    ∀ {depth : Bracket → Nat}, KeepsOpen depth (shown stretches) after →
      pieces separator (outer + 1 + openInAll depth) (written stretches ++ t)
        = prepend (written stretches) (pieces separator (outer + 1 + openInAll after) t) := by
  induction stretches with
  | nil =>
      intro depth h
      obtain rfl : depth = after := funext fun b => Option.some.inj (h b)
      exact (prepend_nil (pieces_ne_nil _ _ _)).symm
  | cons stretch stretches ih =>
      intro depth h
      cases stretch with
      | code c hc =>
          rw [shown_code] at h
          obtain ⟨next, hnext, hstep⟩ := h.pieces_cons outer (written stretches ++ t) hc
          rw [written_code, List.cons_append, hstep, ih hnext, prepend_prepend]
          rfl
      | literal quote content hquote hcontent =>
          rw [written_literal_append, pieces, if_pos hquote]
          simp only [hcontent.literalRest hquote, take_literal, drop_literal]
          rw [ih h, prepend_prepend]
          simp

theorem staysWhole_written {stretches : List Stretch}
    (h : ∀ b : Bracket, b.IsBalanced (shown stretches)) :
    StaysWhole separator 1 0 (written stretches) := by
  intro depth t hdepth
  have hpieces : pieces separator (depth - 1 + 1 + openInAll fun _ => 0) (written stretches ++ t)
      = prepend (written stretches) (pieces separator (depth - 1 + 1 + openInAll fun _ => 0) t) :=
    pieces_written (depth - 1) t h
  rwa [show depth - 1 + 1 + openInAll (fun _ => 0) = depth + 0 from by simp [openInAll]; omega]
    at hpieces

end Whole

/-! ## Printed lists -/

/-- A list as it is printed. -/
def printList (parts : List (List Char)) : List Char :=
  join [',', ' '] parts

theorem printList_cons (s : List Char) {rest : List (List Char)} (h : rest ≠ []) :
    printList (s :: rest) = s ++ ([',', ' '] ++ printList rest) := by
  obtain ⟨t, rest, rfl⟩ := List.exists_cons_of_ne_nil h
  exact join_cons_cons _ s t rest

/-- The last parts of a list read as one part. -/
theorem printList_append_cons (init : List (List Char)) (s : List Char) {rest : List (List Char)}
    (h : rest ≠ []) :
    printList (init ++ s :: rest)
      = printList (init ++ [s ++ ([',', ' '] ++ printList rest)]) := by
  induction init with
  | nil => exact printList_cons s h
  | cons first init ih =>
      rw [List.cons_append, List.cons_append,
        printList_cons first (List.append_ne_nil_of_right_ne_nil init (List.cons_ne_nil _ _)),
        printList_cons first (List.append_ne_nil_of_right_ne_nil init (List.cons_ne_nil _ _)), ih]

/-- The parts of a printed list are its pieces, where all of them stay whole and all but the last close
what they open. -/
theorem map_trim_pieces_printList {last : List Char} {more : Nat}
    (hlast : StaysWhole ',' 0 more last) (htrimmed : IsTrimmed last) {init : List (List Char)}
    (hinit : ∀ s ∈ init, StaysWhole ',' 0 0 s ∧ IsTrimmed s) :
    (pieces ',' 0 (printList (init ++ [last]))).map trim = init ++ [last] := by
  induction init with
  | nil =>
      have hpieces := hlast 0 [] (Nat.le_refl 0)
      rw [List.append_nil, pieces] at hpieces
      show (pieces ',' 0 last).map trim = [last]
      rw [hpieces, prepend, List.append_nil, List.map_singleton, htrimmed.trim_eq]
  | cons s init ih =>
      obtain ⟨hwhole, hs⟩ := hinit s List.mem_cons_self
      have hrest := ih fun t ht => hinit t (List.mem_cons_of_mem s ht)
      have hspace : StaysWhole ',' 0 0 [' '] :=
        staysWhole_plain (forall_mem_of_all (by decide))
      have hblank : ∀ list : List (List Char), list ≠ [] →
          (prepend [' '] list).map trim = list.map trim := by
        intro list hlist
        obtain ⟨piece, list, rfl⟩ := List.exists_cons_of_ne_nil hlist
        exact congrArg (· :: list.map trim) (trim_cons (by decide) piece)
      rw [List.cons_append, printList_cons s (List.append_ne_nil_of_right_ne_nil init
          (List.cons_ne_nil _ _)), hwhole 0 _ (Nat.le_refl 0),
        show [',', ' '] ++ printList (init ++ [last])
          = ',' :: ([' '] ++ printList (init ++ [last])) from rfl,
        pieces_separator (by decide) (by decide) (by decide), hspace 0 _ (Nat.le_refl 0),
        prepend, List.append_nil, List.map_cons, hs.trim_eq, hblank _ (pieces_ne_nil _ _ _), hrest]

theorem parts_printList_append {last : List Char} {more : Nat}
    (hlast : StaysWhole ',' 0 more last) (htrimmed : IsTrimmed last) {init : List (List Char)}
    (hinit : ∀ s ∈ init, StaysWhole ',' 0 0 s ∧ IsTrimmed s) :
    parts (printList (init ++ [last])) = init ++ [last] := by
  rw [parts, partsAt, map_trim_pieces_printList hlast htrimmed hinit, List.filter_eq_self]
  intro s hs
  rw [Bool.not_eq_true', List.isEmpty_eq_false_iff]
  rcases List.mem_append.mp hs with hs | hs
  · exact (hinit s hs).2.nonempty
  · exact List.mem_singleton.mp hs ▸ htrimmed.nonempty

/-- **A printed list is read back.** -/
theorem parts_printList {list : List (List Char)}
    (h : ∀ s ∈ list, StaysWhole ',' 0 0 s ∧ IsTrimmed s) : parts (printList list) = list := by
  rcases List.eq_nil_or_concat list with rfl | ⟨init, last, rfl⟩
  · rw [printList, join, parts, partsAt, pieces]
    rfl
  · rw [List.concat_eq_append] at h ⊢
    obtain ⟨hwhole, htrimmed⟩ := h last (List.mem_append_right _ (List.mem_singleton.mpr rfl))
    exact parts_printList_append hwhole htrimmed fun s hs => h s (List.mem_append_left _ hs)

end ServiceMap.Source
