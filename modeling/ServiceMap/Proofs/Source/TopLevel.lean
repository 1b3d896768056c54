import ServiceMap.Proofs.Source.ListReading

/-!
# The top level of a list

A list is to be split outside of string literals and outside of groups in round brackets, square
brackets and braces, whatever angle signs it holds. Literals are always passed over. But the four kinds
of bracket share one count, and a closing angle sign takes a group off this count as well as an opening
angle sign: a separator in a group splits the list where the angle signs before it count the group out.
-/

namespace ServiceMap.Source

open Text ListState

/-! ## Groups -/

/-- A list with the characters of its literals blanked out. -/
def outsideLiterals : Reading → List Char → List Char
  | _, [] => []
  | reading, c :: s =>
    (if (reading.listStep c).1 then c else ' ') :: outsideLiterals (reading.listStep c).2 s

/-- The kinds of bracket that always group what they enclose. -/
def Bracket.grouping : List Bracket :=
  [.round, .square, .curly]

/-- The groups that are open behind a character, the innermost first; none if the character closes
another group than the innermost one. Angle signs may stand anywhere. -/
def groupStep (groups : List Bracket) (c : Char) : Option (List Bracket) :=
  match Bracket.grouping.find? fun b => b.opener == c with
  | some b => some (b :: groups)
  | none =>
    match Bracket.grouping.find? fun b => b.closer == c with
    | none => some groups
    | some b => if groups.head? = some b then some groups.tail else none

/-- The groups that are open behind a text. -/
def groupsAfter (groups : List Bracket) (s : List Char) : Option (List Bracket) :=
  s.foldlM groupStep groups

/-- Every group is closed by its own kind of bracket, and after the groups that open inside. -/
def IsNested (s : List Char) : Prop :=
  groupsAfter [] s = some []

instance (s : List Char) : Decidable (IsNested s) :=
  inferInstanceAs (Decidable (_ = _))

/-- The number of groups that are open at a position. -/
def groupsOpen (s : List Char) (n : Nat) : Nat :=
  ((groupsAfter [] (s.take n)).getD []).length

/-- Since every earlier position, the closing angle signs outnumber the opening ones by as many groups
as have been opened and not closed, or by more. -/
def AnglesCountGroupsOut (s : List Char) (n : Nat) : Prop :=
  ∀ m ≤ n, groupsOpen s n + (slice s m n).count '<' ≤ groupsOpen s m + (slice s m n).count '>'

instance (s : List Char) (n : Nat) : Decidable (AnglesCountGroupsOut s n) :=
  inferInstanceAs (Decidable (∀ m ≤ n, _))

/-! ## Places where a list is split -/

/-- The pieces of a text meet at a position, where a separator stands between them. -/
def IsCut (separator : Char) (list : List (List Char)) (n : Nat) : Prop :=
  ∃ front back, front ≠ [] ∧ back ≠ [] ∧ list = front ++ back
    ∧ (join [separator] front).length = n

/-- A list is split at a position. -/
def SplitsAt (separator : Char) (text : List Char) (n : Nat) : Prop :=
  IsCut separator (pieces separator 0 text) n

section Cuts

variable {separator : Char} {list : List (List Char)} {n : Nat}

theorem not_isCut_singleton (s : List Char) : ¬IsCut separator [s] n := by
  rintro ⟨front, back, hfront, hback, h, -⟩
  rcases List.append_eq_singleton_iff.mp h.symm with ⟨hnil, -⟩ | ⟨-, hnil⟩
  · exact hfront hnil
  · exact hback hnil

/-- Where the pieces meet if a separator stands in front of them. -/
theorem isCut_nil_cons (hlist : list ≠ []) :
    IsCut separator ([] :: list) n ↔ n = 0 ∨ ∃ m, n = m + 1 ∧ IsCut separator list m := by
  constructor
  · rintro ⟨front, back, hfront, hback, h, rfl⟩
    obtain ⟨piece, front, rfl⟩ := List.exists_cons_of_ne_nil hfront
    obtain ⟨rfl, rfl⟩ := List.cons.inj h
    cases front with
    | nil => exact Or.inl rfl
    | cons next front =>
        refine Or.inr ⟨_, ?_, next :: front, back, List.cons_ne_nil _ _, hback, rfl, rfl⟩
        rw [join_cons_cons]
        rfl
  · rintro (rfl | ⟨m, rfl, front, back, hfront, hback, rfl, rfl⟩)
    · exact ⟨[[]], list, List.cons_ne_nil _ _, hlist, rfl, rfl⟩
    · obtain ⟨next, front, rfl⟩ := List.exists_cons_of_ne_nil hfront
      refine ⟨[] :: next :: front, back, List.cons_ne_nil _ _, hback, rfl, ?_⟩
      rw [join_cons_cons]
      rfl

/-- Where the pieces meet if a character is put in front of the first one. -/
theorem isCut_prepend (c : Char) (hlist : list ≠ []) :
    IsCut separator (prepend [c] list) n ↔ ∃ m, n = m + 1 ∧ IsCut separator list m := by
  obtain ⟨piece, list, rfl⟩ := List.exists_cons_of_ne_nil hlist
  have hlength : ∀ front : List (List Char),
      (join [separator] ((c :: piece) :: front)).length
        = (join [separator] (piece :: front)).length + 1 := by
    intro front
    cases front with
    | nil => rfl
    | cons next front => rw [join_cons_cons, join_cons_cons]; rfl
  constructor
  · rintro ⟨front, back, hfront, hback, h, rfl⟩
    obtain ⟨first, front, rfl⟩ := List.exists_cons_of_ne_nil hfront
    obtain ⟨rfl, rfl⟩ := List.cons.inj h
    exact ⟨_, hlength front, piece :: front, back, List.cons_ne_nil _ _, hback, rfl, rfl⟩
  · rintro ⟨m, rfl, front, back, hfront, hback, h, rfl⟩
    obtain ⟨first, front, rfl⟩ := List.exists_cons_of_ne_nil hfront
    obtain ⟨rfl, rfl⟩ := List.cons.inj h
    exact ⟨(c :: piece) :: front, back, List.cons_ne_nil _ _, hback, rfl, hlength front⟩

theorem forall_isCut_nil_cons (hlist : list ≠ []) {P : Nat → Prop} :
    (∀ n, IsCut separator ([] :: list) n → P n)
      ↔ P 0 ∧ ∀ m, IsCut separator list m → P (m + 1) := by
  simp only [isCut_nil_cons hlist]
  constructor
  · exact fun hall => ⟨hall 0 (Or.inl rfl), fun m hm => hall (m + 1) (Or.inr ⟨m, rfl, hm⟩)⟩
  · rintro ⟨hzero, hall⟩ n (rfl | ⟨m, rfl, hm⟩)
    · exact hzero
    · exact hall m hm

theorem forall_isCut_prepend (c : Char) (hlist : list ≠ []) {P : Nat → Prop} :
    (∀ n, IsCut separator (prepend [c] list) n → P n)
      ↔ ∀ m, IsCut separator list m → P (m + 1) := by
  simp only [isCut_prepend c hlist]
  constructor
  · exact fun hall m hm => hall (m + 1) ⟨m, rfl, hm⟩
  · rintro hall n ⟨m, rfl, hm⟩
    exact hall m hm

/-- A list is split at the separators that are read at the top. -/
theorem isCut_readPieces (hseparator : IsSeparator separator) {state : ListState} {s : List Char} :
    IsCut separator (readPieces separator state s) n
      ↔ s[n]? = some separator ∧ state.after (s.take n) = top := by
  induction s generalizing state n with
  | nil => exact iff_of_false (not_isCut_singleton []) fun h => nomatch h.1
  | cons c s ih =>
      by_cases hsplit : c = separator ∧ state = top
      · obtain ⟨rfl, rfl⟩ := hsplit
        rw [readPieces_separator, isCut_nil_cons (readPieces_ne_nil s)]
        cases n with
        | zero => exact iff_of_true (Or.inl rfl) ⟨rfl, rfl⟩
        | succ n => simp [ih, step_separator hseparator]
      · rw [readPieces_of_not hsplit, isCut_prepend c (readPieces_ne_nil s)]
        cases n with
        | zero =>
            refine iff_of_false (fun ⟨m, hm, _⟩ => nomatch hm) fun h => hsplit ?_
            exact ⟨Option.some.inj h.1, h.2⟩
        | succ n => simp [ih]

theorem splitsAt_iff_after (hseparator : IsSeparator separator) {text : List Char} :
    SplitsAt separator text n
      ↔ text[n]? = some separator ∧ top.after (text.take n) = top := by
  rw [SplitsAt, pieces_eq_readPieces hseparator]
  exact isCut_readPieces hseparator

end Cuts

/-! ## What is read outside literals -/

section Outside

variable {separator : Char} (state : ListState) (s : List Char)

theorem outsideLiterals_cons (c : Char) :
    outsideLiterals state.reading (c :: s)
      = (if (state.reading.listStep c).1 then c else ' ')
        :: outsideLiterals (state.step c).reading s := rfl

theorem outsideLiterals_append (t : List Char) :
    outsideLiterals state.reading (s ++ t)
      = outsideLiterals state.reading s ++ outsideLiterals (state.after s).reading t := by
  induction s generalizing state with
  | nil => rfl
  | cons c s ih =>
      rw [List.cons_append, outsideLiterals_cons, outsideLiterals_cons, ih]
      rfl

theorem outsideLiterals_take (reading : Reading) (n : Nat) :
    outsideLiterals reading (s.take n) = (outsideLiterals reading s).take n := by
  induction s generalizing reading n with
  | nil => simp [outsideLiterals]
  | cons c s ih =>
      cases n with
      | zero => rfl
      | succ n => rw [List.take_succ_cons, outsideLiterals, outsideLiterals, List.take_succ_cons, ih]

/-- Brackets in literals do not count. -/
theorem depth_after :
    (state.after s).depth = (outsideLiterals state.reading s).foldl depthStep state.depth := by
  induction s generalizing state with
  | nil => rfl
  | cons c s ih =>
      have hspace : ∀ depth, depthStep depth ' ' = depth := fun depth => by
        rw [depthStep, if_neg (by decide), if_neg (by decide)]
      have hstep : (state.step c).depth
          = depthStep state.depth (if (state.reading.listStep c).1 then c else ' ') := by
        rw [step]
        split
        · rfl
        · rw [hspace]
      rw [after_cons, ih, hstep]
      rfl

/-- A character is shown where it is read outside literals, or as the newline that cuts a literal off. -/
theorem Reading.code_of_shown {reading : Reading} {c : Char} (h : (reading.listStep c).1 = true) :
    reading = .code ∨ c = '\n' := by
  cases reading with
  | code => exact Or.inl rfl
  | literal quote =>
      right
      have hstep : ((Reading.literal quote).step c).1 = true := h
      rw [step] at hstep
      split at hstep
      · exact absurd hstep Bool.false_ne_true
      · split at hstep
        · exact absurd hstep Bool.false_ne_true
        · split at hstep
          · rename_i hcut
            exact hcut.1
          · exact absurd hstep Bool.false_ne_true
  | hidden quote => exact absurd h Bool.false_ne_true

/-- A separator is shown where it is read outside literals. -/
theorem getElem?_outsideLiterals (hseparator : IsSeparator separator) {n : Nat} :
    (outsideLiterals state.reading s)[n]? = some separator
      ↔ s[n]? = some separator ∧ (state.after (s.take n)).reading = .code := by
  induction s generalizing state n with
  | nil => exact iff_of_false (fun h => nomatch h) fun h => nomatch h.1
  | cons c s ih =>
      rw [outsideLiterals_cons]
      cases n with
      | succ n => simpa using ih (state.step c)
      | zero =>
          have hspace : ' ' ≠ separator := by
            rintro rfl
            exact absurd hseparator.notBlank (by decide)
          simp only [List.getElem?_cons_zero, Option.some.injEq, List.take_zero, after_nil]
          constructor
          · intro h
            split at h
            · rename_i hshown
              exact ⟨h, (Reading.code_of_shown hshown).resolve_right
                (h ▸ hseparator.ne_newline)⟩
            · exact absurd h hspace
          · rintro ⟨rfl, hcode⟩
            simp [hcode, Reading.listStep, hseparator.notQuote]

/-- Where a list is split, told by what stands outside literals. -/
theorem splitsAt_iff_outside (hseparator : IsSeparator separator) {text : List Char} {n : Nat} :
    SplitsAt separator text n
      ↔ (outsideLiterals .code text)[n]? = some separator
        ∧ ((outsideLiterals .code text).take n).foldl depthStep 0 = 0 := by
  have hshown : (outsideLiterals .code text)[n]? = some separator
      ↔ text[n]? = some separator ∧ (top.after (text.take n)).reading = .code :=
    getElem?_outsideLiterals top text hseparator
  have hdepth : (top.after (text.take n)).depth
      = ((outsideLiterals .code text).take n).foldl depthStep 0 := by
    rw [depth_after, ← outsideLiterals_take]
    rfl
  rw [splitsAt_iff_after hseparator, hshown, ← hdepth, and_assoc]
  refine and_congr_right fun _ => ⟨fun h => by rw [h]; exact ⟨rfl, rfl⟩, fun ⟨hcode, hzero⟩ => ?_⟩
  cases hstate : top.after (text.take n)
  rw [hstate] at hcode hzero
  rw [top, ← show _ = Reading.code from hcode, ← show _ = 0 from hzero]

end Outside

/-! ## Counting brackets -/

/-- Brackets are counted out if in each stretch up to the end at least as many are closed as opened. -/
theorem foldl_depthStep_eq_zero_iff {s : List Char} {depth : Nat} :
    s.foldl depthStep depth = 0
      ↔ depth + s.countP isOpener ≤ s.countP isCloser
        ∧ ∀ t, t <:+ s → t.countP isOpener ≤ t.countP isCloser := by
  induction s generalizing depth with
  | nil =>
      simp
  | cons c s ih =>
      have hsuffixes : (∀ t, t <:+ c :: s → t.countP isOpener ≤ t.countP isCloser)
          ↔ (c :: s).countP isOpener ≤ (c :: s).countP isCloser
            ∧ ∀ t, t <:+ s → t.countP isOpener ≤ t.countP isCloser := by
        simp only [List.suffix_cons_iff, forall_eq_or_imp]
      have hlast : (∀ t, t <:+ s → t.countP isOpener ≤ t.countP isCloser) →
          s.countP isOpener ≤ s.countP isCloser := fun h => h s (List.suffix_refl s)
      rw [List.foldl_cons, ih, hsuffixes, List.countP_cons, List.countP_cons, depthStep]
      by_cases hopener : isOpener c = true
      · obtain ⟨b, rfl⟩ := Bracket.exists_opener hopener
        have hcloser : isCloser b.opener = false := by cases b <;> decide
        simp only [hopener, hcloser, if_true, Bool.false_eq_true, if_false]
        constructor
        · rintro ⟨hle, hall⟩
          exact ⟨by omega, by omega, hall⟩
        · rintro ⟨hle, -, hall⟩
          exact ⟨by omega, hall⟩
      · by_cases hcloser : isCloser c = true
        · simp only [hopener, hcloser, if_true, Bool.false_eq_true, if_false]
          constructor
          · rintro ⟨hle, hall⟩
            have hle' := hlast hall
            exact ⟨by omega, by omega, hall⟩
          · rintro ⟨hle, -, hall⟩
            have hle' := hlast hall
            exact ⟨by omega, hall⟩
        · simp only [hopener, hcloser, Bool.false_eq_true, if_false]
          constructor
          · rintro ⟨hle, hall⟩
            exact ⟨by omega, by omega, hall⟩
          · rintro ⟨hle, -, hall⟩
            exact ⟨by omega, hall⟩

/-! ## Counting groups -/

/-- What a character does to the groups that are open. -/
theorem groupStep_cases {groups after : List Bracket} {c : Char}
    (h : groupStep groups c = some after) :
    (∃ b ∈ Bracket.grouping, c = b.opener ∧ after = b :: groups)
      ∨ (∃ b ∈ Bracket.grouping, c = b.closer ∧ groups = b :: after)
      ∨ (∀ b ∈ Bracket.grouping, c ≠ b.opener ∧ c ≠ b.closer) ∧ after = groups := by
  rw [groupStep] at h
  split at h
  · rename_i b hb
    have hopener : b.opener = c := by simpa using List.find?_some hb
    exact Or.inl ⟨b, List.mem_of_find?_eq_some hb, hopener.symm, (Option.some.inj h).symm⟩
  · rename_i hopeners
    split at h
    · rename_i hclosers
      refine Or.inr (Or.inr ⟨fun b hb => ⟨?_, ?_⟩, (Option.some.inj h).symm⟩)
      · rintro rfl
        exact absurd (List.find?_eq_none.mp hopeners b hb) (by simp)
      · rintro rfl
        exact absurd (List.find?_eq_none.mp hclosers b hb) (by simp)
    · rename_i b hb
      split at h
      · rename_i hhead
        obtain ⟨rest, rfl⟩ := List.head?_eq_some_iff.mp hhead
        have hcloser : b.closer = c := by simpa using List.find?_some hb
        exact Or.inr (Or.inl ⟨b, List.mem_of_find?_eq_some hb, hcloser.symm,
          congrArg (b :: ·) (Option.some.inj h)⟩)
      · exact nomatch h

/-- A character that is no bracket leaves the groups as they are. -/
theorem groupStep_of_plain {c : Char} (hopener : isOpener c = false) (hcloser : isCloser c = false)
    (groups : List Bracket) : groupStep groups c = some groups := by
  have hopeners : Bracket.grouping.find? (fun b => b.opener == c) = none := by
    refine List.find?_eq_none.mpr fun b _ hb => ?_
    rw [← beq_iff_eq.mp hb, b.isOpener_opener] at hopener
    exact nomatch hopener
  have hclosers : Bracket.grouping.find? (fun b => b.closer == c) = none := by
    refine List.find?_eq_none.mpr fun b _ hb => ?_
    rw [← beq_iff_eq.mp hb, b.isCloser_closer] at hcloser
    exact nomatch hcloser
  rw [groupStep, hopeners, hclosers]

section Groups

variable {s : List Char} {groups after : List Bracket}

theorem groupsAfter_cons (groups : List Bracket) (c : Char) (s : List Char) :
    groupsAfter groups (c :: s) = (groupStep groups c).bind (groupsAfter · s) :=
  List.foldlM_cons

theorem groupsAfter_append (groups : List Bracket) (s t : List Char) :
    groupsAfter groups (s ++ t) = (groupsAfter groups s).bind (groupsAfter · t) :=
  List.foldlM_append

theorem groupsAfter_of_plain (h : ∀ c ∈ s, isOpener c = false ∧ isCloser c = false)
    (groups : List Bracket) : groupsAfter groups s = some groups := by
  induction s with
  | nil => rfl
  | cons c s ih =>
      obtain ⟨hopener, hcloser⟩ := h c List.mem_cons_self
      rw [groupsAfter_cons, groupStep_of_plain hopener hcloser]
      exact ih fun d hd => h d (List.mem_cons_of_mem c hd)

/-- Angle signs apart, a character opens or closes as many brackets as groups. -/
theorem count_groupStep {c : Char} (h : groupStep groups c = some after) :
    [c].countP isOpener + groups.length + [c].count '>'
      = [c].countP isCloser + after.length + [c].count '<' := by
  rcases groupStep_cases h with ⟨b, hb, rfl, rfl⟩ | ⟨b, hb, rfl, rfl⟩ | ⟨hplain, rfl⟩
  · have hcounts : [b.opener].countP isOpener = 1 ∧ [b.opener].countP isCloser = 0
        ∧ [b.opener].count '>' = 0 ∧ [b.opener].count '<' = 0 := by
      revert hb
      cases b <;> decide
    rw [List.length_cons]
    omega
  · have hcounts : [b.closer].countP isOpener = 0 ∧ [b.closer].countP isCloser = 1
        ∧ [b.closer].count '>' = 0 ∧ [b.closer].count '<' = 0 := by
      revert hb
      cases b <;> decide
    rw [List.length_cons]
    omega
  · by_cases hless : c = '<'
    · subst hless
      simp [show isOpener '<' = true by decide, show isCloser '<' = false by decide]
      omega
    by_cases hgreater : c = '>'
    · subst hgreater
      simp [show isOpener '>' = false by decide, show isCloser '>' = true by decide]
      omega
    have hopener : isOpener c = false := by
      refine Bool.eq_false_iff.mpr fun hopener => ?_
      obtain ⟨b, rfl⟩ := Bracket.exists_opener hopener
      cases b with
      | angle => exact hless rfl
      | _ => exact (hplain _ (by decide)).1 rfl
    have hcloser : isCloser c = false := by
      refine Bool.eq_false_iff.mpr fun hcloser => ?_
      obtain ⟨b, rfl⟩ := Bracket.exists_closer hcloser
      cases b with
      | angle => exact hgreater rfl
      | _ => exact (hplain _ (by decide)).2 rfl
    simp [hopener, hcloser, hless, hgreater]

theorem count_groupsAfter (h : groupsAfter groups s = some after) :
    s.countP isOpener + groups.length + s.count '>'
      = s.countP isCloser + after.length + s.count '<' := by
  induction s generalizing groups with
  | nil =>
      obtain rfl := Option.some.inj h
      rfl
  | cons c s ih =>
      rw [groupsAfter_cons] at h
      obtain ⟨next, hnext, hrest⟩ := Option.bind_eq_some_iff.mp h
      have hfirst := count_groupStep hnext
      have hothers := ih hrest
      rw [← List.singleton_append, List.countP_append, List.countP_append, List.count_append,
        List.count_append]
      omega

theorem exists_groupsOpen (h : IsNested s) (n : Nat) :
    ∃ groups, groupsAfter [] (s.take n) = some groups ∧ groupsOpen s n = groups.length := by
  rw [IsNested, ← List.take_append_drop n s, groupsAfter_append] at h
  obtain ⟨groups, hgroups, -⟩ := Option.bind_eq_some_iff.mp h
  exact ⟨groups, hgroups, by rw [groupsOpen, hgroups]; rfl⟩

/-- Between two positions, angle signs apart, as many brackets are opened and not closed as groups. -/
theorem count_groupsOpen (h : IsNested s) {m n : Nat} (hle : m ≤ n) :
    (slice s m n).countP isOpener + groupsOpen s m + (slice s m n).count '>'
      = (slice s m n).countP isCloser + groupsOpen s n + (slice s m n).count '<' := by
  obtain ⟨before, hbefore, hm⟩ := exists_groupsOpen h m
  obtain ⟨behind, hbehind, hn⟩ := exists_groupsOpen h n
  have hsplit : s.take m ++ slice s m n = s.take n := by
    have htake := List.take_append_drop m (s.take n)
    rwa [List.take_take, Nat.min_eq_left hle] at htake
  rw [← hsplit, groupsAfter_append, hbefore, Option.bind_some] at hbehind
  rw [hm, hn]
  exact count_groupsAfter hbehind

/-- In a nested text the brackets are counted out where angle signs count the groups out. -/
theorem countedOut_iff (h : IsNested s) (n : Nat) :
    (s.take n).foldl depthStep 0 = 0 ↔ AnglesCountGroupsOut s n := by
  rw [foldl_depthStep_eq_zero_iff, Nat.zero_add,
    and_iff_right_of_imp fun hall => hall _ (List.suffix_refl _)]
  constructor
  · intro hall m hm
    have hcount := count_groupsOpen h hm
    have hle := hall (slice s m n) (List.drop_suffix m _)
    omega
  · intro hall t ht
    have hm : (s.take n).length - t.length ≤ n :=
      Nat.le_trans (Nat.sub_le _ _) (List.length_take_le n s)
    have hslice : slice s ((s.take n).length - t.length) n = t :=
      (List.suffix_iff_eq_drop.mp ht).symm
    have hcount := count_groupsOpen h hm
    have hle := hall _ hm
    rw [hslice] at hcount hle
    omega

end Groups

/-! ## Groups of the parts -/

section Parts

variable {separator : Char} {text : List Char}

/-- The first piece closes the groups that are open before it and those that it opens, and each other
piece those that it opens. -/
def PiecesClose (reading : Reading) (groups : List Bracket) : List (List Char) → Prop
  | [] => True
  | first :: rest => groupsAfter groups (outsideLiterals reading first) = some []
      ∧ ∀ piece ∈ rest, IsNested (outsideLiterals .code piece)

theorem piecesClose_code {list : List (List Char)} :
    PiecesClose .code [] list ↔ ∀ piece ∈ list, IsNested (outsideLiterals .code piece) := by
  cases list with
  | nil => exact iff_of_true trivial fun _ hpiece => absurd hpiece List.not_mem_nil
  | cons first rest =>
      rw [List.forall_mem_cons]
      exact Iff.rfl

/-- What the pieces close if a separator stands in front of them. -/
theorem piecesClose_nil_cons {groups : List Bracket} {list : List (List Char)} :
    PiecesClose .code groups ([] :: list) ↔ groups = [] ∧ PiecesClose .code [] list := by
  rw [piecesClose_code, PiecesClose]
  exact and_congr_left fun _ => Option.some_inj

/-- What the pieces close if a character is put in front of the first one. -/
theorem piecesClose_prepend {state : ListState} {groups next : List Bracket} {c : Char}
    {list : List (List Char)} (hlist : list ≠ [])
    (hnext : groupStep groups (if (state.reading.listStep c).1 then c else ' ') = some next) :
    PiecesClose state.reading groups (prepend [c] list)
      ↔ PiecesClose (state.step c).reading next list := by
  obtain ⟨first, rest, rfl⟩ := List.exists_cons_of_ne_nil hlist
  rw [prepend, PiecesClose, PiecesClose, List.singleton_append, outsideLiterals_cons, groupsAfter_cons,
    hnext, Option.bind_some]

/-- The pieces of a nested list close their groups if the list is split where no group is open. -/
theorem piecesClose_iff (hseparator : IsSeparator separator) {s : List Char} {state : ListState}
    {groups : List Bracket} (h : groupsAfter groups (outsideLiterals state.reading s) = some []) :
    PiecesClose state.reading groups (readPieces separator state s)
      ↔ ∀ n, IsCut separator (readPieces separator state s) n →
        groupsAfter groups ((outsideLiterals state.reading s).take n) = some [] := by
  induction s generalizing state groups with
  | nil =>
      refine iff_of_true ⟨h, fun _ hpiece => absurd hpiece List.not_mem_nil⟩ fun n hcut => ?_
      exact absurd hcut (not_isCut_singleton [])
  | cons c s ih =>
      rw [outsideLiterals_cons, groupsAfter_cons] at h
      obtain ⟨next, hnext, hrest⟩ := Option.bind_eq_some_iff.mp h
      have hfollowing : ∀ m, groupsAfter groups ((outsideLiterals state.reading (c :: s)).take (m + 1))
          = groupsAfter next ((outsideLiterals (state.step c).reading s).take m) := fun m => by
        rw [outsideLiterals_cons, List.take_succ_cons, groupsAfter_cons, hnext, Option.bind_some]
      have htail := ih hrest
      by_cases hsplit : c = separator ∧ state = top
      · obtain ⟨rfl, rfl⟩ := hsplit
        have hshown : (if (top.reading.listStep c).1 then c else ' ') = c := by
          simp [top, Reading.listStep, hseparator.notQuote]
        rw [hshown, groupStep_of_plain hseparator.notOpener hseparator.notCloser] at hnext
        obtain rfl := Option.some.inj hnext
        rw [step_separator hseparator] at hfollowing htail
        rw [readPieces_separator, forall_isCut_nil_cons (readPieces_ne_nil s)]
        have hnone : groupsAfter groups ((outsideLiterals top.reading (c :: s)).take 0) = some []
            ↔ groups = [] := Option.some_inj
        rw [hnone]
        refine piecesClose_nil_cons.trans (and_congr_right ?_)
        rintro rfl
        simp only [hfollowing]
        exact htail
      · rw [readPieces_of_not hsplit, forall_isCut_prepend c (readPieces_ne_nil s),
          piecesClose_prepend (readPieces_ne_nil s) hnext, htail]
        simp only [hfollowing]

theorem isBlank_of_mem_outsideLiterals {s : List Char} {reading : Reading} {c : Char} (h : IsGap s)
    (hc : c ∈ outsideLiterals reading s) : isBlank c = true := by
  induction s generalizing reading with
  | nil => exact absurd hc List.not_mem_nil
  | cons d s ih =>
      rcases List.mem_cons.mp hc with rfl | hc
      · split
        · exact h _ List.mem_cons_self
        · decide
      · exact ih (fun e he => h e (List.mem_cons_of_mem d he)) hc

/-- Blanks do not group, in literals or outside. -/
theorem groupsAfter_gap {s : List Char} (h : IsGap s) (reading : Reading) (groups : List Bracket) :
    groupsAfter groups (outsideLiterals reading s) = some groups :=
  groupsAfter_of_plain (fun _ hc => (plain_of_isBlank (isBlank_of_mem_outsideLiterals h hc)).2) groups

/-- Trimming a text leaves its groups as they are. -/
theorem isNested_trim_iff (s : List Char) :
    IsNested (outsideLiterals .code (trim s)) ↔ IsNested (outsideLiterals .code s) := by
  obtain ⟨front, back, hs, hfront, hback⟩ := exists_trim s
  have hshown : outsideLiterals .code s = outsideLiterals .code front
      ++ outsideLiterals .code (trim s) ++ outsideLiterals (top.after (front ++ trim s)).reading back := by
    have hfirst := outsideLiterals_append top front (trim s)
    have hall := outsideLiterals_append top (front ++ trim s) back
    rw [top, after_gap hfront] at hfirst
    rw [← hs] at hall
    exact hall.trans (congrArg (· ++ _) hfirst)
  rw [IsNested, IsNested, hshown, groupsAfter_append, groupsAfter_append, groupsAfter_gap hfront,
    Option.bind_some]
  cases groupsAfter [] (outsideLiterals .code (trim s)) with
  | none => exact Iff.rfl
  | some groups => rw [Option.bind_some, groupsAfter_gap hback]

/-- The parts of a nested list are nested if the list is split where no group is open. -/
theorem parts_nested_iff (hseparator : IsSeparator separator)
    (hnested : IsNested (outsideLiterals .code text)) :
    (∀ part ∈ partsAt separator text, IsNested (outsideLiterals .code part))
      ↔ ∀ n, SplitsAt separator text n → groupsOpen (outsideLiterals .code text) n = 0 := by
  have hparts : (∀ part ∈ partsAt separator text, IsNested (outsideLiterals .code part))
      ↔ ∀ piece ∈ pieces separator 0 text, IsNested (outsideLiterals .code piece) := by
    constructor
    · intro hall piece hpiece
      rw [← isNested_trim_iff]
      by_cases hempty : trim piece = []
      · rw [hempty]
        rfl
      · exact hall _ (List.mem_filter.mpr ⟨List.mem_map_of_mem hpiece, by simpa using hempty⟩)
    · intro hall part hpart
      obtain ⟨piece, hpiece, rfl⟩ := List.mem_map.mp (List.mem_filter.mp hpart).1
      exact (isNested_trim_iff piece).mpr (hall piece hpiece)
  have hzero : ∀ n, groupsAfter [] ((outsideLiterals .code text).take n) = some []
      ↔ groupsOpen (outsideLiterals .code text) n = 0 := by
    intro n
    obtain ⟨groups, hgroups, hopen⟩ := exists_groupsOpen hnested n
    rw [hgroups, hopen, List.length_eq_zero_iff, Option.some.injEq]
  have hcuts : PiecesClose .code [] (readPieces separator top text)
      ↔ ∀ n, IsCut separator (readPieces separator top text) n →
        groupsAfter [] ((outsideLiterals .code text).take n) = some [] :=
    piecesClose_iff hseparator hnested
  rw [hparts, ← piecesClose_code, pieces_eq_readPieces hseparator]
  refine hcuts.trans (forall_congr' fun n => ?_)
  rw [hzero, SplitsAt, pieces_eq_readPieces hseparator]
  exact Iff.rfl

/-- **Where lists are split.** A list whose groups are nested outside of its literals, whatever angle
signs it holds, is split at no separator in a literal, and at one outside of literals exactly if since
every earlier position the closing angle signs outnumber the opening ones by the groups that have been
opened and not closed. It is split outside of groups only exactly if angle signs count out the groups
of no separator in a group, and exactly then the groups of each part are nested. -/
theorem lists_are_split_outside_groups_iff (hseparator : IsSeparator separator)
    (hnested : IsNested (outsideLiterals .code text)) :
    (∀ n, SplitsAt separator text n ↔ (outsideLiterals .code text)[n]? = some separator
        ∧ AnglesCountGroupsOut (outsideLiterals .code text) n)
      ∧ ((∀ n, SplitsAt separator text n → groupsOpen (outsideLiterals .code text) n = 0)
        ↔ ∀ n, (outsideLiterals .code text)[n]? = some separator →
          0 < groupsOpen (outsideLiterals .code text) n →
          ¬AnglesCountGroupsOut (outsideLiterals .code text) n)
      ∧ ((∀ part ∈ partsAt separator text, IsNested (outsideLiterals .code part))
        ↔ ∀ n, SplitsAt separator text n → groupsOpen (outsideLiterals .code text) n = 0) := by
  have hsplits : ∀ n, SplitsAt separator text n
      ↔ (outsideLiterals .code text)[n]? = some separator
        ∧ AnglesCountGroupsOut (outsideLiterals .code text) n :=
    fun n => by rw [splitsAt_iff_outside hseparator, countedOut_iff hnested]
  refine ⟨hsplits, forall_congr' fun n => ?_, parts_nested_iff hseparator hnested⟩
  rw [hsplits]
  constructor
  · intro h hshown hopen hcounted
    have hzero := h ⟨hshown, hcounted⟩
    omega
  · rintro h ⟨hshown, hcounted⟩
    exact Nat.eq_zero_of_not_pos fun hopen => h hshown hopen hcounted

/-- A list with type arguments, a group and a literal. -/
def typedList : List Char :=
  "M<a, b>, (c, d), 'e, f'".toList

/-- A list with type arguments, a group and a literal is split between them, and neither in the type
arguments nor in the group or the literal. -/
theorem typedList_is_split_between :
    IsSeparator ',' ∧ IsNested (outsideLiterals .code typedList)
      ∧ SplitsAt ',' typedList 7 ∧ SplitsAt ',' typedList 15
      ∧ ¬SplitsAt ',' typedList 3 ∧ ¬SplitsAt ',' typedList 11 ∧ ¬SplitsAt ',' typedList 19 := by
  have hnested : IsNested (outsideLiterals .code typedList) := by decide
  have hsplits := (lists_are_split_outside_groups_iff isSeparator_comma hnested).1
  exact ⟨isSeparator_comma, hnested, (hsplits 7).mpr (by decide), (hsplits 15).mpr (by decide),
    mt (hsplits 3).mp (by decide), mt (hsplits 11).mp (by decide), mt (hsplits 19).mp (by decide)⟩

/-- A comparison in a group. -/
def comparedList : List Char :=
  "(a > b, c)".toList

/-- A comparison counts the group around it out: the list is split in the group, and its parts do not
close their groups. -/
theorem comparison_splits_its_group :
    IsSeparator ',' ∧ IsNested (outsideLiterals .code comparedList)
      ∧ SplitsAt ',' comparedList 6 ∧ groupsOpen (outsideLiterals .code comparedList) 6 = 1
      ∧ partsAt ',' comparedList = ["(a > b".toList, "c)".toList]
      ∧ ¬IsNested (outsideLiterals .code "(a > b".toList) := by
  refine ⟨isSeparator_comma, by decide, (splitsAt_iff_after isSeparator_comma).mpr (by decide),
    by decide, ?_, by decide⟩
  rw [partsAt, pieces_eq_readPieces isSeparator_comma]
  decide

end Parts

end ServiceMap.Source
