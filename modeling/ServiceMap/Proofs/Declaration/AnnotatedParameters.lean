import ServiceMap.Proofs.Declaration.JavaParameters
import ServiceMap.Proofs.Source.Annotations

/-!
# Annotated parameters

Parameters with annotations before them, and what is read of them. The annotations are read with regard
to brackets and literals, but they are taken out of the text by a pattern that ends at the first
closing parenthesis. Both agree exactly where no argument of an annotation holds such a parenthesis;
anywhere else what is left of the annotation is read as part of the type.
-/

namespace ServiceMap.Declaration

open Text Source Pattern

/-! ## What is taken out -/

section Mark

variable {new name gap inside inner rest r : List Char}

theorem takesFirst_callGroup {limit : Nat} {p : Place}
    (htext : p.rest = gap ++ ('(' :: (inside ++ ')' :: rest))) (hgap : IsGap gap)
    (hinside : ')' ∉ inside) :
    (blanks ++ lit "(" ++ many (· != ')') ++ lit ")").TakesFirst limit p
      (gap ++ "(".toList ++ inside ++ ")".toList) rest [] := by
  have hblanks : blanks.TakesFirst limit p gap ('(' :: (inside ++ ')' :: rest)) [] :=
    takesFirst_many htext hgap fun c hc => Option.some.inj hc ▸ rfl
  have hopen : (lit "(").TakesFirst limit (p.after gap ('(' :: (inside ++ ')' :: rest)) []) "(".toList
      (inside ++ ')' :: rest) [] := takesFirst_lit rfl
  have hmany : ∀ {q : Place}, q.rest = inside ++ ')' :: rest →
      (many (· != ')')).TakesFirst limit q inside (')' :: rest) [] := fun hq =>
    takesFirst_many hq (fun c hc => bne_iff_ne.mpr fun heq => hinside (heq ▸ hc))
      fun c hc => by rw [← Option.some.inj hc]; decide
  exact ((hblanks.append hopen).append (hmany rfl)).append (takesFirst_lit rfl)

/-- A name at an at sign is taken out, with the text up to the first closing parenthesis if a
parenthesis follows. -/
theorem leaves_call (hne : name ≠ []) (hname : ∀ c ∈ name, isDottedWord c = true) (hgap : IsGap gap)
    (hinside : ')' ∉ inside) (h : Leaves parameterMark new rest r) :
    Leaves parameterMark new ('@' :: (name ++ (gap ++ '(' :: (inside ++ ')' :: rest)))) (new ++ r) := by
  let group := gap ++ "(".toList ++ inside ++ ")".toList
  have hgroup : gap ++ '(' :: (inside ++ ')' :: rest) = group ++ rest := by simp [group]
  have hends : ∀ c ∈ (group ++ rest).head?, isDottedWord c = false := by
    rw [← hgroup]
    exact AnnotationUse.nameEnds_of_isGap hgap fun _ c hc => Option.some.inj hc ▸ rfl
  have htaken : '@' :: (name ++ (gap ++ '(' :: (inside ++ ')' :: rest)))
      = "@".toList ++ name ++ group ++ rest := by
    rw [hgroup]
    simp
  rw [htaken]
  refine Leaves.replace_first (by simp) (fun limit before index => ⟨[], ?_⟩) h
  have hat : (lit "@").TakesFirst limit ⟨before, "@".toList ++ name ++ group ++ rest, index, []⟩
      "@".toList (name ++ (group ++ rest)) [] := takesFirst_lit (by simp)
  have hword : ∀ {q : Place}, q.rest = name ++ (group ++ rest) →
      dottedWord.TakesFirst limit q name (group ++ rest) [] :=
    fun hq => takesFirst_many1 hq hne hname hends
  exact (hat.append (hword rfl)).append (takesFirst_callGroup hgroup.symm hgap hinside).opt

theorem leaves_bare (hne : name ≠ []) (hname : ∀ c ∈ name, isDottedWord c = true)
    (hfollows : AnnotationUse.Follows rest) (h : Leaves parameterMark new rest r) :
    Leaves parameterMark new ('@' :: (name ++ rest)) (new ++ r) := by
  have htaken : '@' :: (name ++ rest) = "@".toList ++ name ++ [] ++ rest := by simp
  rw [htaken]
  refine Leaves.replace_first (by simp) (fun limit before index => ⟨[], ?_⟩) h
  have hat : (lit "@").TakesFirst limit ⟨before, "@".toList ++ name ++ [] ++ rest, index, []⟩
      "@".toList (name ++ rest) [] := takesFirst_lit (by simp)
  have hword : ∀ {q : Place}, q.rest = name ++ rest →
      dottedWord.TakesFirst limit q name rest [] :=
    fun hq => takesFirst_many1 hq hne hname hfollows.1
  have hcall : ∀ {q : Place}, q.rest = rest →
      (blanks ++ lit "(" ++ many (· != ')') ++ lit ")").Fails limit q := by
    intro q hq
    obtain ⟨-, gap, more, hmore, hgap, hhead⟩ := hfollows
    refine fails_of_not_takes ?_
    rintro _ after htext ⟨_, close, rfl, ⟨_, inside, rfl, ⟨blank, _, rfl, hblank, hopen⟩, -⟩, -⟩
    rw [takes_lit.mp hopen, hq, hmore, List.append_assoc, List.append_assoc, List.append_assoc] at htext
    -- both texts start with blanks, and behind them only one has a parenthesis
    have hend : ∀ c ∈ ("(".toList ++ (inside ++ (close ++ after))).head?, isBlank c = false :=
      forall_head?_append (by simp) (forall_mem_of_all (by decide)) _
    obtain ⟨-, hparenthesis⟩ := append_inj_of_span (fun c hc => (hhead c hc).1) hend gap hgap
      (takes_many.mp hblank) htext
    exact (hhead '(' (by rw [hparenthesis]; rfl)).2 rfl
  exact (hat.append (hword rfl)).append (hcall rfl).opt

theorem leaves_nameless (hends : ∀ c ∈ rest.head?, isDottedWord c = false)
    (h : Leaves parameterMark new rest r) : Leaves parameterMark new ('@' :: rest) ('@' :: r) := by
  refine h.skip fun limit before index => Option.eq_none_iff_forall_ne_some.mpr fun m hm => ?_
  obtain ⟨_, more, htext, ⟨_, arguments, rfl, ⟨_, name, rfl, hmark, hname⟩, -⟩, -⟩ :=
    takes_of_matchHere? hm
  obtain ⟨hne, hwords⟩ := takes_many1.mp hname
  obtain ⟨c, s, rfl⟩ := List.exists_cons_of_ne_nil hne
  rw [takes_lit.mp hmark] at htext
  obtain ⟨-, rfl⟩ := List.cons.inj htext
  exact Bool.false_ne_true ((hends c rfl).symm.trans (hwords c List.mem_cons_self))

end Mark

/-! ## What is left of arguments -/

/-- Behind each at sign that looks like an annotation with arguments there is a closing parenthesis. -/
def ClosesCalls (s : List Char) : Prop :=
  ∀ front name gap back, s = front ++ '@' :: (name ++ (gap ++ '(' :: back)) → name ≠ [] →
    (∀ c ∈ name, isDottedWord c = true) → IsGap gap → ')' ∈ back

theorem ClosesCalls.of_suffix {s t : List Char} (h : ClosesCalls s) (ht : t <:+ s) :
    ClosesCalls t := by
  obtain ⟨u, rfl⟩ := ht
  exact fun front name gap back ht => h (u ++ front) name gap back (by rw [ht, List.append_assoc])

/-- What is left before a declaration: nothing or a text that ends with a blank, or else one that
holds a closing parenthesis. -/
def IsParted (left : List Char) : Prop :=
  ')' ∈ left ∨ ∀ c ∈ left.getLast?, isBlank c = true

theorem IsParted.append {s t : List Char} (hs : IsParted s) (ht : IsParted t) : IsParted (s ++ t) := by
  rcases hs with hs | hs
  · exact Or.inl (List.mem_append_left t hs)
  · rcases ht with ht | ht
    · exact Or.inl (List.mem_append_right s ht)
    · exact Or.inr fun c hc => (mem_getLast?_append hc).elim (ht c) (hs c)

theorem isParted_of_isGap {gap : List Char} (h : IsGap gap) : IsParted gap :=
  Or.inr fun c hc => h c (List.mem_of_getLast? hc)

theorem isParted_flatten {texts : List (List Char)} (h : ∀ s ∈ texts, IsParted s) :
    IsParted texts.flatten := by
  induction texts with
  | nil => exact isParted_of_isGap isGap_nil
  | cons s texts ih =>
      exact (h s List.mem_cons_self).append (ih fun t ht => h t (List.mem_cons_of_mem s ht))

theorem IsParted.cons {s : List Char} (hs : IsParted s) (hne : s ≠ []) (c : Char) :
    IsParted (c :: s) := by
  obtain ⟨d, s, rfl⟩ := List.exists_cons_of_ne_nil hne
  exact hs.imp (List.mem_cons_of_mem c) fun h e he => h e (by rwa [List.getLast?_cons_cons] at he)

/-- What holds of the first character of a text and of a character behind it. -/
theorem forall_head?_append_cons {p : Char → Prop} {s : List Char} {d : Char}
    (hs : ∀ c ∈ s.head?, p c) (hd : p d) (t : List Char) : ∀ c ∈ (s ++ d :: t).head?, p c := by
  cases s with
  | nil => exact fun c hc => Option.some.inj hc ▸ hd
  | cons e s => exact fun c hc => hs c hc

/-- What is left of a text and the closing parenthesis behind it, before what is left of the text after
them. The parenthesis is left unless it is the first one behind an at sign of the text. -/
def GroupLeaves (t l s : List Char) : Prop :=
  ∃ left, Leaves parameterMark [' '] (s ++ ')' :: t) (left ++ l) ∧ left ≠ [] ∧ IsParted left
    ∧ (ClosesCalls s → ')' ∈ left)

namespace GroupLeaves

variable {t l s : List Char}

theorem keep (c : Char) (h : GroupLeaves t l s)
    (hkeep : ∀ r, Leaves parameterMark [' '] (s ++ ')' :: t) r →
      Leaves parameterMark [' '] (c :: (s ++ ')' :: t)) (c :: r)) : GroupLeaves t l (c :: s) := by
  obtain ⟨left, hleft, hne, hparted, hclosed⟩ := h
  exact ⟨c :: left, hkeep _ hleft, List.cons_ne_nil _ _, hparted.cons hne c,
    fun h => List.mem_cons_of_mem c (hclosed (h.of_suffix (List.suffix_cons c s)))⟩

theorem takeOut (front : List Char) (h : GroupLeaves t l s)
    (htake : ∀ r, Leaves parameterMark [' '] (s ++ ')' :: t) r →
      Leaves parameterMark [' '] (front ++ (s ++ ')' :: t)) ([' '] ++ r)) :
    GroupLeaves t l (front ++ s) := by
  obtain ⟨left, hleft, -, hparted, hclosed⟩ := h
  refine ⟨[' '] ++ left, ?_, List.cons_ne_nil _ _,
    (isParted_of_isGap (by decide : IsGap [' '])).append hparted, fun h => ?_⟩
  · rw [List.append_assoc, List.append_assoc]
    exact htake _ hleft
  · exact List.mem_cons_of_mem _ (hclosed (h.of_suffix (List.suffix_append front s)))

theorem nil (ht : Leaves parameterMark [' '] t l) : GroupLeaves t l [] := by
  have hmem : ')' ∈ [')'] := List.mem_singleton.mpr rfl
  exact ⟨[')'], startsWith_parameterMark.leaves_cons (by decide) ht, List.cons_ne_nil _ _,
    Or.inl hmem, fun _ => hmem⟩

section Mark

variable {name gap inside rest : List Char}

theorem nameless (h : GroupLeaves t l s) (hends : ∀ c ∈ s.head?, isDottedWord c = false) :
    GroupLeaves t l ('@' :: s) :=
  h.keep '@' fun _ => leaves_nameless (forall_head?_append_cons hends (by decide) t)

/-- The first closing parenthesis behind the at sign is one of the text. -/
theorem call (h : GroupLeaves t l s) (hne : name ≠ [])
    (hname : ∀ c ∈ name, isDottedWord c = true) (hgap : IsGap gap) (hinside : ')' ∉ inside) :
    GroupLeaves t l ('@' :: (name ++ (gap ++ '(' :: (inside ++ ')' :: s)))) := by
  have htext : '@' :: (name ++ (gap ++ '(' :: (inside ++ ')' :: s)))
      = ('@' :: (name ++ (gap ++ '(' :: (inside ++ [')'])))) ++ s := by simp
  rw [htext]
  refine h.takeOut _ fun r hr => ?_
  simpa using leaves_call hne hname hgap hinside hr

/-- It is the one behind the text. -/
theorem openCall (ht : Leaves parameterMark [' '] t l) (hne : name ≠ [])
    (hname : ∀ c ∈ name, isDottedWord c = true) (hgap : IsGap gap) (hinside : ')' ∉ inside) :
    GroupLeaves t l ('@' :: (name ++ (gap ++ '(' :: inside))) := by
  refine ⟨[' '], ?_, List.cons_ne_nil _ _, isParted_of_isGap (by decide), fun h => ?_⟩
  · simpa using leaves_call hne hname hgap hinside ht
  · exact absurd (h [] name gap inside rfl hne hname hgap) hinside

/-- A name without arguments. -/
theorem bare (h : GroupLeaves t l (gap ++ rest)) (hne : name ≠ [])
    (hname : ∀ c ∈ name, isDottedWord c = true) (hgap : IsGap gap)
    (hends : ∀ c ∈ rest.head?, isBlank c = false ∧ c ≠ '(')
    (hword : gap = [] → ∀ c ∈ rest.head?, isDottedWord c = false) :
    GroupLeaves t l ('@' :: (name ++ (gap ++ rest))) := by
  have hfollows : AnnotationUse.Follows (gap ++ (rest ++ ')' :: t)) :=
    AnnotationUse.follows_append hgap (forall_head?_append_cons hends (by decide) t)
      fun hempty => forall_head?_append_cons (hword hempty) (by decide) t
  refine h.takeOut ('@' :: name) fun r hr => ?_
  rw [List.append_assoc] at hr ⊢
  exact leaves_bare hne hname hfollows hr

end Mark

end GroupLeaves

theorem groupLeaves {t l : List Char} (ht : Leaves parameterMark [' '] t l) (s : List Char) :
    GroupLeaves t l s := by
  cases s with
  | nil => exact .nil ht
  | cons c s =>
      by_cases hc : c = '@'
      · subst hc
        obtain ⟨name, gap, rest, hsplit⟩ := exists_nameSplit s
        by_cases hname : name = []
        · refine (groupLeaves ht s).nameless ?_
          rw [hsplit.text, hname]
          exact hsplit.nameEnds
        · have htext := hsplit.text
          by_cases hcall : rest.head? = some '('
          · obtain ⟨inner, rfl⟩ := List.head?_eq_some_iff.mp hcall
            by_cases hinner : ')' ∈ inner
            · obtain ⟨inside, more, rfl, hinside⟩ := List.eq_append_cons_of_mem hinner
              rw [htext]
              exact (groupLeaves ht more).call hname hsplit.ofName hsplit.ofGap hinside
            · rw [htext]
              exact .openCall ht hname hsplit.ofName hsplit.ofGap hinner
          · rw [htext]
            refine (groupLeaves ht (gap ++ rest)).bare hname hsplit.ofName hsplit.ofGap
              (fun c hc => ⟨hsplit.gapEnds c hc, fun heq => hcall (heq ▸ hc)⟩) ?_
            rintro rfl
            exact hsplit.nameEnds
      · exact (groupLeaves ht s).keep c fun r => startsWith_parameterMark.leaves_cons hc
termination_by s.length
decreasing_by
  · exact Nat.lt_succ_self _
  · have hlength := congrArg List.length htext
    simp only [List.length_cons, List.length_append] at hlength ⊢
    omega
  · have hlength := congrArg List.length htext
    have hlonger := List.length_pos_of_ne_nil hname
    simp only [List.length_cons, List.length_append] at hlength ⊢
    omega
  · exact Nat.lt_succ_self _

/-! ## What is left of annotations -/

/-- No argument of an annotation holds a closing parenthesis, within literals or outside of them. -/
def HasFlatArguments (a : AnnotationUse) : Prop :=
  ∀ arguments ∈ a.arguments, ')' ∉ written arguments.stretches

/-- No literal of an annotation holds both an at sign and an opening parenthesis. -/
def HasPlainLiterals (a : AnnotationUse) : Prop :=
  ∀ arguments ∈ a.arguments, ∀ stretch ∈ arguments.stretches,
    '@' ∉ stretch.content ∨ '(' ∉ stretch.content

theorem isLabel_of_name {name gap : List Char} (hname : ∀ c ∈ name, isDottedWord c = true)
    (hgap : IsGap gap) : IsLabel (name ++ gap) :=
  IsLabel.append (fun c hc => Or.inl (hname c hc)) hgap.isLabel

/-- Arguments with plain literals close what looks like an annotation in them. -/
theorem closesCalls_of_plain (a : AnnotationArguments)
    (h : ∀ stretch ∈ a.stretches, '@' ∉ stretch.content ∨ '(' ∉ stretch.content) :
    ClosesCalls (written a.stretches) := by
  intro front name gap back htext _ hname hgap
  have hlabel := isLabel_of_name hname hgap
  rw [← List.append_assoc] at htext
  rcases split_written_cons (by decide) htext with ⟨before, after, hstretches, -, hafter⟩
    | ⟨before, quote, content, hquote, hcontent, after, x, y, hstretches, hx, hrest⟩
  · have hbalanced : Bracket.round.IsBalanced
        (shown ((before ++ [.code '@' (by decide)]) ++ after)) := by
      rw [List.append_assoc]
      exact hstretches ▸ a.balanced
    obtain ⟨first, last, rfl, -⟩ := AnnotationArguments.exists_closer_of_code _ after hbalanced
      (fun c hc => (plain_of_label hlabel hc).1) hafter
    exact List.mem_append_right _ List.mem_cons_self
  · -- the at sign and the parenthesis would be in one literal
    obtain ⟨more, rfl, -⟩ := AnnotationArguments.split_literal_of_label hquote hlabel hrest
    have hmem : Stretch.literal quote content hquote hcontent ∈ a.stretches := by
      rw [hstretches]
      exact List.mem_append_right before List.mem_cons_self
    rcases h _ hmem with hat | hopen
    · exact absurd (by rw [Stretch.content, hx]; simp) hat
    · exact absurd (by rw [Stretch.content, hx]; simp) hopen

theorem leaves_flat_mark {a : AnnotationUse} (hflat : HasFlatArguments a) {t l : List Char}
    (hfollows : a.arguments = none → AnnotationUse.Follows t)
    (h : Leaves parameterMark [' '] t l) :
    Leaves parameterMark [' '] (a.print ++ t) ([' '] ++ l) := by
  have hne := List.cons_ne_nil a.initial a.name
  rw [AnnotationUse.print]
  cases harguments : a.arguments with
  | none =>
      have htaken := leaves_bare hne a.isDottedWord_name (hfollows harguments) h
      simpa using htaken
  | some arguments =>
      have htaken := leaves_call hne a.isDottedWord_name arguments.ofGap
        (hflat arguments harguments) h
      simpa [AnnotationArguments.print] using htaken

/-- Something is left of an annotation with a closing parenthesis among its arguments. -/
theorem exists_leaves_nested_mark {a : AnnotationUse} (hnested : ¬HasFlatArguments a)
    {t l : List Char} (h : Leaves parameterMark [' '] t l) :
    ∃ left, Leaves parameterMark [' '] (a.print ++ t) (left ++ l) ∧ IsParted left
      ∧ (HasPlainLiterals a → ')' ∈ left) := by
  obtain ⟨arguments, harguments, hcloser⟩ : ∃ arguments ∈ a.arguments,
      ')' ∈ written arguments.stretches := by
    simpa [HasFlatArguments] using hnested
  obtain ⟨inside, more, hwritten, hinside⟩ := List.eq_append_cons_of_mem hcloser
  obtain ⟨left, hleft, -, hparted, hclosed⟩ := groupLeaves h more
  have htaken := leaves_call (List.cons_ne_nil a.initial a.name) a.isDottedWord_name arguments.ofGap
    hinside hleft
  refine ⟨[' '] ++ left, ?_, (isParted_of_isGap (by decide : IsGap [' '])).append hparted,
    fun hplain => ?_⟩
  · rw [AnnotationUse.print, harguments]
    simpa [AnnotationArguments.print, hwritten] using htaken
  · have hcalls := closesCalls_of_plain arguments (hplain arguments harguments)
    refine List.mem_cons_of_mem _ (hclosed (hcalls.of_suffix ⟨inside ++ [')'], ?_⟩))
    rw [hwritten, List.append_assoc]
    rfl

/-- What may be left of an annotation and the blanks behind it: nothing but blanks if its arguments are
flat, else a closing parenthesis if its literals are plain. -/
structure IsLeftOf (entry : AnnotationUse × List Char) (left : List Char) : Prop where
  parted : IsParted left
  gap : HasFlatArguments entry.1 → IsGap left
  closer : ¬HasFlatArguments entry.1 → HasPlainLiterals entry.1 → ')' ∈ left

theorem exists_isLeftOf {entry : AnnotationUse × List Char} {t l : List Char} (hgap : IsGap entry.2)
    (hfollows : entry.1.arguments = none → AnnotationUse.Follows (entry.2 ++ t))
    (h : Leaves parameterMark [' '] t l) :
    ∃ left, Leaves parameterMark [' '] ((entry.1.print ++ entry.2) ++ t) (left ++ l)
      ∧ IsLeftOf entry left := by
  have hafter : Leaves parameterMark [' '] (entry.2 ++ t) (entry.2 ++ l) :=
    startsWith_parameterMark.leaves_append (hgap.not_mem (by decide)) h
  by_cases hflat : HasFlatArguments entry.1
  · have hblank : IsGap ([' '] ++ entry.2) :=
      List.forall_mem_append.mpr ⟨(by decide : IsGap [' ']), hgap⟩
    refine ⟨[' '] ++ entry.2, ?_, isParted_of_isGap hblank, fun _ => hblank,
      fun hnot => absurd hflat hnot⟩
    rw [List.append_assoc, List.append_assoc]
    exact leaves_flat_mark hflat hfollows hafter
  · obtain ⟨left, hleft, hparted, hcloser⟩ := exists_leaves_nested_mark hflat hafter
    refine ⟨left ++ entry.2, ?_, hparted.append (isParted_of_isGap hgap),
      fun hflat' => absurd hflat' hflat, fun _ hplain => List.mem_append_left _ (hcloser hplain)⟩
    rw [List.append_assoc, List.append_assoc]
    exact hleft

/-- **What is left of annotations.** Nothing but blanks is left of annotations with flat arguments. A
closing parenthesis is left of any other, if its literals are plain. -/
theorem exists_leaves_annotations {t l : List Char} (h : Leaves parameterMark [' '] t l)
    (ht : ∀ c ∈ t.head?, isBlank c = false ∧ c ≠ '(')
    {annotations : List (AnnotationUse × List Char)} (hgaps : ∀ entry ∈ annotations, IsGap entry.2)
    (hparted : ∀ entry ∈ annotations, entry.1.arguments = none → entry.2 ≠ []) :
    ∃ left, Leaves parameterMark [' ']
        ((annotations.flatMap fun entry => entry.1.print ++ entry.2) ++ t) (left ++ l)
      ∧ IsParted left
      ∧ ((∀ entry ∈ annotations, HasFlatArguments entry.1) → IsGap left)
      ∧ ((∃ entry ∈ annotations, ¬HasFlatArguments entry.1 ∧ HasPlainLiterals entry.1) →
        ')' ∈ left) := by
  obtain ⟨lefts, hlefts, hof, hall⟩ :=
    exists_leaves_flatMap IsLeftOf annotations h fun entry hentry others rest hrest => by
      refine exists_isLeftOf (hgaps entry hentry) (fun hnone => ?_) hrest
      refine AnnotationUse.follows_append (hgaps entry hentry) (fun c hc => ?_)
        fun hnil => absurd hnil (hparted entry hentry hnone)
      exact (head?_annotations others t c hc).elim (fun heq => heq ▸ ⟨rfl, by decide⟩) (ht c)
  refine ⟨lefts.flatten, hlefts, isParted_flatten fun left hleft => ?_, fun hflat c hc => ?_, ?_⟩
  · obtain ⟨entry, -, hentry⟩ := hof left hleft
    exact hentry.parted
  · obtain ⟨left, hleft, hc⟩ := List.mem_flatten.mp hc
    obtain ⟨entry, hmem, hentry⟩ := hof left hleft
    exact hentry.gap (hflat entry hmem) c hc
  · rintro ⟨entry, hmem, hnested, hplain⟩
    obtain ⟨left, hleft, hentry⟩ := hall entry hmem
    exact List.mem_flatten.mpr ⟨left, hleft, hentry.closer hnested hplain⟩

/-! ## Parts of lists -/

theorem isTrimmed_mark (a : AnnotationUse) : IsTrimmed a.print := by
  have hname := no_blank_of_name (isDottedWord_of_isNameStart a.ofInitial) a.ofName
  rw [AnnotationUse.print]
  cases a.arguments with
  | none =>
      rw [Option.map_none, Option.getD_none, List.append_nil]
      exact isTrimmed_word ⟨List.cons_ne_nil _ _, hname⟩
  | some arguments =>
      have htext : '@' :: a.initial :: (a.name ++ arguments.print)
          = '@' :: ((a.initial :: (a.name ++ (arguments.gap
            ++ '(' :: written arguments.stretches))) ++ [')']) := by
        simp [AnnotationArguments.print]
      rw [Option.map_some, Option.getD_some, htext]
      exact isTrimmed_enclosed _ (by decide) (by decide)

theorem staysWhole_mark {a : AnnotationUse} (hbalanced : ∀ arguments ∈ a.arguments,
    ∀ b : Bracket, b.IsBalanced (shown arguments.stretches)) : StaysWhole ',' 0 0 a.print := by
  have hat : StaysWhole ',' 0 0 ['@'] := staysWhole_plain (forall_mem_of_all (by decide))
  have hname : StaysWhole ',' 0 0 (a.initial :: a.name) :=
    staysWhole_label fun c hc => Or.inl (a.isDottedWord_name c hc)
  have harguments : StaysWhole ',' 0 0 ((a.arguments.map AnnotationArguments.print).getD []) := by
    cases harguments : a.arguments with
    | none => exact staysWhole_nil
    | some arguments =>
        have hinside : StaysWhole ',' 1 0 (written arguments.stretches) :=
          staysWhole_written (hbalanced arguments harguments)
        exact (staysWhole_label arguments.ofGap.isLabel).append (hinside.group .round)
          (Nat.le_refl 0)
  exact hat.append (hname.append harguments (Nat.le_refl 0)) (Nat.le_refl 0)

theorem staysWhole_annotations {annotations : List (AnnotationUse × List Char)}
    (hgaps : ∀ entry ∈ annotations, IsGap entry.2)
    (hbalanced : ∀ entry ∈ annotations, ∀ arguments ∈ entry.1.arguments,
      ∀ b : Bracket, b.IsBalanced (shown arguments.stretches)) :
    StaysWhole ',' 0 0 (annotations.flatMap fun entry => entry.1.print ++ entry.2) := by
  induction annotations with
  | nil => exact staysWhole_nil
  | cons entry annotations ih =>
      have hfirst := (staysWhole_mark (hbalanced entry List.mem_cons_self)).append
        (staysWhole_label (hgaps entry List.mem_cons_self).isLabel) (Nat.le_refl 0)
      have hothers := ih (fun other hother => hgaps other (List.mem_cons_of_mem entry hother))
        fun other hother => hbalanced other (List.mem_cons_of_mem entry hother)
      exact hfirst.append hothers (Nat.le_refl 0)

/-! ## Parameters -/

/-- A parameter with annotations, each with the blanks behind it, perhaps the word `final` with the blanks
behind it, and a type and a name. Outside of literals the arguments of the annotations are balanced in
every kind of bracket. -/
structure AnnotatedParameter where
  annotations : List (AnnotationUse × List Char)
  ofGaps : ∀ entry ∈ annotations, IsGap entry.2
  parted : ∀ entry ∈ annotations, entry.1.arguments = none → entry.2 ≠ []
  balanced : ∀ entry ∈ annotations, ∀ arguments ∈ entry.1.arguments,
    ∀ b : Bracket, b.IsBalanced (shown arguments.stretches)
  finalGap : Option (List Char)
  ofFinalGap : ∀ gap ∈ finalGap, IsGap gap ∧ gap ≠ []
  declared : TypedName
  noMarks : ∀ c ∈ declared.type, c ≠ '@' ∧ c ≠ '(' ∧ c ≠ ')'
  notFinal : "final".toList ∉ words declared.type ++ [declared.name]

namespace AnnotatedParameter

variable (p : AnnotatedParameter)

/-- What stands before the type. -/
def modifier : List Char :=
  (p.finalGap.map ("final".toList ++ ·)).getD []

def declaration : List Char :=
  p.modifier ++ p.declared.print

def print : List Char :=
  (p.annotations.flatMap fun entry => entry.1.print ++ entry.2) ++ p.declaration

/-- The annotations, with their blanks collapsed. -/
def collapsed : List (List Char) :=
  p.annotations.map fun entry => collapseBlanks entry.1.print

theorem isTrimmed_declaration : IsTrimmed p.declaration := by
  rw [declaration, modifier]
  cases p.finalGap with
  | none => exact p.declared.isTrimmed_print
  | some gap =>
      have hfinal : IsTrimmed "final".toList := isTrimmed_word ⟨by decide, forall_mem_of_all (by decide)⟩
      exact hfinal.around gap p.declared.isTrimmed_print

theorem head_declaration : ∀ c ∈ p.declaration.head?, isBlank c = false ∧ c ≠ '(' := by
  intro c hc
  refine ⟨p.isTrimmed_declaration.head c hc, ?_⟩
  rw [declaration, modifier] at hc
  cases hgap : p.finalGap with
  | some gap =>
      rw [hgap] at hc
      obtain rfl := Option.some.inj hc
      decide
  | none =>
      rw [hgap, Option.map_none, Option.getD_none, List.nil_append, TypedName.print,
        List.head?_append_of_ne_nil _ p.declared.trimmed.nonempty] at hc
      exact (p.noMarks c (List.mem_of_head? hc)).2.1

theorem not_mem_modifier {c : Char} (hblank : isBlank c = false) (hfinal : c ∉ "final".toList) :
    c ∉ p.modifier := by
  rw [modifier]
  cases hgap : p.finalGap with
  | none => exact List.not_mem_nil
  | some gap =>
      intro hc
      rcases List.mem_append.mp hc with hc | hc
      · exact hfinal hc
      · exact (p.ofFinalGap gap hgap).1.not_mem hblank hc

theorem at_not_mem_declaration : '@' ∉ p.declaration := by
  intro hat
  rcases List.mem_append.mp hat with hat | hat
  · exact p.not_mem_modifier (by decide) (by decide) hat
  · rcases List.mem_append.mp hat with hat | hat
    · exact (p.noMarks '@' hat).1 rfl
    · exact p.declared.isLabel_gap_name.ne hat (by decide) rfl

/-! ### One part of a list -/

theorem isTrimmed_print : IsTrimmed p.print := by
  rw [print]
  induction p.annotations with
  | nil => exact p.isTrimmed_declaration
  | cons entry annotations ih =>
      rw [List.flatMap_cons, List.append_assoc]
      exact (isTrimmed_mark entry.1).around entry.2 ih

theorem staysWhole_print : StaysWhole ',' 0 0 p.print := by
  have hmodifier : StaysWhole ',' 0 0 p.modifier := by
    rw [modifier]
    cases hgap : p.finalGap with
    | none => exact staysWhole_nil
    | some gap =>
        exact staysWhole_label (isLabel_of_name (forall_mem_of_all (by decide))
          (p.ofFinalGap gap hgap).1)
  exact (staysWhole_annotations p.ofGaps p.balanced).append
    (hmodifier.append p.declared.staysWhole_print (Nat.le_refl 0)) (Nat.le_refl 0)

/-! ### What is read -/

theorem readAnnotations_print (hsealed : ∀ entry ∈ p.annotations, entry.1.IsSealed) :
    readAnnotations p.print = .ok (p.collapsed.foldl addUnlessPart []) := by
  rw [readAnnotations_eq, dropNested_eq, print, foldl_readTexts_append p.at_not_mem_declaration
    p.head_declaration (fun entry hentry => ⟨p.ofGaps entry hentry, hsealed entry hentry⟩)
    fun entry hentry hnone hnil => absurd hnil (p.parted entry hentry hnone)]
  rfl

/-- The words of the declaration without `final`, behind what is left of the annotations. -/
def typeWords (left : List Char) : List (List Char) :=
  (words (left ++ (p.modifier ++ p.declared.type))).filter (· != "final".toList)

theorem filter_words_declaration (left : List Char) :
    (words (left ++ p.declaration)).filter (· != "final".toList)
      = p.typeWords left ++ [p.declared.name] := by
  have hname : [p.declared.name].filter (· != "final".toList) = [p.declared.name] := by
    refine List.filter_eq_self.mpr fun w hw => bne_iff_ne.mpr fun heq => p.notFinal ?_
    exact heq ▸ List.mem_append_right _ hw
  rw [declaration, ← List.append_assoc, p.declared.words_append_print, List.filter_append, hname,
    List.append_assoc]
  rfl

theorem typeWords_nil : p.typeWords [] = words p.declared.type := by
  have htype : (words p.declared.type).filter (· != "final".toList) = words p.declared.type :=
    List.filter_eq_self.mpr fun w hw =>
      bne_iff_ne.mpr fun heq => p.notFinal (heq ▸ List.mem_append_left _ hw)
  rw [typeWords, List.nil_append, modifier]
  cases hgap : p.finalGap with
  | none => exact htype
  | some gap =>
      obtain ⟨hblank, hne⟩ := p.ofFinalGap gap hgap
      have hfinal : words "final".toList = ["final".toList] :=
        runs_of_all_not (by decide) (forall_mem_of_all (by decide))
      show (words (("final".toList ++ gap) ++ p.declared.type)).filter _ = _
      rw [List.append_assoc, words_append_gap hblank hne, hfinal, List.filter_append, htype]
      rfl

theorem typeWords_of_gap {left : List Char} (h : IsGap left) :
    p.typeWords left = words p.declared.type := by
  rw [typeWords, words_gap_append h]
  exact p.typeWords_nil

theorem exists_typeWord {left : List Char} (h : ')' ∈ left) : ∃ w ∈ p.typeWords left, ')' ∈ w := by
  obtain ⟨w, hw, hmem⟩ := exists_word (by decide) (List.mem_append_left _ h)
  refine ⟨w, List.mem_filter.mpr ⟨hw, bne_iff_ne.mpr ?_⟩, hmem⟩
  rintro rfl
  exact absurd hmem (by decide)

theorem typeWords_ne_nil {left : List Char} (h : IsParted left) : p.typeWords left ≠ [] := by
  rcases h with h | h
  · obtain ⟨w, hw, -⟩ := p.exists_typeWord h
    exact List.ne_nil_of_mem hw
  · have htype := p.declared.words_type_ne_nil
    rw [← p.typeWords_nil] at htype
    rw [typeWords, words_append h, List.filter_append]
    exact List.append_ne_nil_of_right_ne_nil _ htype

/-- How a parameter is read: with its name; with its type if the arguments of its annotations are flat,
and not otherwise; and with its annotations, but for those that are part of earlier ones. -/
structure IsReadAs (p : AnnotatedParameter) (read : DeclaredParameter) : Prop where
  name : read.name = p.declared.name
  type_of_flat : (∀ entry ∈ p.annotations, HasFlatArguments entry.1) →
    read.type = p.declared.collapsedType
  type_of_nested : (∃ entry ∈ p.annotations, ¬HasFlatArguments entry.1 ∧ HasPlainLiterals entry.1) →
    ')' ∈ read.type ∧ read.type ≠ p.declared.collapsedType
  annotations : (∀ entry ∈ p.annotations, entry.1.IsSealed) →
    read.annotations.Sublist p.collapsed
      ∧ (read.annotations = p.collapsed
        ↔ p.collapsed.Pairwise fun earlier later => ¬IsPartOf later earlier)

theorem exists_isReadAs : ∃ read, javaParameter? p.print = .ok (some read) ∧ p.IsReadAs read := by
  obtain ⟨left, hleft, hparted, hflat, hnested⟩ := exists_leaves_annotations
    (startsWith_parameterMark.leaves_of_not_mem p.at_not_mem_declaration) p.head_declaration
    p.ofGaps p.parted
  obtain ⟨annotations, hannotations⟩ := neverFails_iff.mp (readAnnotations_neverFails p.print)
  refine ⟨⟨p.declared.name, join [' '] (p.typeWords left), annotations, false⟩,
    javaParameter?_of_words hannotations (p.typeWords_ne_nil hparted) ?_, rfl, ?_, ?_, ?_⟩
  · rw [print, hleft.replaceAll_eq]
    exact p.filter_words_declaration left
  · intro hall
    rw [p.typeWords_of_gap (hflat hall)]
    rfl
  · intro hany
    obtain ⟨w, hw, hmem⟩ := p.exists_typeWord (hnested hany)
    have hread : ')' ∈ join [' '] (p.typeWords left) := mem_join_of_mem hmem hw
    refine ⟨hread, fun heq : join [' '] (p.typeWords left) = _ => ?_⟩
    rw [heq] at hread
    exact (p.noMarks ')' ((p.declared.mem_collapsedType (by decide)).mp hread)).2.2 rfl
  · intro hsealed
    obtain rfl : annotations = p.collapsed.foldl addUnlessPart [] :=
      Except.ok.inj (hannotations.symm.trans (p.readAnnotations_print hsealed))
    refine ⟨foldl_sublist, ?_⟩
    have hall : p.collapsed.foldl addUnlessPart [] = [] ++ p.collapsed ↔ _ := foldl_eq_append_iff
    rw [List.nil_append] at hall
    refine hall.trans (and_iff_right fun mark _ hpart => ?_)
    obtain ⟨other, hother, -⟩ := hpart
    exact absurd hother List.not_mem_nil

end AnnotatedParameter

/-- **Annotations stay out of types if they are flat.** Of any other annotation with plain literals a
closing parenthesis gets into the type. -/
theorem javaParameters_annotated (parameters : List AnnotatedParameter) :
    ∃ read, javaParameters (printList (parameters.map AnnotatedParameter.print)) = .ok read
      ∧ List.Forall₂ AnnotatedParameter.IsReadAs parameters read := by
  refine javaParameters_of_parts (parts_printList fun s hs => ?_) AnnotatedParameter.exists_isReadAs
  obtain ⟨p, -, rfl⟩ := List.mem_map.mp hs
  exact ⟨p.staysWhole_print, p.isTrimmed_print⟩

/-- A comma and an at sign in a literal, and a comma among the arguments of a type. -/
example : javaParameters "@A(\"x, @B\") final Map<K, V> m, @C int n".toList
    = .ok [⟨"m".toList, "Map<K, V>".toList, ["@A(\"x, @B\")".toList], false⟩,
      ⟨"n".toList, "int".toList, ["@C".toList], false⟩] := by
  decide +kernel

end ServiceMap.Declaration
