import ServiceMap.Declaration.CSharpMethod
import ServiceMap.Proofs.Declaration.AnnotatedParameters

/-!
# Attributed parameters

Parameters with groups of attributes before them, and what is read of them. The groups are taken out of
the text by a pattern that ends at the first closing bracket, wherever it stands: what is left of a
group that holds such a bracket is read as part of the type, and the brackets of an array are taken out
of the type as if they were a group.
-/

namespace ServiceMap.Declaration

open Text Source Pattern

/-! ## What is taken out -/

theorem startsWith_parameterAttribute : parameterAttribute.StartsWith '[' := by
  rintro before _ rest ⟨_, close, rfl, ⟨_, inside, rfl, hopen, -⟩, -⟩
  rw [takes_lit.mp hopen]
  rfl

section Bracket

variable {new inside rest r : List Char}

theorem leaves_attribute (hinside : ']' ∉ inside) (h : Leaves parameterAttribute new rest r) :
    Leaves parameterAttribute new ('[' :: (inside ++ ']' :: rest)) (new ++ r) := by
  have htaken : '[' :: (inside ++ ']' :: rest) = "[".toList ++ inside ++ "]".toList ++ rest := by simp
  rw [htaken]
  refine Leaves.replace_first (by simp) (fun limit before index => ⟨[], ?_⟩) h
  have hopen : (lit "[").TakesFirst limit
      ⟨before, "[".toList ++ inside ++ "]".toList ++ rest, index, []⟩ "[".toList
      (inside ++ ']' :: rest) [] := takesFirst_lit (by simp)
  have hmany : ∀ {q : Place}, q.rest = inside ++ ']' :: rest →
      (many (· != ']')).TakesFirst limit q inside (']' :: rest) [] := fun hq =>
    takesFirst_many hq (fun c hc => bne_iff_ne.mpr fun heq => hinside (heq ▸ hc))
      fun c hc => by rw [← Option.some.inj hc]; decide
  exact (hopen.append (hmany rfl)).append (takesFirst_lit rfl)

theorem leaves_unclosed (hrest : ']' ∉ rest) (h : Leaves parameterAttribute new rest r) :
    Leaves parameterAttribute new ('[' :: rest) ('[' :: r) := by
  refine h.skip fun limit before index => Option.eq_none_iff_forall_ne_some.mpr fun m hm => ?_
  obtain ⟨_, more, htext, ⟨_, close, rfl, ⟨_, inside, rfl, hopen, -⟩, hclose⟩, -⟩ :=
    takes_of_matchHere? hm
  rw [takes_lit.mp hopen, takes_lit.mp hclose] at htext
  obtain ⟨-, rfl⟩ := List.cons.inj htext
  exact hrest (by simp)

end Bracket

/-- Of every text something is left. -/
theorem exists_leaves (s : List Char) : ∃ left, Leaves parameterAttribute [' '] s left := by
  cases s with
  | nil => exact ⟨[], startsWith_parameterAttribute.leaves_of_not_mem List.not_mem_nil⟩
  | cons c s =>
      by_cases hc : c = '['
      · subst hc
        by_cases hclose : ']' ∈ s
        · obtain ⟨inside, more, hsplit, hinside⟩ := List.eq_append_cons_of_mem hclose
          obtain ⟨left, hleft⟩ := exists_leaves more
          exact ⟨[' '] ++ left, hsplit ▸ leaves_attribute hinside hleft⟩
        · obtain ⟨left, hleft⟩ := exists_leaves s
          exact ⟨'[' :: left, leaves_unclosed hclose hleft⟩
      · obtain ⟨left, hleft⟩ := exists_leaves s
        exact ⟨c :: left, startsWith_parameterAttribute.leaves_cons hc hleft⟩
termination_by s.length
decreasing_by
  · rw [hsplit, List.length_cons, List.length_append, List.length_cons]
    omega
  · exact Nat.lt_succ_self _
  · exact Nat.lt_succ_self _

/-- Behind each opening square bracket there is a closing one. -/
def ClosesSquares (s : List Char) : Prop :=
  ∀ front back, s = front ++ '[' :: back → ']' ∈ back

theorem ClosesSquares.of_suffix {s t : List Char} (h : ClosesSquares s) (ht : t <:+ s) :
    ClosesSquares t := by
  obtain ⟨u, rfl⟩ := ht
  exact fun front back ht => h (u ++ front) back (by rw [ht, List.append_assoc])

theorem closesSquares_concat (s : List Char) : ClosesSquares (s ++ [']']) := by
  intro front back h
  obtain ⟨z, -, rfl⟩ := split_of_ne_last (by decide) h
  exact List.mem_append_right z (List.mem_singleton.mpr rfl)

/-- No opening bracket is left of a text that closes each of them. -/
theorem exists_leaves_closed {t l : List Char} (ht : Leaves parameterAttribute [' '] t l)
    (s : List Char) : ClosesSquares s →
      ∃ left, Leaves parameterAttribute [' '] (s ++ t) (left ++ l) ∧ '[' ∉ left
        ∧ ∀ c ∈ left, c ∈ s ∨ c = ' ' := by
  cases s with
  | nil => exact fun _ => ⟨[], ht, List.not_mem_nil, fun c hc => absurd hc List.not_mem_nil⟩
  | cons c s =>
      intro hs
      by_cases hc : c = '['
      · subst hc
        obtain ⟨inside, more, hsplit, hinside⟩ := List.eq_append_cons_of_mem (hs [] s rfl)
        have hmore : more <:+ '[' :: s := ⟨'[' :: (inside ++ [']']), by rw [hsplit]; simp⟩
        obtain ⟨left, hleft, hopen, hmem⟩ := exists_leaves_closed ht more (hs.of_suffix hmore)
        refine ⟨[' '] ++ left, ?_, ?_, ?_⟩
        · have htaken := leaves_attribute hinside hleft
          rw [hsplit]
          simpa using htaken
        · exact fun h => hopen ((List.mem_cons.mp h).resolve_left (by decide))
        · intro d hd
          rcases List.mem_cons.mp hd with rfl | hd
          · exact Or.inr rfl
          · exact (hmem d hd).imp_left fun h => hmore.subset h
      · obtain ⟨left, hleft, hopen, hmem⟩ :=
          exists_leaves_closed ht s (hs.of_suffix (List.suffix_cons c s))
        refine ⟨c :: left, startsWith_parameterAttribute.leaves_cons hc hleft, ?_, ?_⟩
        · exact fun h => hopen ((List.mem_cons.mp h).resolve_left fun heq => hc heq.symm)
        · intro d hd
          rcases List.mem_cons.mp hd with rfl | hd
          · exact Or.inl List.mem_cons_self
          · exact (hmem d hd).imp_left (List.mem_cons_of_mem c)
termination_by s.length
decreasing_by
  · rw [hsplit, List.length_cons, List.length_append, List.length_cons]
    omega
  · exact Nat.lt_succ_self _

/-! ## What is left of groups -/

/-- Behind an opening bracket of a balanced text there is a closing one. -/
theorem closer_mem_of_isBalanced {b : Bracket} {s t : List Char}
    (h : b.IsBalanced (s ++ b.opener :: t)) : b.closer ∈ t := by
  obtain ⟨depth, hdepth⟩ := h.prefix_depth
  rw [Bracket.IsBalanced, Bracket.depthAfter_append, hdepth, Option.bind_some,
    Bracket.depthAfter_opener] at h
  have hcount := Bracket.count_of_depthAfter h
  exact List.count_pos_iff.mp (by omega)

/-- A group of attributes in brackets, and the blanks behind it. -/
def printGroup (group : List Stretch × List Char) : List Char :=
  '[' :: (written group.1 ++ ']' :: group.2)

/-- A group holds no closing bracket, within literals or outside of them. -/
def IsFlatGroup (group : List Stretch × List Char) : Prop :=
  ']' ∉ written group.1

/-- No literal of a group holds an opening bracket. -/
def IsPlainGroup (group : List Stretch × List Char) : Prop :=
  ∀ stretch ∈ group.1, '[' ∉ stretch.content

theorem closesSquares_of_plain {group : List Stretch × List Char}
    (hbalanced : Bracket.square.IsBalanced (shown group.1)) (hplain : IsPlainGroup group) :
    ClosesSquares (written group.1) := by
  intro front back htext
  rcases split_written_cons (by decide) htext with ⟨before, after, hstretches, -, rfl⟩
    | ⟨before, quote, content, hquote, hcontent, after, x, y, hstretches, hx, -⟩
  · rw [hstretches, shown_append, shown_code] at hbalanced
    have hshown : ']' ∈ shown after := closer_mem_of_isBalanced (b := .square) hbalanced
    obtain ⟨u, v, huv⟩ := List.append_of_mem hshown
    obtain ⟨first, hc, last, rfl, -, -⟩ := split_shown_cons huv
    rw [written_append, written_code]
    exact List.mem_append_right _ List.mem_cons_self
  · have hmem : Stretch.literal quote content hquote hcontent ∈ group.1 := by
      rw [hstretches]
      exact List.mem_append_right before List.mem_cons_self
    exact absurd (by rw [Stretch.content, hx]; simp) (hplain _ hmem)

/-- What may be left of a group and the blanks behind it: nothing but blanks of a flat group, else a
closing bracket if its literals are plain, and in no case an opening one. -/
structure IsLeftOfGroup (group : List Stretch × List Char) (left : List Char) : Prop where
  noOpener : '[' ∉ left
  noEquals : IsFlatGroup group ∨ '=' ∉ written group.1 → '=' ∉ left
  gap : IsFlatGroup group → IsGap left
  closer : ¬IsFlatGroup group → IsPlainGroup group → ']' ∈ left

section Group

variable {group : List Stretch × List Char} {t l : List Char}

theorem exists_isLeftOfGroup_flat (hgap : IsGap group.2) (hflat : IsFlatGroup group)
    (h : Leaves parameterAttribute [' '] (group.2 ++ t) (group.2 ++ l)) :
    ∃ left, Leaves parameterAttribute [' '] (printGroup group ++ t) (left ++ l)
      ∧ IsLeftOfGroup group left := by
  have hblank : IsGap ([' '] ++ group.2) :=
    List.forall_mem_append.mpr ⟨(by decide : IsGap [' ']), hgap⟩
  refine ⟨[' '] ++ group.2, ?_, hblank.not_mem (by decide),
    fun _ => hblank.not_mem (by decide), fun _ => hblank, fun hnot => absurd hflat hnot⟩
  have htaken := leaves_attribute hflat h
  simpa [printGroup] using htaken

/-- Whether or not the last bracket of a group is left, behind the first closing one. -/
theorem exists_leaves_closing {inside more : List Char}
    (hbalanced : Bracket.square.IsBalanced (shown group.1))
    (hwritten : written group.1 = inside ++ ']' :: more)
    (h : Leaves parameterAttribute [' '] (group.2 ++ t) (group.2 ++ l)) :
    ∃ left, Leaves parameterAttribute [' '] (more ++ ([']'] ++ (group.2 ++ t)))
        (left ++ (group.2 ++ l))
      ∧ '[' ∉ left ∧ (∀ c ∈ left, c ∈ more ++ [']'] ∨ c = ' ')
      ∧ (IsPlainGroup group → ']' ∈ left) := by
  by_cases hplain : IsPlainGroup group
  · have hmore : more <:+ written group.1 := ⟨inside ++ [']'], by rw [hwritten]; simp⟩
    obtain ⟨left, hleft, hopen, hmem⟩ := exists_leaves_closed
      (startsWith_parameterAttribute.leaves_cons (c := ']') (by decide) h) more
      ((closesSquares_of_plain hbalanced hplain).of_suffix hmore)
    refine ⟨left ++ [']'], by simpa using hleft, by simpa using hopen, fun c hc => ?_, fun _ => ?_⟩
    · rcases List.mem_append.mp hc with hc | hc
      · exact (hmem c hc).imp_left (List.mem_append_left _)
      · exact Or.inl (List.mem_append_right _ hc)
    · exact List.mem_append_right _ (List.mem_singleton.mpr rfl)
  · obtain ⟨left, hleft, hopen, hmem⟩ :=
      exists_leaves_closed h (more ++ [']']) (closesSquares_concat more)
    exact ⟨left, by simpa using hleft, hopen, hmem, fun hplain' => absurd hplain' hplain⟩

theorem exists_isLeftOfGroup_nested (hgap : IsGap group.2)
    (hbalanced : Bracket.square.IsBalanced (shown group.1)) (hnested : ¬IsFlatGroup group)
    (h : Leaves parameterAttribute [' '] (group.2 ++ t) (group.2 ++ l)) :
    ∃ left, Leaves parameterAttribute [' '] (printGroup group ++ t) (left ++ l)
      ∧ IsLeftOfGroup group left := by
  obtain ⟨inside, more, hwritten, hinside⟩ := List.eq_append_cons_of_mem (not_not.mp hnested)
  obtain ⟨left, hleft, hopen, hmem, hcloser⟩ := exists_leaves_closing hbalanced hwritten h
  have hprint : printGroup group ++ t
      = '[' :: (inside ++ ']' :: (more ++ ([']'] ++ (group.2 ++ t)))) := by
    rw [printGroup, hwritten]
    simp
  refine ⟨' ' :: (left ++ group.2), ?_, fun hc => ?_, fun hor hc => ?_,
    fun hflat => absurd hflat hnested, fun _ hplain => ?_⟩
  · have htaken := leaves_attribute hinside hleft
    rw [hprint]
    simpa using htaken
  · rcases List.mem_append.mp ((List.mem_cons.mp hc).resolve_left (by decide)) with hc | hc
    · exact hopen hc
    · exact hgap.not_mem (by decide) hc
  · rcases List.mem_append.mp ((List.mem_cons.mp hc).resolve_left (by decide)) with hc | hc
    · -- an equals sign that is left is one of the group
      refine hor.resolve_left hnested ?_
      rw [hwritten, List.mem_append, List.mem_cons]
      rcases hmem '=' hc with hc | hc
      · rcases List.mem_append.mp hc with hc | hc
        · exact Or.inr (Or.inr hc)
        · exact absurd (List.mem_singleton.mp hc) (by decide)
      · exact absurd hc (by decide)
    · exact hgap.not_mem (by decide) hc
  · exact List.mem_cons_of_mem _ (List.mem_append_left _ (hcloser hplain))

theorem exists_isLeftOfGroup (hgap : IsGap group.2)
    (hbalanced : Bracket.square.IsBalanced (shown group.1))
    (h : Leaves parameterAttribute [' '] t l) :
    ∃ left, Leaves parameterAttribute [' '] (printGroup group ++ t) (left ++ l)
      ∧ IsLeftOfGroup group left := by
  have hafter : Leaves parameterAttribute [' '] (group.2 ++ t) (group.2 ++ l) :=
    startsWith_parameterAttribute.leaves_append (hgap.not_mem (by decide)) h
  by_cases hflat : IsFlatGroup group
  · exact exists_isLeftOfGroup_flat hgap hflat hafter
  · exact exists_isLeftOfGroup_nested hgap hbalanced hflat hafter

end Group

/-- **What is left of groups of attributes.** Nothing but blanks is left of flat groups. A closing
bracket is left of any other, if its literals are plain, and in no case an opening one. -/
theorem exists_leaves_groups {t l : List Char} (h : Leaves parameterAttribute [' '] t l)
    {groups : List (List Stretch × List Char)} (hgaps : ∀ group ∈ groups, IsGap group.2)
    (hbalanced : ∀ group ∈ groups, Bracket.square.IsBalanced (shown group.1)) :
    ∃ left, Leaves parameterAttribute [' '] (groups.flatMap printGroup ++ t) (left ++ l)
      ∧ '[' ∉ left
      ∧ ((∀ group ∈ groups, IsFlatGroup group) → IsGap left)
      ∧ ((∀ group ∈ groups, IsFlatGroup group ∨ '=' ∉ written group.1) → '=' ∉ left)
      ∧ ((∃ group ∈ groups, ¬IsFlatGroup group ∧ IsPlainGroup group) → ']' ∈ left) := by
  obtain ⟨lefts, hlefts, hof, hall⟩ :=
    exists_leaves_flatMap IsLeftOfGroup groups h fun group hgroup _ _ =>
      exists_isLeftOfGroup (hgaps group hgroup) (hbalanced group hgroup)
  -- a character that is left is left of one of the groups
  have hmem : ∀ {c : Char}, c ∈ lefts.flatten →
      ∃ group ∈ groups, ∃ left, IsLeftOfGroup group left ∧ c ∈ left := by
    intro c hc
    obtain ⟨left, hleft, hc⟩ := List.mem_flatten.mp hc
    obtain ⟨group, hgroup, hleftOf⟩ := hof left hleft
    exact ⟨group, hgroup, left, hleftOf, hc⟩
  refine ⟨lefts.flatten, hlefts, fun hc => ?_, fun hflat c hc => ?_, fun hequals hc => ?_, ?_⟩
  · obtain ⟨group, -, left, hleftOf, hc⟩ := hmem hc
    exact hleftOf.noOpener hc
  · obtain ⟨group, hgroup, left, hleftOf, hc⟩ := hmem hc
    exact hleftOf.gap (hflat group hgroup) c hc
  · obtain ⟨group, hgroup, left, hleftOf, hc⟩ := hmem hc
    exact hleftOf.noEquals (hequals group hgroup) hc
  · rintro ⟨group, hgroup, hnested, hplain⟩
    obtain ⟨left, hleft, hleftOf⟩ := hall group hgroup
    exact List.mem_flatten.mpr ⟨left, hleft, hleftOf.closer hnested hplain⟩

/-! ## Parts of lists -/

theorem isTrimmed_groups_append (groups : List (List Stretch × List Char)) {t : List Char}
    (ht : IsTrimmed t) : IsTrimmed (groups.flatMap printGroup ++ t) := by
  induction groups with
  | nil => exact ht
  | cons group groups ih =>
      have hgroup : IsTrimmed ('[' :: (written group.1 ++ [']'])) :=
        isTrimmed_enclosed _ (by decide) (by decide)
      have hwhole := hgroup.around group.2 ih
      rw [List.flatMap_cons, printGroup]
      simpa using hwhole

theorem staysWhole_groups {groups : List (List Stretch × List Char)}
    (hgaps : ∀ group ∈ groups, IsGap group.2)
    (hbalanced : ∀ group ∈ groups, ∀ b : Bracket, b.IsBalanced (shown group.1)) :
    StaysWhole ',' 0 0 (groups.flatMap printGroup) := by
  induction groups with
  | nil => exact staysWhole_nil
  | cons group groups ih =>
      have hgroup : StaysWhole ',' 0 0 ('[' :: (written group.1 ++ [']'])) :=
        (staysWhole_written (hbalanced group List.mem_cons_self)).group .square
      have hfirst := hgroup.append (staysWhole_label (hgaps group List.mem_cons_self).isLabel)
        (Nat.le_refl 0)
      have hothers := ih (fun other hother => hgaps other (List.mem_cons_of_mem group hother))
        fun other hother => hbalanced other (List.mem_cons_of_mem group hother)
      rw [List.flatMap_cons, printGroup]
      simpa using hfirst.append hothers (Nat.le_refl 0)

theorem word_of_parameterWord {w : List Char} (h : String.ofList w ∈ parameterWords) :
    w ≠ [] ∧ ∀ c ∈ w, isWord c = true := by
  have hall : ∀ s ∈ parameterWords, s.toList ≠ [] ∧ s.toList.all isWord = true := by decide +kernel
  obtain ⟨hne, hwords⟩ := hall _ h
  rw [String.toList_ofList] at hne hwords
  exact ⟨hne, List.all_eq_true.mp hwords⟩

theorem isTrimmed_modifiers_append {modifiers : List (List Char × List Char)}
    (hwords : ∀ entry ∈ modifiers, String.ofList entry.1 ∈ parameterWords) {t : List Char}
    (ht : IsTrimmed t) : IsTrimmed ((modifiers.flatMap fun entry => entry.1 ++ entry.2) ++ t) := by
  induction modifiers with
  | nil => exact ht
  | cons entry modifiers ih =>
      obtain ⟨hne, hword⟩ := word_of_parameterWord (hwords entry List.mem_cons_self)
      rw [List.flatMap_cons, List.append_assoc, List.append_assoc, ← List.append_assoc]
      exact (isTrimmed_word ⟨hne, fun c hc => isBlank_of_isWord (hword c hc)⟩).around entry.2
        (ih fun other hother => hwords other (List.mem_cons_of_mem entry hother))

/-- Words that may stand before a type are passed over. -/
theorem filter_words_modifiers_append {modifiers : List (List Char × List Char)}
    (hwords : ∀ entry ∈ modifiers, String.ofList entry.1 ∈ parameterWords)
    (hparted : ∀ entry ∈ modifiers, IsGap entry.2 ∧ entry.2 ≠ []) (t : List Char) :
    (words ((modifiers.flatMap fun entry => entry.1 ++ entry.2) ++ t)).filter
        (fun token => !parameterWords.contains (String.ofList token))
      = (words t).filter fun token => !parameterWords.contains (String.ofList token) := by
  induction modifiers with
  | nil => rfl
  | cons entry modifiers ih =>
      have hentry := hwords entry List.mem_cons_self
      obtain ⟨hne, hword⟩ := word_of_parameterWord hentry
      obtain ⟨hgap, hgapNe⟩ := hparted entry List.mem_cons_self
      have hone : words entry.1 = [entry.1] :=
        runs_of_all_not hne fun c hc => isBlank_of_isWord (hword c hc)
      have hpassed : [entry.1].filter (fun token => !parameterWords.contains (String.ofList token))
          = [] := by
        simp [hentry]
      rw [List.flatMap_cons, List.append_assoc, List.append_assoc, words_append_gap hgap hgapNe, hone,
        List.filter_append, hpassed, List.nil_append,
        ih (fun other hother => hwords other (List.mem_cons_of_mem entry hother))
          fun other hother => hparted other (List.mem_cons_of_mem entry hother)]

/-! ## Parameters -/

/-- A default value, with the blanks before and behind its equals sign. -/
structure DefaultValue where
  front : List Char
  ofFront : IsGap front
  back : List Char
  ofBack : IsGap back
  value : List Char
  trimmed : IsTrimmed value
  whole : StaysWhole ',' 0 0 value

/-- A parameter with groups of attributes, words such as `ref` with the blanks behind them, a type and a
name, and perhaps a default. Outside of literals the groups are balanced in every kind of bracket. -/
structure AttributedParameter where
  groups : List (List Stretch × List Char)
  ofGaps : ∀ group ∈ groups, IsGap group.2
  balanced : ∀ group ∈ groups, ∀ b : Bracket, b.IsBalanced (shown group.1)
  modifiers : List (List Char × List Char)
  ofModifiers : ∀ entry ∈ modifiers, String.ofList entry.1 ∈ parameterWords
  parted : ∀ entry ∈ modifiers, IsGap entry.2 ∧ entry.2 ≠ []
  declared : TypedName
  ofType : Bracket.square.IsBalanced declared.type
  noEquals : '=' ∉ declared.type
  noWords : ∀ w ∈ words declared.type ++ [declared.name], String.ofList w ∉ parameterWords
  default : Option DefaultValue

def DefaultValue.print (d : DefaultValue) : List Char :=
  d.front ++ '=' :: (d.back ++ d.value)

/-- The last word of a parameter is its name, and the words before it are its type. -/
theorem csharpParameter?_of_words {part name : List Char} {front : List (List Char)}
    (hwords : (words (before '=' (parameterAttribute.replaceAll [' '] part))).filter
      (fun token => !parameterWords.contains (String.ofList token)) = front ++ [name]) :
    csharpParameter? part = if front = [] then none else some {
      name
      type := join [' '] front
      annotations := readAttributes part
      hasDefault := (parameterAttribute.replaceAll [' '] part).contains '=' } := by
  simp only [csharpParameter?, hwords]
  by_cases hfront : front = []
  · rw [if_pos hfront, hfront]
    rfl
  · obtain ⟨last, others, hreverse, hothers⟩ := reverse_of_words hfront name
    rw [if_neg hfront, hreverse]
    dsimp only
    rw [hothers]

namespace AttributedParameter

variable (p : AttributedParameter)

/-- The words before the type, with the blanks behind them. -/
def modifier : List Char :=
  p.modifiers.flatMap fun entry => entry.1 ++ entry.2

def defaultText : List Char :=
  (p.default.map DefaultValue.print).getD []

def print : List Char :=
  p.groups.flatMap printGroup ++ (p.modifier ++ (p.declared.print ++ p.defaultText))

theorem isLabel_modifier : IsLabel p.modifier := by
  intro c hc
  obtain ⟨entry, hentry, hc⟩ := List.mem_flatMap.mp hc
  rcases List.mem_append.mp hc with hc | hc
  · exact Or.inl (isDottedWord_of_isWord
      ((word_of_parameterWord (p.ofModifiers entry hentry)).2 c hc))
  · exact Or.inr ((p.parted entry hentry).1 c hc)

/-! ### One part of a list -/

theorem isTrimmed_print : IsTrimmed p.print := by
  have hdefault : IsTrimmed (p.declared.print ++ p.defaultText) := by
    rw [defaultText]
    cases p.default with
    | none =>
        rw [Option.map_none, Option.getD_none, List.append_nil]
        exact p.declared.isTrimmed_print
    | some d =>
        have hvalue : IsTrimmed (['='] ++ d.back ++ d.value) :=
          (isTrimmed_word ⟨by decide, forall_mem_of_all (by decide)⟩).around d.back d.trimmed
        have hwhole := p.declared.isTrimmed_print.around d.front hvalue
        rwa [List.append_assoc] at hwhole
  exact isTrimmed_groups_append _ (isTrimmed_modifiers_append p.ofModifiers hdefault)

theorem staysWhole_print : StaysWhole ',' 0 0 p.print := by
  have happend : ∀ {s t : List Char}, StaysWhole ',' 0 0 s → StaysWhole ',' 0 0 t →
      StaysWhole ',' 0 0 (s ++ t) := fun hs ht => hs.append ht (Nat.le_refl 0)
  have hdefault : StaysWhole ',' 0 0 p.defaultText := by
    rw [defaultText]
    cases p.default with
    | none => exact staysWhole_nil
    | some d =>
        have hequals : StaysWhole ',' 0 0 ['='] := staysWhole_plain (forall_mem_of_all (by decide))
        exact happend (staysWhole_label d.ofFront.isLabel)
          (happend hequals (happend (staysWhole_label d.ofBack.isLabel) d.whole))
  exact happend (staysWhole_groups p.ofGaps p.balanced)
    (happend (staysWhole_label p.isLabel_modifier) (happend p.declared.staysWhole_print hdefault))

/-! ### What is read -/

/-- What is left of the default: its front stays as it is, up to the equals sign. -/
theorem exists_leaves_default : ∃ left, Leaves parameterAttribute [' '] p.defaultText left
    ∧ ∀ s, '=' ∉ s → words (before '=' (s ++ left)) = words s
      ∧ (s ++ left).contains '=' = p.default.isSome := by
  rw [defaultText]
  cases p.default with
  | none =>
      refine ⟨[], startsWith_parameterAttribute.leaves_of_not_mem List.not_mem_nil, fun s hs => ?_⟩
      rw [List.append_nil, before_of_not_mem hs]
      exact ⟨rfl, by simpa using hs⟩
  | some d =>
      have hfront : '=' ∉ d.front := d.ofFront.not_mem (by decide)
      have hopen : '[' ∉ d.front := d.ofFront.not_mem (by decide)
      obtain ⟨left, hleft⟩ := exists_leaves (d.back ++ d.value)
      refine ⟨d.front ++ '=' :: left, startsWith_parameterAttribute.leaves_append hopen
        (startsWith_parameterAttribute.leaves_cons (by decide) hleft), fun s hs => ?_⟩
      have hbefore : '=' ∉ s ++ d.front := fun h => (List.mem_append.mp h).elim hs hfront
      rw [← List.append_assoc, before_append_cons, before_of_not_mem hbefore,
        words_append_of_gap d.ofFront]
      exact ⟨rfl, by simp⟩

/-- The words before the name that are not passed over, where `type` is left of the type and `left` of
the groups. -/
def typeWords (left type : List Char) : List (List Char) :=
  (words (left ++ (p.modifier ++ type))).filter fun token =>
    !parameterWords.contains (String.ofList token)

/-- Equals signs stand in flat groups only. -/
def EqualsInFlatGroups : Prop :=
  ∀ group ∈ p.groups, IsFlatGroup group ∨ '=' ∉ written group.1

theorem typeWords_of_gap {left : List Char} (h : IsGap left) :
    p.typeWords left p.declared.type = words p.declared.type := by
  have htype : (words p.declared.type).filter
      (fun token => !parameterWords.contains (String.ofList token)) = words p.declared.type := by
    refine List.filter_eq_self.mpr fun w hw => ?_
    simpa using p.noWords w (List.mem_append_left _ hw)
  rw [typeWords, words_gap_append h, modifier,
    filter_words_modifiers_append p.ofModifiers p.parted, htype]

theorem exists_typeWord {left : List Char} (h : ']' ∈ left) (type : List Char) :
    ∃ w ∈ p.typeWords left type, ']' ∈ w := by
  obtain ⟨w, hw, hmem⟩ := exists_word (by decide) (List.mem_append_left _ h)
  have hword : String.ofList w ∉ parameterWords := fun hword =>
    absurd ((word_of_parameterWord hword).2 ']' hmem) (by decide)
  exact ⟨w, List.mem_filter.mpr ⟨hw, by simpa using hword⟩, hmem⟩

theorem close_not_mem_type (h : '[' ∉ p.declared.type) : ']' ∉ p.declared.type := by
  have hcount : p.declared.type.count '[' + 0 = p.declared.type.count ']' + 0 :=
    Bracket.count_of_depthAfter p.ofType
  rw [List.count_eq_zero_of_not_mem h] at hcount
  exact List.count_eq_zero.mp (by omega)

theorem print_eq : p.print = p.groups.flatMap printGroup ++ (p.modifier ++ (p.declared.type
    ++ ((p.declared.gap ++ p.declared.name) ++ p.defaultText))) := by
  simp [print, TypedName.print]

theorem not_mem_label {c : Char} (hc : isDottedWord c = false ∧ isBlank c = false) :
    c ∉ p.modifier ∧ c ∉ p.declared.gap ++ p.declared.name :=
  ⟨fun hmem => p.isLabel_modifier.ne hmem hc rfl,
    fun hmem => p.declared.isLabel_gap_name.ne hmem hc rfl⟩

/-- What is left of the type: all of it, or a text without opening brackets. -/
theorem exists_leaves_type {t l : List Char} (h : Leaves parameterAttribute [' '] t l) :
    ∃ type, Leaves parameterAttribute [' '] (p.declared.type ++ t) (type ++ l)
      ∧ '[' ∉ type ∧ '=' ∉ type ∧ ('[' ∉ p.declared.type → type = p.declared.type) := by
  by_cases hopen : '[' ∈ p.declared.type
  · obtain ⟨type, htype, hopenType, hmem⟩ := exists_leaves_closed h p.declared.type
      fun front back hsplit => closer_mem_of_isBalanced (b := .square) (hsplit ▸ p.ofType)
    exact ⟨type, htype, hopenType, fun heq => (hmem '=' heq).elim p.noEquals (by decide),
      fun hnot => absurd hopen hnot⟩
  · exact ⟨p.declared.type, startsWith_parameterAttribute.leaves_append hopen h, hopen, p.noEquals,
      fun _ => rfl⟩

/-- What is read of a parameter, by what is left of its groups and of its type. -/
theorem exists_typeWords (h : p.EqualsInFlatGroups) :
    ∃ left type, csharpParameter? p.print = (if p.typeWords left type = [] then none else some {
        name := p.declared.name
        type := join [' '] (p.typeWords left type)
        annotations := readAttributes p.print
        hasDefault := p.default.isSome })
      ∧ '[' ∉ join [' '] (p.typeWords left type)
      ∧ ((∀ group ∈ p.groups, IsFlatGroup group) → IsGap left)
      ∧ ((∃ group ∈ p.groups, ¬IsFlatGroup group ∧ IsPlainGroup group) → ']' ∈ left)
      ∧ ('[' ∉ p.declared.type → type = p.declared.type) := by
  obtain ⟨hopenModifier, hopenName⟩ := p.not_mem_label (c := '[') (by decide)
  obtain ⟨hequalsModifier, hequalsName⟩ := p.not_mem_label (c := '=') (by decide)
  -- what is left of the text, from its end on
  obtain ⟨rest, hrest, hbefore⟩ := p.exists_leaves_default
  obtain ⟨type, htype, hopenType, hequalsType, hsame⟩ :=
    p.exists_leaves_type (startsWith_parameterAttribute.leaves_append hopenName hrest)
  obtain ⟨left, hleft, hopenLeft, hflat, hequals, hnested⟩ := exists_leaves_groups
    (startsWith_parameterAttribute.leaves_append hopenModifier htype) p.ofGaps
    fun group hgroup => p.balanced group hgroup .square
  let front := left ++ (p.modifier ++ type)
  have hopenFront : '[' ∉ front := by
    simp only [front, List.mem_append, not_or]
    exact ⟨hopenLeft, hopenModifier, hopenType⟩
  have hequalsFront : '=' ∉ front := by
    simp only [front, List.mem_append, not_or]
    exact ⟨hequals h, hequalsModifier, hequalsType⟩
  have hreplace : parameterAttribute.replaceAll [' '] p.print
      = (front ++ (p.declared.gap ++ p.declared.name)) ++ rest := by
    rw [p.print_eq, hleft.replaceAll_eq]
    simp [front]
  obtain ⟨hwords, hdefault⟩ := hbefore _ fun hmem =>
    (List.mem_append.mp hmem).elim hequalsFront hequalsName
  have hname : [p.declared.name].filter
      (fun token => !parameterWords.contains (String.ofList token)) = [p.declared.name] := by
    refine List.filter_eq_self.mpr fun w hw => ?_
    simpa using p.noWords w (List.mem_append_right _ hw)
  have htokens : (words (before '=' (parameterAttribute.replaceAll [' '] p.print))).filter
      (fun token => !parameterWords.contains (String.ofList token))
      = p.typeWords left type ++ [p.declared.name] := by
    rw [hreplace, hwords, p.declared.words_append_name, List.filter_append, hname]
    rfl
  refine ⟨left, type, ?_, fun hmem => hopenFront ?_, hflat, hnested, hsame⟩
  · have hread := csharpParameter?_of_words htokens
    rwa [hreplace, hdefault] at hread
  · exact mem_of_mem_join_words (by decide) (List.filter_subset_self _) hmem

/-- How a parameter is read: as it was declared if its groups are flat and its type is no array. With
other groups its type is another one, as that of an array is with any groups. -/
structure IsReadAs (p : AttributedParameter) (read : Option DeclaredParameter) : Prop where
  of_flat : (∀ group ∈ p.groups, IsFlatGroup group) → '[' ∉ p.declared.type →
    ∃ d, read = some d ∧ d.name = p.declared.name ∧ d.type = p.declared.collapsedType
      ∧ d.hasDefault = p.default.isSome
  name : p.EqualsInFlatGroups → ∀ d ∈ read,
    d.name = p.declared.name ∧ d.hasDefault = p.default.isSome
  type_of_array : p.EqualsInFlatGroups → '[' ∈ p.declared.type → ∀ d ∈ read,
    '[' ∉ d.type ∧ d.type ≠ p.declared.collapsedType
  type_of_nested : p.EqualsInFlatGroups →
    (∃ group ∈ p.groups, ¬IsFlatGroup group ∧ IsPlainGroup group) → ∀ d ∈ read,
      ']' ∈ d.type ∧ d.type ≠ p.declared.collapsedType

theorem isReadAs : p.IsReadAs (csharpParameter? p.print) := by
  -- what is known of a parameter that is read at all
  have hread : p.EqualsInFlatGroups → ∃ left type, ∀ d ∈ csharpParameter? p.print,
      (d.name = p.declared.name ∧ d.hasDefault = p.default.isSome)
        ∧ d.type = join [' '] (p.typeWords left type) ∧ '[' ∉ d.type
        ∧ ((∃ group ∈ p.groups, ¬IsFlatGroup group ∧ IsPlainGroup group) → ']' ∈ d.type) := by
    intro h
    obtain ⟨left, type, hread, hopen, -, hnested, -⟩ := p.exists_typeWords h
    refine ⟨left, type, fun d hd => ?_⟩
    rw [hread] at hd
    split at hd
    · exact nomatch hd
    · obtain rfl := Option.some.inj hd
      refine ⟨⟨rfl, rfl⟩, rfl, hopen, fun hany => ?_⟩
      obtain ⟨w, hw, hmem⟩ := p.exists_typeWord (hnested hany) type
      exact mem_join_of_mem hmem hw
  have hbracket : ∀ {d : DeclaredParameter}, '[' ∉ d.type → '[' ∈ p.declared.type →
      d.type ≠ p.declared.collapsedType := fun hnot hopen heq =>
    hnot (heq ▸ (p.declared.mem_collapsedType (by decide)).mpr hopen)
  constructor
  · intro hflat hopen
    obtain ⟨left, type, hread, -, hgap, -, hsame⟩ :=
      p.exists_typeWords fun group hgroup => Or.inl (hflat group hgroup)
    rw [hsame hopen, p.typeWords_of_gap (hgap hflat), if_neg p.declared.words_type_ne_nil] at hread
    exact ⟨_, hread, rfl, rfl, rfl⟩
  · intro h d hd
    obtain ⟨left, type, hread⟩ := hread h
    exact (hread d hd).1
  · intro h hopen d hd
    obtain ⟨left, type, hread⟩ := hread h
    obtain ⟨-, -, hnot, -⟩ := hread d hd
    exact ⟨hnot, hbracket hnot hopen⟩
  · intro h hany d hd
    obtain ⟨left, type, hread⟩ := hread h
    obtain ⟨-, -, hnot, hclose⟩ := hread d hd
    refine ⟨hclose hany, fun heq => ?_⟩
    by_cases hopen : '[' ∈ p.declared.type
    · exact hbracket hnot hopen heq
    · have hmem := hclose hany
      rw [heq, p.declared.mem_collapsedType (by decide)] at hmem
      exact p.close_not_mem_type hopen hmem

end AttributedParameter

theorem csharpParameters_attributed (parameters : List AttributedParameter) :
    ∃ read : List (Option DeclaredParameter),
      csharpParameters (printList (parameters.map AttributedParameter.print)) = read.filterMap id
        ∧ List.Forall₂ AttributedParameter.IsReadAs parameters read := by
  refine ⟨parameters.map fun p => csharpParameter? p.print, ?_, ?_⟩
  · have hparts : parts (printList (parameters.map AttributedParameter.print))
        = parameters.map AttributedParameter.print := by
      refine parts_printList fun s hs => ?_
      obtain ⟨p, -, rfl⟩ := List.mem_map.mp hs
      exact ⟨p.staysWhole_print, p.isTrimmed_print⟩
    rw [csharpParameters, hparts, List.filterMap_map, List.filterMap_map]
    rfl
  · rw [List.forall₂_map_right_iff, List.forall₂_same]
    exact fun p _ => p.isReadAs

/-- A comma in a literal, an equals sign in a group and one before a default. -/
example : csharpParameters "[A(\"x,\", N = 1)] ref Map<K, V> m, params int n = 2".toList
    = [⟨"m".toList, "Map<K, V>".toList, ["[A(\"x,\", N = 1)]".toList], false⟩,
      ⟨"n".toList, "int".toList, [], true⟩] := by
  decide +kernel

/-! ## Both languages -/

/-- **Annotations stay out of types if they are flat.** Of every list of annotated or attributed
parameters each one is read on its own. Its type is read as it was declared if no annotation or group
before it holds a closing bracket of its kind, and if it is not an array of the language whose
attributes stand in square brackets; otherwise a part of the annotation is read as a part of the type, or
the brackets of the array are missing. -/
theorem parameters_are_read_as_declared_if_marks_are_flat (annotated : List AnnotatedParameter)
    (attributed : List AttributedParameter) :
    (∃ read, javaParameters (printList (annotated.map AnnotatedParameter.print)) = .ok read
        ∧ List.Forall₂ AnnotatedParameter.IsReadAs annotated read)
      ∧ ∃ read : List (Option DeclaredParameter),
        csharpParameters (printList (attributed.map AttributedParameter.print)) = read.filterMap id
          ∧ List.Forall₂ AttributedParameter.IsReadAs attributed read :=
  ⟨javaParameters_annotated annotated, csharpParameters_attributed attributed⟩

/-- Whether a text is a word. -/
def isWordText (s : List Char) : Bool :=
  !s.isEmpty && s.all isWord

theorem word_of_isWordText {s : List Char} (h : isWordText s = true) :
    s ≠ [] ∧ ∀ c ∈ s, isWord c = true := by
  obtain ⟨hne, hall⟩ := Bool.and_eq_true_iff.mp h
  exact ⟨by simpa using hne, List.all_eq_true.mp hall⟩

/-- A type of one word and a name, with a space between them. -/
def wordAndName (type name : List Char) (h : (isWordText type && isWordText name) = true) :
    TypedName where
  type := type
  trimmed :=
    have ⟨hne, hword⟩ := word_of_isWordText (Bool.and_eq_true_iff.mp h).1
    isTrimmed_word ⟨hne, fun c hc => isBlank_of_isWord (hword c hc)⟩
  whole :=
    have ⟨_, hword⟩ := word_of_isWordText (Bool.and_eq_true_iff.mp h).1
    staysWhole_label fun c hc => Or.inl (isDottedWord_of_isWord (hword c hc))
  gap := [' ']
  ofGap := by decide
  parted := by decide
  name := name
  named := (word_of_isWordText (Bool.and_eq_true_iff.mp h).2).1
  ofName := (word_of_isWordText (Bool.and_eq_true_iff.mp h).2).2

/-- An annotation with another one among its arguments. -/
def nestedMark : AnnotatedParameter where
  annotations := [(⟨'A', by decide, [], forall_mem_of_all (by decide), some
    { gap := []
      ofGap := isGap_nil
      stretches := stretchesOf "x = @B(1)".toList (forall_mem_of_all (by decide))
      balanced := by decide }⟩, [' '])]
  ofGaps := by decide
  parted := by decide
  balanced := by
    intro entry hentry arguments harguments b
    obtain rfl := List.mem_singleton.mp hentry
    obtain rfl := Option.some.inj harguments
    cases b <;> decide
  finalGap := none
  ofFinalGap := by decide
  declared := wordAndName "String".toList "s".toList (by decide)
  noMarks := forall_mem_of_all (by decide)
  notFinal := by decide

/-- An attribute with an array among its arguments. -/
def nestedAttribute : AttributedParameter where
  groups := [(stretchesOf "A(new[] \x7b1\x7d)".toList (forall_mem_of_all (by decide)), [' '])]
  ofGaps := by decide
  balanced := by
    intro group hgroup b
    obtain rfl := List.mem_singleton.mp hgroup
    cases b <;> decide
  modifiers := []
  ofModifiers := by decide
  parted := by decide
  declared := wordAndName "int".toList "x".toList (by decide)
  ofType := by decide
  noEquals := by decide
  noWords := by decide
  default := none

/-- An array without attributes. -/
def arrayParameter : AttributedParameter where
  groups := []
  ofGaps := by decide
  balanced := fun group hgroup => absurd hgroup List.not_mem_nil
  modifiers := []
  ofModifiers := by decide
  parted := by decide
  declared :=
    { type := "int[]".toList
      trimmed := isTrimmed_word ⟨by decide, forall_mem_of_all (by decide)⟩
      whole := (staysWhole_label (forall_mem_of_all (by decide) : IsLabel "int".toList)).append
        ((staysWhole_nil.mono (Nat.zero_le 1)).group .square) (Nat.le_refl 0)
      gap := [' ']
      ofGap := by decide
      parted := by decide
      name := "xs".toList
      named := by decide
      ofName := forall_mem_of_all (by decide) }
  ofType := by decide
  noEquals := by decide
  noWords := by decide
  default := none

/-- A parenthesis and a bracket of an annotation get into the type, and the brackets of an array get
lost. -/
theorem nested_marks_leak_and_arrays_are_cut :
    (nestedMark.print = "@A(x = @B(1)) String s".toList
      ∧ nestedMark.declared.collapsedType = "String".toList
      ∧ javaParameters nestedMark.print
        = .ok [⟨"s".toList, ") String".toList, ["@A(x = @B(1))".toList], false⟩])
    ∧ (nestedAttribute.print = "[A(new[] \x7b1\x7d)] int x".toList
      ∧ nestedAttribute.declared.collapsedType = "int".toList
      ∧ csharpParameters nestedAttribute.print
        = [⟨"x".toList, "\x7b1\x7d)] int".toList, ["[A(new[] \x7b1\x7d)]".toList], false⟩])
    ∧ (arrayParameter.print = "int[] xs".toList
      ∧ arrayParameter.declared.collapsedType = "int[]".toList
      ∧ csharpParameters arrayParameter.print = [⟨"xs".toList, "int".toList, [], false⟩]) := by
  decide +kernel

end ServiceMap.Declaration
