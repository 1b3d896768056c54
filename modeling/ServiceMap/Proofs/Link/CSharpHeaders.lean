import ServiceMap.Proofs.Link.Headers

/-!
# Heads of C# classes

A C# head is read up to the brace of the body. The type parameters end at the last closing bracket
before a colon or the brace, the base types where the word `where` stands, or blanks and the brace;
so that neither the arguments of a base type nor a constraint can be taken for the other, however
deep the brackets are nested.
-/

namespace ServiceMap.Link

open Text Source Declaration Pattern

/-! ## What is written -/

/-- Characters that constraints are written with. -/
def isBoundChar (c : Char) : Bool :=
  isListChar c || [':', '(', ')'].contains c

/-- The constraints of a type parameter, after the word `where`. -/
structure WhereClause where
  before : Space
  gap : Space
  name : TypeName
  middle : Gap
  bounds : List Char
  ofBounds : ∀ c ∈ bounds, isBoundChar c = true

/-- The type parameters of a class in brackets, with what stands before the opening bracket. -/
structure TypeParameters where
  gap : Gap
  text : List Char
  ofList : ∀ c ∈ text, isListChar c = true

/-- The base types of a class, none of which is named `where`. -/
structure BaseTypes where
  before : Gap
  after : Gap
  list : TypeList
  named : IsFreeOf ["where"] list.print

/-- The head of a C# class. -/
structure CSharpHeader where
  gap : Space
  name : TypeName
  parameters : Option TypeParameters
  bases : Option BaseTypes
  clauses : List WhereClause
  trailing : Gap

/-- A clause after its word. -/
def WhereClause.body (w : WhereClause) : List Char :=
  w.gap.text ++ (w.name.text ++ (w.middle.text ++ ':' :: w.bounds))

def WhereClause.print (w : WhereClause) : List Char :=
  w.before.text ++ ("where".toList ++ w.body)

def TypeParameters.print (a : TypeParameters) : List Char :=
  a.gap.text ++ '<' :: (a.text ++ ['>'])

def BaseTypes.print (b : BaseTypes) : List Char :=
  b.before.text ++ ':' :: (b.after.text ++ b.list.print)

namespace CSharpHeader

/-- What a head has after its base types. -/
def afterBases (h : CSharpHeader) : List Char :=
  h.clauses.flatMap WhereClause.print ++ h.trailing.text

/-- What a head has after its type parameters. -/
def afterParameters (h : CSharpHeader) : List Char :=
  (h.bases.map BaseTypes.print).getD [] ++ h.afterBases

/-- What a head has after its name. -/
def afterName (h : CSharpHeader) : List Char :=
  (h.parameters.map TypeParameters.print).getD [] ++ h.afterParameters

def print (h : CSharpHeader) : List Char :=
  "class".toList ++ (h.gap.text ++ (h.name.text ++ h.afterName))

/-- A text that holds this head, and outside of it no class. -/
def IsOnlyClassOf (h : CSharpHeader) (masked : List Char) : Prop :=
  ∃ front back, masked = front ++ (h.print ++ '\x7b' :: back) ∧ IsBeforeClass front
    ∧ IsFreeOf ["class"] back

/-- The base types of a head, in its order. -/
def baseTypes (h : CSharpHeader) : List TypeUse :=
  (h.bases.map fun b => b.list.types).getD []

end CSharpHeader

/-! ## The parts of the pattern -/

/-- The type parameters. -/
def parameterList : Pattern :=
  blanks ++ lit "<" ++ many (fun c => c != '\x7b' && c != ':') ++ lit ">"

/-- The list of base types. -/
def baseList : Pattern :=
  blanks ++ lit ":" ++ blanks ++ capture 2 (few1 fun c => c != '\x7b' && c != ';')

/-- Constraints on type parameters. -/
def constraints : Pattern :=
  wordEdge ++ lit "where" ++ wordEdge ++ many fun c => c != '\x7b' && c != ';'

/-- What stands before the body of a class. -/
def bodyStart : Pattern :=
  blanks ++ (opt constraints ++ char (· == '\x7b'))

theorem csharpClass_eq :
    csharpClass = classFront ++ opt parameterList ++ opt baseList ++ blanks ++ opt constraints
      ++ char (· == '\x7b') := rfl

theorem followsBlanks_parameterList : FollowsBlanks '<' parameterList :=
  ((followsBlanks_lit rfl).append _).append _

theorem followsBlanks_baseList : FollowsBlanks ':' baseList :=
  ((followsBlanks_lit rfl).append _).append _

theorem followsBlanks_constraints : FollowsBlanks 'w' constraints := by
  refine FollowsBlanks.append (FollowsBlanks.append ?_ _) _
  rintro before _ rest ⟨_, _, rfl, ⟨rfl, -⟩, hword⟩
  rw [takes_lit] at hword
  subst hword
  exact ⟨[], "here".toList, fun c hc => absurd hc List.not_mem_nil, rfl⟩

theorem bne_of_accepts {accepts : Char → Bool} {c d : Char} (hc : accepts c = true)
    (hd : accepts d = false) : (c != d) = true := by
  rw [bne_iff_ne]
  rintro rfl
  exact Bool.false_ne_true (hd.symm.trans hc)

theorem isWord_of_mem_where : ∀ c ∈ "where".toList, isWord c = true :=
  forall_mem_of_all (by decide)

theorem isBoundChar_of_isListChar {c : Char} (h : isListChar c = true) : isBoundChar c = true := by
  rw [isBoundChar, h, Bool.true_or]

theorem accepts_of_isBoundChar {c : Char} (h : isBoundChar c = true) :
    (c != '\x7b' && c != ';') = true := by
  rw [bne_of_accepts h (by decide), bne_of_accepts h (by decide)]
  rfl

theorem accepts_of_isListChar {c : Char} (h : isListChar c = true) :
    (c != '\x7b' && c != ':') = true := by
  rw [bne_of_accepts h (by decide), bne_of_accepts h (by decide)]
  rfl

/-! ## The start of the body -/

theorem WhereClause.body_isBoundChar (w : WhereClause) : ∀ c ∈ w.body, isBoundChar c = true := by
  intro c hc
  simp only [body, List.mem_append, List.mem_cons] at hc
  rcases hc with hgap | hname | hmiddle | rfl | hbounds
  · exact isBoundChar_of_isListChar (w.gap.isListChar c hgap)
  · exact isBoundChar_of_isListChar (isListChar_of_isWord (w.name.ofWords c hname))
  · exact isBoundChar_of_isListChar (w.middle.isListChar c hmiddle)
  · rfl
  · exact w.ofBounds c hbounds

theorem WhereClause.print_isBoundChar (w : WhereClause) : ∀ c ∈ w.print, isBoundChar c = true := by
  intro c hc
  rcases List.mem_append.mp hc with hbefore | hc
  · exact isBoundChar_of_isListChar (w.before.isListChar c hbefore)
  · rcases List.mem_append.mp hc with hword | hbody
    · exact isBoundChar_of_isListChar (isListChar_of_isWord (isWord_of_mem_where c hword))
    · exact w.body_isBoundChar c hbody

/-- The word `where` and all that stands between it and the brace. -/
theorem takesFirst_constraints (gap : Space) {after back : List Char}
    (hhead : ∀ c ∈ (after ++ '\x7b' :: back).head?, isWord c = false)
    (hafter : ∀ c ∈ after, (c != '\x7b' && c != ';') = true) {limit : Nat} {p : Place}
    (htext : p.rest = gap.text ++ ("where".toList ++ (after ++ '\x7b' :: back))) :
    ∃ s, bodyStart.TakesFirst limit p s back [] := by
  obtain ⟨s, g, hg⟩ := (List.eq_nil_or_concat gap.text).resolve_left gap.nonempty
  have hblank : isWord g = false := isWord_of_isBlank (gap.ofBlanks g (by rw [hg]; simp))
  have hblanks : blanks.TakesFirst limit p gap.text
      ("where".toList ++ (after ++ '\x7b' :: back)) [] :=
    gap.toGap.takesFirst (forall_head?_cons (by decide) _) htext
  obtain ⟨q, hq⟩ : ∃ q, q = p.after gap.text ("where".toList ++ (after ++ '\x7b' :: back)) [] :=
    ⟨_, rfl⟩
  have hrest : q.rest = "where".toList ++ (after ++ '\x7b' :: back) := by rw [hq]; rfl
  -- the word stands between a blank and what is no part of a name
  have hleft : wordEdge.TakesFirst limit q [] q.rest [] := by
    refine takesFirst_wordEdge ?_
    have hbefore : q.before = some g := by
      rw [hq, ← lastOr_snoc p.before s g, ← List.concat_eq_append, ← hg]
      rfl
    rw [hbefore, hrest, Option.any_some, hblank]
    show false ≠ isWord 'w'
    decide
  have hword : (lit "where").TakesFirst limit (q.after [] q.rest []) "where".toList
      (after ++ '\x7b' :: back) [] := takesFirst_lit hrest
  have hright : wordEdge.TakesFirst limit
      (q.after ([] ++ "where".toList) (after ++ '\x7b' :: back) ([] ++ [])) []
      (after ++ '\x7b' :: back) [] := by
    refine takesFirst_wordEdge ?_
    have hnext : (after ++ '\x7b' :: back).head?.any isWord = false := by
      cases hc : (after ++ '\x7b' :: back).head? with
      | none => rfl
      | some c => rw [Option.any_some, hhead c hc]
    show (lastOr q.before ("wher".toList ++ ['e'])).any isWord
      ≠ (after ++ '\x7b' :: back).head?.any isWord
    rw [lastOr_snoc, hnext, Option.any_some]
    decide
  have hmany : (many fun c => c != '\x7b' && c != ';').TakesFirst limit
      (q.after ([] ++ "where".toList ++ []) (after ++ '\x7b' :: back) ([] ++ ([] ++ []))) after
      ('\x7b' :: back) [] := takesFirst_many rfl hafter (forall_head?_cons rfl back)
  have hclause := ((hleft.append hword).append hright).append hmany
  rw [hq] at hclause
  exact ⟨_, hblanks.append (hclause.opt.append (takesFirst_char rfl rfl))⟩

/-- The constraints are passed over up to the brace. -/
theorem takesFirst_bodyStart (clauses : List WhereClause) (trailing : Gap) {back : List Char}
    (limit : Nat) {p : Place}
    (htext : p.rest = clauses.flatMap WhereClause.print ++ (trailing.text ++ '\x7b' :: back)) :
    ∃ s, bodyStart.TakesFirst limit p s back [] := by
  cases clauses with
  | nil =>
      have hblanks : blanks.TakesFirst limit p trailing.text ('\x7b' :: back) [] :=
        trailing.takesFirst (forall_head?_cons rfl back) htext
      have hskip : (opt constraints).TakesFirst limit (p.after trailing.text ('\x7b' :: back) []) []
          ('\x7b' :: back) [] :=
        followsBlanks_constraints.skipped rfl (by
          show visible ('\x7b' :: back) ≠ some 'w'
          rw [visible_cons rfl]
          decide) limit
      exact ⟨_, hblanks.append (hskip.append (takesFirst_char rfl rfl))⟩
  | cons w clauses =>
      have hbody : ∀ rest, ∀ c ∈ (w.body ++ rest).head?, isWord c = false := by
        intro rest c hc
        rw [WhereClause.body, List.append_assoc] at hc
        exact isWord_eq_false (w.gap.head_append _ c hc)
      have hbounds : ∀ c ∈ w.body ++ (clauses.flatMap WhereClause.print ++ trailing.text),
          (c != '\x7b' && c != ';') = true := by
        intro c hc
        refine accepts_of_isBoundChar ?_
        rcases List.mem_append.mp hc with hc | hc
        · exact w.body_isBoundChar c hc
        · rcases List.mem_append.mp hc with hc | hc
          · obtain ⟨v, -, hv⟩ := List.mem_flatMap.mp hc
            exact v.print_isBoundChar c hv
          · exact isBoundChar_of_isListChar (trailing.isListChar c hc)
      have htext : p.rest = w.before.text ++ ("where".toList ++ ((w.body
          ++ (clauses.flatMap WhereClause.print ++ trailing.text)) ++ '\x7b' :: back)) := by
        rw [htext]
        simp [WhereClause.print]
      refine takesFirst_constraints w.before (fun c hc => ?_) hbounds htext
      rw [List.append_assoc] at hc
      exact hbody _ c hc

/-- Blanks at the front of a stretch that does not end with a blank end before the stretch does. -/
theorem IsGap.exists_behind {gap e x s : List Char} (hgap : IsGap gap) (he : e ≠ [])
    (hlast : ∀ c ∈ e.getLast?, isBlank c = false) (h : e ++ x = gap ++ s) :
    ∃ inner, inner ≠ [] ∧ e = gap ++ inner ∧ inner ++ x = s := by
  obtain ⟨front, c, rfl⟩ := (List.eq_nil_or_concat e).resolve_left he
  rw [List.concat_eq_append] at hlast h ⊢
  have hc : isBlank c = false := hlast c (by simp)
  rcases List.append_eq_append_iff.mp h with ⟨more, hwhole, -⟩ | ⟨more, hwhole, hmore⟩
  · exact absurd (show c ∈ gap by rw [hwhole]; simp) (hgap.not_mem hc)
  · refine ⟨more, ?_, hwhole, hmore.symm⟩
    rintro rfl
    rw [List.append_nil] at hwhole
    exact hgap.not_mem hc (by rw [← hwhole]; simp)

/-- **No list of base types is cut short.** Inside a list in which no type is named `where`, neither
constraints nor the body start. -/
theorem bodyStart_fails {d e x : List Char} (hfree : IsFreeOf ["where"] (d ++ e))
    (he : e ≠ []) (hlast : ∀ c ∈ e.getLast?, isBlank c = false) (hbrace : '\x7b' ∉ e)
    (hx : ∀ c ∈ x.head?, isWord c = false) (limit : Nat) {q : Place} {before : Option Char}
    (hbefore : q.before = lastOr before d) (htext : q.rest = e ++ x) :
    bodyStart.Fails limit q := by
  refine fails_of_not_takes fun taken rest hrest htakes => ?_
  obtain ⟨gap, _, rfl, hgap, ⟨s, _, rfl, hopt, ⟨b, hb, rfl⟩⟩⟩ := htakes
  obtain rfl := beq_iff_eq.mp hb
  rw [htext, List.append_assoc, List.append_assoc] at hrest
  obtain ⟨inner, hne, rfl, hinner⟩ := IsGap.exists_behind hgap he hlast hrest
  rcases takes_opt.mp hopt with hclause | rfl
  · obtain ⟨_, bounds, rfl, ⟨_, _, rfl, ⟨_, _, rfl, ⟨rfl, hleft⟩, hword⟩, ⟨rfl, hright⟩⟩, -⟩ :=
      hclause
    rw [takes_lit] at hword
    subst hword
    simp only [List.nil_append, List.append_nil, List.append_assoc] at hinner
    obtain ⟨back, rfl, hback⟩ := word_in_stretch isWord_of_mem_where hne (Or.inr hx) hinner
    refine hfree "where".toList ?_ (by decide)
    rw [← List.append_assoc]
    refine mem_runs_of_occurrence (by decide) (fun c hc => by simp [isWord_of_mem_where c hc])
      (fun c hc => ?_) (fun c hc => ?_)
    · have hc : lastOr q.before gap = some c := by
        rw [hbefore, ← lastOr_append, lastOr, hc]
        rfl
      have hne : isWord c ≠ true := by
        rw [hc] at hleft
        exact hleft
      simp [hne]
    · have hne : true ≠ isWord c := by
        have hnext : (bounds ++ (['\x7b'] ++ rest)).head? = some c := by
          rw [hback, List.head?_append, hc]
          rfl
        rw [List.nil_append, show "where".toList = "wher".toList ++ ['e'] from rfl, lastOr_snoc,
          hnext] at hright
        exact hright
      simp [hne.symm]
  · obtain ⟨c, inner, rfl⟩ := List.exists_cons_of_ne_nil hne
    obtain ⟨rfl, -⟩ := List.cons.inj hinner
    exact hbrace (by simp)

/-- **The base types are remembered as they are written**, whatever arguments they have, if the body
starts behind them. -/
theorem takesFirst_baseList (b : BaseTypes) {tail back : List Char} {limit : Nat} {p : Place}
    (htail : ∀ c ∈ tail.head?, isWord c = false)
    (hbody : ∀ q : Place, q.rest = tail → ∃ s, bodyStart.TakesFirst limit q s back [])
    (htext : p.rest = b.print ++ tail) :
    ∃ (c : Capture) (s : List Char), c.text = b.list.print
      ∧ (opt baseList ++ bodyStart).TakesFirst limit p s back [(2, c)] := by
  have htext : p.rest = b.before.text ++ ':' :: (b.after.text ++ (b.list.print ++ tail)) := by
    rw [htext]
    simp [BaseTypes.print]
  have hlist : ∀ c ∈ (b.list.print ++ tail).head?, isBlank c = false :=
    fun c hc => isBlank_of_isWord (b.list.print_head tail c hc)
  have hcolon : (blanks ++ lit ":").TakesFirst limit p (b.before.text ++ [':'])
      (b.after.text ++ (b.list.print ++ tail)) [] := b.before.takesFirst_mark rfl rfl htext
  have hfront := hcolon.append (b.after.takesFirst hlist rfl)
  obtain ⟨q, hq⟩ : ∃ q, q = p.after (b.before.text ++ [':'] ++ b.after.text)
      (b.list.print ++ tail) ([] ++ []) := ⟨_, rfl⟩
  have hrest : q.rest = b.list.print ++ tail := by rw [hq]; rfl
  have hclass : ∀ c ∈ b.list.print, (c != '\x7b' && c != ';') = true := fun c hc =>
    accepts_of_isBoundChar (isBoundChar_of_isListChar (b.list.print_isListChar c hc))
  obtain ⟨s, hbody⟩ := hbody (q.after b.list.print tail
    [(2, ⟨q.index, q.index + b.list.print.length, q.rest⟩)]) rfl
  have hcaptured := takesFirst_few1_captured hrest b.list.print_ne_nil hclass hbody
    fun d e more hde _ he => ?_
  · have htext : Capture.text ⟨q.index, q.index + b.list.print.length, q.rest⟩ = b.list.print := by
      rw [Capture.text, hrest, Nat.add_sub_cancel_left, List.take_left]
    subst hq
    exact ⟨_, _, htext, (takesFirst_append_assoc.mpr (hfront.append hcaptured)).opt_append⟩
  · refine bodyStart_fails (hde ▸ b.named) he (fun c hc => ?_) (fun hmem => ?_) htail limit rfl rfl
    · refine b.list.print_last c ?_
      rw [hde, List.getLast?_append_of_ne_nil d he]
      exact hc
    · have hlist := b.list.print_isListChar '\x7b' (hde ▸ List.mem_append_right d hmem)
      exact absurd hlist (by decide)

/-! ## What is read of a head -/

namespace CSharpHeader

variable {h : CSharpHeader} {back : List Char} {p : Place} {limit : Nat} {m : Match}

/-- What a head has after its base types does not go on with a name. -/
theorem afterBases_head (h : CSharpHeader) (back : List Char) :
    ∀ c ∈ (h.afterBases ++ '\x7b' :: back).head?, isDottedWord c = false := by
  rw [afterBases, List.append_assoc]
  cases h.clauses with
  | nil => exact h.trailing.head_append (forall_head?_cons (by decide) back)
  | cons w clauses =>
      rw [List.flatMap_cons, WhereClause.print, List.append_assoc, List.append_assoc]
      exact w.before.head_append _

theorem visible_afterBases (h : CSharpHeader) (back : List Char) :
    visible (h.afterBases ++ '\x7b' :: back) = some 'w'
      ∨ visible (h.afterBases ++ '\x7b' :: back) = some '\x7b' := by
  rw [afterBases, List.append_assoc]
  cases h.clauses with
  | nil =>
      right
      rw [List.flatMap_nil, List.nil_append, visible_append h.trailing.ofBlanks, visible_cons rfl]
  | cons w clauses =>
      left
      rw [List.flatMap_cons, WhereClause.print, List.append_assoc, List.append_assoc,
        visible_append w.before.ofBlanks]
      exact visible_cons (c := 'w') rfl _

/-- What a head has after its type parameters. -/
theorem takesFirst_bases (h : CSharpHeader) (limit : Nat)
    (htext : p.rest = h.afterParameters ++ '\x7b' :: back) :
    ∃ (found : Option Capture) (s : List Char),
      found.map Capture.text = h.bases.map (fun b => b.list.print)
      ∧ (opt baseList ++ bodyStart).TakesFirst limit p s back (found.map (Prod.mk 2)).toList := by
  have hbody : ∀ q : Place, q.rest = h.afterBases ++ '\x7b' :: back →
      ∃ s, bodyStart.TakesFirst limit q s back [] := fun q hq =>
    takesFirst_bodyStart h.clauses h.trailing limit (hq.trans (List.append_assoc ..))
  rw [afterParameters, List.append_assoc] at htext
  cases hbases : h.bases with
  | none =>
      rw [hbases] at htext
      have htext : p.rest = h.afterBases ++ '\x7b' :: back := htext
      have hnext : visible p.rest ≠ some ':' := by
        rw [htext]
        rcases h.visible_afterBases back with hnext | hnext <;> rw [hnext] <;> decide
      obtain ⟨s, hbody⟩ := hbody (p.after [] p.rest []) htext
      exact ⟨none, _, rfl, (followsBlanks_baseList.skipped rfl hnext limit).append hbody⟩
  | some b =>
      rw [hbases] at htext
      have hhead : ∀ c ∈ (h.afterBases ++ '\x7b' :: back).head?, isWord c = false := fun c hc =>
        isWord_eq_false (h.afterBases_head back c hc)
      obtain ⟨c, s, hc, htakes⟩ := takesFirst_baseList b hhead hbody htext
      exact ⟨some c, s, congrArg some hc, htakes⟩

/-- Up to the next colon or the brace a head has names and blanks after its type parameters. -/
theorem afterParameters_split (h : CSharpHeader) (back : List Char) :
    ∃ t r, h.afterParameters ++ '\x7b' :: back = t ++ r
      ∧ (∀ c ∈ t, isWord c = true ∨ isBlank c = true)
      ∧ ∀ c ∈ r.head?, (c != '\x7b' && c != ':') = false := by
  rw [afterParameters, List.append_assoc]
  cases h.bases with
  | some b =>
      refine ⟨b.before.text, ':' :: (b.after.text ++ b.list.print
        ++ (h.afterBases ++ '\x7b' :: back)), ?_, fun c hc => Or.inr (b.before.ofBlanks c hc),
        forall_head?_cons rfl _⟩
      simp [BaseTypes.print]
  | none =>
      rw [afterBases, List.append_assoc]
      cases h.clauses with
      | nil =>
          exact ⟨h.trailing.text, '\x7b' :: back, rfl,
            fun c hc => Or.inr (h.trailing.ofBlanks c hc), forall_head?_cons rfl back⟩
      | cons w clauses =>
          refine ⟨w.before.text ++ ("where".toList ++ (w.gap.text ++ (w.name.text
            ++ w.middle.text))), ':' :: (w.bounds ++ (clauses.flatMap WhereClause.print
            ++ (h.trailing.text ++ '\x7b' :: back))), ?_, fun c hc => ?_, forall_head?_cons rfl _⟩
          · simp [WhereClause.print, WhereClause.body]
          · simp only [List.mem_append] at hc
            rcases hc with hbefore | hword | hgap | hname | hmiddle
            · exact Or.inr (w.before.ofBlanks c hbefore)
            · exact Or.inl (isWord_of_mem_where c hword)
            · exact Or.inr (w.gap.ofBlanks c hgap)
            · exact Or.inl (w.name.ofWords c hname)
            · exact Or.inr (w.middle.ofBlanks c hmiddle)

theorem visible_afterParameters (h : CSharpHeader) (back : List Char) :
    visible (h.afterParameters ++ '\x7b' :: back) ≠ some '<' := by
  rw [afterParameters, List.append_assoc]
  cases h.bases with
  | none =>
      show visible (h.afterBases ++ '\x7b' :: back) ≠ some '<'
      rcases h.visible_afterBases back with hnext | hnext <;> rw [hnext] <;> decide
  | some b =>
      rw [Option.map_some, Option.getD_some, BaseTypes.print, List.append_assoc,
        visible_append b.before.ofBlanks]
      exact (visible_cons (c := ':') rfl _).trans_ne (by decide)

/-- The type parameters are passed over whole. -/
theorem takesFirst_parameters (h : CSharpHeader) (limit : Nat)
    (htext : p.rest = h.afterName ++ '\x7b' :: back) :
    ∃ s, (opt parameterList).TakesFirst limit p s (h.afterParameters ++ '\x7b' :: back) [] := by
  rw [afterName, List.append_assoc] at htext
  cases hparameters : h.parameters with
  | none =>
      rw [hparameters] at htext
      have htext : p.rest = h.afterParameters ++ '\x7b' :: back := htext
      rw [← htext]
      refine ⟨[], followsBlanks_parameterList.skipped rfl ?_ limit⟩
      rw [htext]
      exact h.visible_afterParameters back
  | some a =>
      obtain ⟨t, r, hsplit, hplain, hend⟩ := h.afterParameters_split back
      have htext : p.rest = a.gap.text ++ '<' :: (a.text ++ '>' :: (t ++ r)) := by
        rw [htext, hparameters, ← hsplit]
        simp [TypeParameters.print]
      have hopener : (blanks ++ lit "<").TakesFirst limit p (a.gap.text ++ ['<'])
          (a.text ++ '>' :: (t ++ r)) [] := a.gap.takesFirst_mark rfl rfl htext
      have hclass : ∀ c ∈ a.text ++ '>' :: t, (c != '\x7b' && c != ':') = true := by
        intro c hc
        refine accepts_of_isListChar ?_
        rcases List.mem_append.mp hc with hc | hc
        · exact a.ofList c hc
        · rcases List.mem_cons.mp hc with rfl | hc
          · rfl
          · exact (hplain c hc).elim isListChar_of_isWord isListChar_of_isBlank
      have hplain : '>' ∉ t := fun hmem =>
        (hplain _ hmem).elim (fun h => absurd h (by decide)) fun h => absurd h (by decide)
      have hmany : (many (fun c => c != '\x7b' && c != ':') ++ char (· == '>')).TakesFirst limit
          (p.after (a.gap.text ++ ['<']) (a.text ++ '>' :: (t ++ r)) []) (a.text ++ ['>'])
          (t ++ r) [] := takesFirst_many_char rfl hclass hplain hend
      rw [hsplit]
      exact ⟨_, (takesFirst_append_assoc.mpr (hopener.append hmany)).opt⟩

theorem afterName_head (h : CSharpHeader) (back : List Char) :
    ∀ c ∈ (h.afterName ++ '\x7b' :: back).head?, isWord c = false := by
  have hdotted : ∀ c ∈ (h.afterName ++ '\x7b' :: back).head?, isDottedWord c = false := by
    rw [afterName, afterParameters, List.append_assoc, List.append_assoc]
    cases h.parameters with
    | some a =>
        rw [Option.map_some, Option.getD_some, TypeParameters.print, List.append_assoc]
        exact a.gap.head_append (forall_head?_cons (by decide) _)
    | none =>
        cases h.bases with
        | some b =>
            rw [Option.map_some, Option.getD_some, BaseTypes.print, List.append_assoc]
            exact b.before.head_append (forall_head?_cons (by decide) _)
        | none => exact h.afterBases_head back
  exact fun c hc => isWord_eq_false (hdotted c hc)

theorem takesFirst_front (hp : StartsAt h.print back limit p) :
    ∃ c : Capture, c.text = h.name.text
      ∧ classFront.TakesFirst limit p ("class".toList ++ (h.gap.text ++ h.name.text))
        (h.afterName ++ '\x7b' :: back) [(1, c)] := by
  refine takesFirst_classFront h.gap h.name (h.afterName_head back) hp.before ?_
  rw [hp.text]
  simp [print]

/-- **A head is matched whole**, with its name and with its base types as they are written. -/
theorem exists_match (hp : StartsAt h.print back limit p) :
    ∃ m, csharpClass.matchHere? limit p = some m ∧ m.group 1 = h.name.text
      ∧ m.group? 2 = h.bases.map (fun b => b.list.print)
      ∧ m.stop = p.index + (h.print ++ ['\x7b']).length := by
  obtain ⟨c, hc, hfront⟩ := takesFirst_front hp
  obtain ⟨s, hparameters⟩ := h.takesFirst_parameters limit (p := p.after
    ("class".toList ++ (h.gap.text ++ h.name.text)) (h.afterName ++ '\x7b' :: back) [(1, c)]) rfl
  obtain ⟨found, t, hfound, hbases⟩ := h.takesFirst_bases limit (p := p.after
    ("class".toList ++ (h.gap.text ++ h.name.text) ++ s) (h.afterParameters ++ '\x7b' :: back)
    ([] ++ [(1, c)])) rfl
  have hall := (hfront.append hparameters).append hbases
  have htakes : csharpClass.TakesFirst limit p _ back _ := ⟨hall.text, hall.first⟩
  have htaken : "class".toList ++ (h.gap.text ++ h.name.text) ++ s ++ t = h.print ++ ['\x7b'] := by
    refine (List.append_left_inj back).mp ?_
    rw [← htakes.text, hp.text, List.append_assoc]
    rfl
  have hmatch := matchHere?_of_takesFirst htakes
  rw [htaken, hp.captures] at hmatch
  refine ⟨_, hmatch, ?_, ?_, rfl⟩
  · rw [← hc]
    cases found <;> rfl
  · rw [← hfound]
    cases found <;> rfl

theorem startsAtClass_csharpClass : StartsAtClass csharpClass := by
  rw [csharpClass_eq]
  exact (((((startsAtClass_front.append _).append _).append _).append _).append _).append _

/-- In a text that holds a head, and outside of it no class, this head is all that is found. -/
theorem IsOnlyClassOf.findAll {masked : List Char} (hmasked : h.IsOnlyClassOf masked) :
    ∃ m, csharpClass.findAll masked = [m] ∧ m.group 1 = h.name.text
      ∧ m.group? 2 = h.bases.map fun b => b.list.print := by
  obtain ⟨front, back, rfl, hfront, hfree⟩ := hmasked
  obtain ⟨m, hm, hname, hbases, hstop⟩ :=
    exists_match (startsAt_of_isBeforeClass hfront h.print back)
  refine ⟨m, ?_, hname, hbases⟩
  have htext : h.print ++ '\x7b' :: back = h.print ++ ['\x7b'] ++ [] ++ back := by simp
  rw [htext] at hm ⊢
  refine findAll_of_one_class (u := []) startsAtClass_csharpClass hfront
    (List.append_ne_nil_of_right_ne_nil _ (List.cons_ne_nil _ _)) hfree hm ?_
  rw [hstop, List.append_nil]

/-! ## The edges of a head -/

/-- The edges to the base types, in the order of the head. -/
def baseEdges (h : CSharpHeader) (file : String) (target : String → String) : List Edge :=
  h.baseTypes.map fun type =>
    ⟨file, target type.name.toString, .inherits,
      h.name.toString ++ " : " ++ String.ofList type.print⟩

/-- The names of the base types. -/
def supertypes (h : CSharpHeader) : List String :=
  h.baseTypes.map fun type => type.name.toString

theorem csharpBases_eq (hname : m.group 1 = h.name.text)
    (hbases : m.group? 2 = h.bases.map fun b => b.list.print) :
    csharpBases m = h.baseTypes.map fun type =>
      ⟨.inherits, type.name.text, h.name.text ++ " : ".toList ++ type.print⟩ := by
  have hparts : parts (m.group 2) = h.baseTypes.map TypeUse.print := by
    rw [Match.group, hbases, baseTypes]
    cases h.bases with
    | none => exact parts_nil
    | some b =>
        have hlist := b.list.parts_print noGap
        rw [noGap, List.append_nil] at hlist
        exact hlist
  rw [csharpBases, hparts, List.filterMap_map, ← List.filterMap_eq_map]
  refine List.filterMap_congr fun type _ => ?_
  simp [type.withoutArguments_print, type.name.nonempty, hname]

/-- The references of a file with one head that are inheritance. -/
theorem symbolUses_of_findAll {masked : List Char} (hfound : csharpClass.findAll masked = [m]) :
    ∃ uses, symbolUses .csharp masked = .ok uses
      ∧ uses.filter (·.kind == .inherits) = csharpBases m := by
  refine ⟨_, rfl, ?_⟩
  rw [hfound, List.flatMap_singleton, List.filter_append, List.filter_eq_self.mpr,
    List.filter_eq_nil_iff.mpr, List.append_nil]
  · intro use huse
    obtain ⟨_, -, rfl⟩ := List.mem_map.mp huse
    exact Bool.false_ne_true
  · intro use huse
    obtain ⟨type, -, htype⟩ := List.mem_filterMap.mp huse
    dsimp only at htype
    split at htype
    · exact nomatch htype
    · rw [← Option.some.inj htype]
      rfl

/-- The edges that the base types make. -/
theorem edges_of_bases {table : FileTable} {file : String} {target : String → String}
    (hdeclared : ∀ name ∈ h.supertypes, declaringFile? table name = some (target name))
    (hname : m.group 1 = h.name.text)
    (hbases : m.group? 2 = h.bases.map fun b => b.list.print) :
    (csharpBases m).filterMap ((Extractor.ofTable table).symbolEdge? file)
      = h.baseEdges file target := by
  rw [csharpBases_eq hname hbases]
  exact edges_of_names .inherits h.name " : " TypeUse.name TypeUse.print fun type htype =>
    hdeclared _ (List.mem_map.mpr ⟨type, htype, rfl⟩)

end CSharpHeader

/-- **A C# head yields one edge for each base type.** In a file with one class, whose head names
declared types: the edges of inheritance are one for each base type, in the order of the head, to the
first file that declares it. Names in arguments, in type parameters and in constraints make none. -/
theorem csharp_head_yields_one_edge_for_each_base {tree : Tree} {workingDirectory : Path}
    {table : FileTable} {x : Extractor} (hx : x.IsFor tree workingDirectory table) {file : String}
    (hfile : (Path.ofString file).hasNul = false) {h : CSharpHeader} {text : List Char}
    (htext : h.IsOnlyClassOf (maskComments Language.csharp.rawQuote text))
    {target : String → String}
    (hdeclared : ∀ name ∈ h.supertypes, declaringFile? table name = some (target name)) :
    ∃ scan y, x.extract tree workingDirectory file text .csharp = .ok (scan, y)
      ∧ scan.edges.filter (·.kind == .inherits) = h.baseEdges file target := by
  obtain ⟨m, hfound, hname, hbases⟩ := htext.findAll
  obtain ⟨uses, huses, hinherits⟩ := CSharpHeader.symbolUses_of_findAll hfound
  obtain ⟨scan, y, hscan, hedges⟩ := Extractor.edges_of_symbolUses hx hfile huses
  refine ⟨scan, y, hscan, ?_⟩
  rw [hedges .inherits (by decide), hinherits]
  exact CSharpHeader.edges_of_bases hdeclared hname hbases

/-! ## A head with nested arguments and constraints -/

/-- A table that declares two types. -/
def declaredStores : FileTable :=
  [⟨"/w/Store.cs", .csharp, [], [⟨"Store", "Class: Store", 1, [], [], []⟩], [], none⟩,
    ⟨"/w/ICache.cs", .csharp, [], [⟨"ICache", "Interface: ICache", 1, [], [], []⟩], [], none⟩]

/-- A class with two base types and two constraints, one of which is the word `class`. -/
def cacheText : List Char :=
  ("public class Cache<K, V> : Store<K, Map<K, List<V>>>, ICache\n"
    ++ "    where K : class, IKey<K>\n    where V : new() \x7b\n\x7d\n").toList

/-- A line break with some blanks. -/
def nextLine : Space := ⟨⟨"\n    ".toList, forall_mem_of_all (by decide)⟩, by decide⟩

/-- The head of the class. -/
def cacheHeader : CSharpHeader where
  gap := oneSpace
  name := .ofString "Cache" (by decide) (by decide)
  parameters := some ⟨noGap, "K, V".toList, forall_mem_of_all (by decide)⟩
  bases := some ⟨oneSpace.toGap, oneSpace.toGap, ⟨⟨.ofString "Store" (by decide) (by decide),
      some <| .ofString "K, Map<K, List<V>>" (by decide) (by decide) (by decide)⟩,
    [⟨noGap, oneSpace.toGap, .ofString "ICache" (by decide) (by decide), none⟩]⟩, by decide⟩
  clauses := [
    ⟨nextLine, oneSpace, .ofString "K" (by decide) (by decide), oneSpace.toGap,
      " class, IKey<K>".toList, forall_mem_of_all (by decide)⟩,
    ⟨nextLine, oneSpace, .ofString "V" (by decide) (by decide), oneSpace.toGap,
      " new()".toList, forall_mem_of_all (by decide)⟩]
  trailing := oneSpace.toGap

theorem cache_yields_two_edges :
    cacheHeader.IsOnlyClassOf (maskComments Language.csharp.rawQuote cacheText)
      ∧ ∃ scan y, (Extractor.ofTable declaredStores).extract (.dir []) ⟨1, ["w"]⟩ "/w/Cache.cs"
          cacheText .csharp = .ok (scan, y)
        ∧ scan.edges.filter (·.kind == .inherits)
          = [⟨"/w/Cache.cs", "/w/Store.cs", .inherits, "Cache : Store<K, Map<K, List<V>>>"⟩,
            ⟨"/w/Cache.cs", "/w/ICache.cs", .inherits, "Cache : ICache"⟩] := by
  have htext : cacheHeader.IsOnlyClassOf (maskComments Language.csharp.rawQuote cacheText) :=
    ⟨"public".toList ++ [' '], "\n\x7d\n".toList, by decide +kernel,
      isBeforeClass_blank rfl (by decide), by decide⟩
  have hfile : (Path.ofString "/w/Cache.cs").hasNul = false := by decide
  have hdeclared : ∀ name ∈ cacheHeader.supertypes, declaringFile? declaredStores name
      = some ((fun name => "/w/" ++ name ++ ".cs") name) := by decide
  obtain ⟨scan, y, hscan, hedges⟩ := csharp_head_yields_one_edge_for_each_base
    (Extractor.isFor_ofTable declaredStores) hfile htext hdeclared
  exact ⟨htext, scan, y, hscan, hedges⟩

end ServiceMap.Link
