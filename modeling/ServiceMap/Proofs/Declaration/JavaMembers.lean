import ServiceMap.Proofs.Declaration.JavaParameters
import ServiceMap.Proofs.Declaration.Readers

/-!
# Members in print

The patterns for fields and for methods run over everything between the braces of a class. Next to
the head of a member, they may match lines of a method's body. Such a match stops before the body
does, so that the next member is met at its start, and it lies in a block of the class, so that it
is left out. What is kept are the heads that were printed.
-/

namespace ServiceMap.Declaration

open Text Source Pattern

/-! ## What may follow a name -/

/-- An end of a member's head: a semicolon, a parenthesis, or a value up to the first semicolon. -/
def IsEnding (s : List Char) : Prop :=
  s = [';'] ∨ s = ['('] ∨ ∃ value, s = '=' :: (value ++ [';']) ∧ ';' ∉ value

theorem IsClosed.of_append {s t : List Char} (h : IsClosed (s ++ t)) : IsClosed t := by
  induction s with
  | nil => exact h
  | cons c s ih => exact ih h.2

/-- An end that starts in closed text before a brace does not reach the brace. -/
theorem IsEnding.length_le {s more t rest : List Char} (h : IsEnding s) (ht : IsClosed t)
    (htext : s ++ more = t ++ '\x7d' :: rest) : s.length ≤ t.length := by
  cases t with
  | nil =>
      rcases h with rfl | rfl | ⟨value, rfl, -⟩
      · exact absurd (List.cons.inj htext).1 (by decide)
      · exact absurd (List.cons.inj htext).1 (by decide)
      · exact absurd (List.cons.inj htext).1 (by decide)
  | cons c t =>
      rcases h with rfl | rfl | ⟨value, rfl, hvalue⟩
      · exact Nat.succ_le_succ (Nat.zero_le _)
      · exact Nat.succ_le_succ (Nat.zero_le _)
      · obtain ⟨hc, hrest⟩ : '=' = c ∧ (value ++ [';']) ++ more = t ++ '\x7d' :: rest :=
          List.cons.inj htext
        subst hc
        obtain ⟨x, y, rfl, hx⟩ := List.eq_append_cons_of_mem (ht.1 rfl)
        have before : ∀ {s : List Char}, ';' ∉ s → ∀ c ∈ s, (c != ';') = true := fun hs c hc =>
          bne_iff_ne.mpr fun heq => hs (heq ▸ hc)
        have after : ∀ {s : List Char}, ∀ c ∈ (';' :: s).head?, (c != ';') = false :=
          fun c hc => Option.some.inj hc ▸ rfl
        rw [List.append_assoc, List.append_assoc] at hrest
        obtain ⟨rfl, -⟩ := append_inj_of_span after after value (before hvalue) (before hx) hrest
        simp only [List.length_cons, List.length_append, List.length_nil]
        omega

theorem isEnding_of_fieldEnd {before : Option Char} {taken rest : List Char}
    (h : fieldEnd.Takes before taken rest) : IsEnding taken ∧ '(' ∉ taken.head? := by
  obtain ⟨value, _, rfl, hvalue, hend⟩ := h
  obtain rfl := takes_lit.mp hend
  rcases takes_opt.mp hvalue with ⟨_, inside, rfl, hassign, hinside⟩ | rfl
  · obtain rfl := takes_lit.mp hassign
    refine ⟨Or.inr (Or.inr ⟨inside, rfl, fun hmem => ?_⟩), ?_⟩
    · exact absurd (takes_many.mp hinside ';' hmem) (by decide)
    · exact fun hmem => absurd (Option.some.inj hmem) (by decide)
  · exact ⟨Or.inl rfl, fun hmem => absurd (Option.some.inj hmem) (by decide)⟩

theorem head?_of_parenthesis {before : Option Char} {taken rest : List Char} {c : Char}
    (h : (lit "(").Takes before taken rest) (hc : c ∈ taken.head?) : c = '(' := by
  rw [takes_lit.mp h] at hc
  exact (Option.some.inj hc).symm

/-- What the patterns for members have in common. -/
structure IsMemberPattern (gap : Pattern) (excluded : List Char) (tail : Pattern) : Prop
    extends IsHeadPattern gap excluded tail where
  isEnding : ∀ before s rest, tail.Takes before s rest → IsEnding s
  semicolon : ';' ∈ excluded
  parenthesis : '(' ∈ excluded
  brace : '\x7d' ∈ excluded

theorem isMemberPattern_field :
    IsMemberPattern empty [';', '=', '(', ')', '\x7b', '\x7d'] fieldEnd where
  toIsHeadPattern := isHeadPattern_field
  isEnding := fun _ _ _ h => (isEnding_of_fieldEnd h).1
  semicolon := by decide
  parenthesis := by decide
  brace := by decide

theorem isMemberPattern_method :
    IsMemberPattern typeParameters [';', '\x7b', '\x7d', '(', ')'] (lit "(") where
  toIsHeadPattern := isHeadPattern_method
  isEnding := fun _ _ _ h => Or.inr (Or.inl (takes_lit.mp h))
  semicolon := by decide
  parenthesis := by decide
  brace := by decide

/-! ## Where a pattern for members matches -/

section Matches

variable {gap tail : Pattern} {excluded : List Char} {limit index : Nat} {before : Option Char}
  {here : Place} {m : Match}

theorem startsLine_memberHead : (memberHead gap excluded tail).StartsLine := by
  rintro before _ rest ⟨_, _, rfl, ⟨_, _, rfl, ⟨_, _, rfl, ⟨rfl, hstart⟩, -⟩, -⟩, -⟩
  exact hstart

/-- A member has a name. -/
theorem matchHere?_eq_none_of_no_word (h : ∀ c ∈ here.rest, isWord c = false) :
    (memberHead gap excluded tail).matchHere? limit here = none := by
  refine Option.eq_none_iff_forall_ne_some.mpr fun m hm => ?_
  obtain ⟨_, rest, hrest, ⟨_, _, rfl, -, _, _, rfl, -, _, _, rfl, -, _, _, rfl, -, _, _, rfl, -,
    name, _, rfl, hname, -⟩, -, -⟩ := takes_of_matchHere? hm
  obtain ⟨hne, hwords⟩ := takes_many1.mp hname
  obtain ⟨c, name, rfl⟩ := List.exists_cons_of_ne_nil hne
  refine Bool.false_ne_true ((h c ?_).symm.trans (hwords c List.mem_cons_self))
  rw [hrest]
  simp

/-- Text that heads are written with holds none of the excluded characters. -/
theorem IsHeadPattern.clear (hpattern : IsHeadPattern gap excluded tail) {s : List Char}
    (hs : ∀ c ∈ s, isHeadChar c = true) : ∀ c ∈ s, c ∉ excluded := fun c hc hmem =>
  Bool.false_ne_true ((hpattern.excluded_other c hmem).1.symm.trans (hs c hc))

theorem IsHeadPattern.excluded_class (hpattern : IsHeadPattern gap excluded tail) {stop : Char}
    (hstop : stop ∈ excluded) : stop ≠ '<' ∧ isWord stop = false ∧ isBlank stop = false := by
  obtain ⟨hchar, hblank⟩ := hpattern.excluded_other stop hstop
  refine ⟨?_, Bool.eq_false_iff.mpr fun hword => ?_, hblank⟩
  · rintro rfl
    exact absurd hchar (by decide)
  · exact Bool.false_ne_true (hchar.symm.trans (isHeadChar_of_isWord hword))

theorem hasNoTypeParameters_of_excluded (hpattern : IsHeadPattern gap excluded tail)
    {head rest : List Char} {stop : Char} (hstop : stop ∈ excluded) (hhead : '<' ∉ head) :
    HasNoTypeParameters (head ++ stop :: rest) := by
  obtain ⟨hangle, hword, hblank⟩ := hpattern.excluded_class hstop
  exact hasNoTypeParameters_of_not_mem hhead hangle hword hblank

/-- A head has characters before what ends it. -/
theorem matchHere?_eq_none_of_excluded (hpattern : IsHeadPattern gap excluded tail)
    {rest : List Char} {stop : Char} (htext : here.rest = stop :: rest) (hstop : stop ∈ excluded)
    (hat : '@' ∉ here.rest) : (memberHead gap excluded tail).matchHere? limit here = none := by
  refine Option.eq_none_iff_forall_ne_some.mpr fun m hm => ?_
  have hempty : here.rest = [] ++ stop :: rest := htext
  have hnone : HasNoTypeParameters here.rest :=
    hempty ▸ hasNoTypeParameters_of_excluded hpattern hstop List.not_mem_nil
  obtain ⟨-, parts, -⟩ := parts_of_matchHere? hpattern hempty
    (fun c hc => absurd hc List.not_mem_nil) hstop hat hnone hm
  exact parts.head_ne_nil rfl

/-- No head is found where the first excluded character cannot follow a name. -/
theorem matchHere?_eq_none_of_ending (hpattern : IsHeadPattern gap excluded tail)
    {head rest : List Char} {stop : Char} (htext : here.rest = head ++ stop :: rest)
    (hhead : ∀ c ∈ head, c ∉ excluded) (hstop : stop ∈ excluded) (hat : '@' ∉ here.rest)
    (hnone : HasNoTypeParameters here.rest)
    (hending : ∀ before s more, tail.Takes before s more → stop ∉ s.head?) :
    (memberHead gap excluded tail).matchHere? limit here = none := by
  refine Option.eq_none_iff_forall_ne_some.mpr fun m hm => ?_
  obtain ⟨-, -, -, -, -, before, ending, more, hmore, htakes, -⟩ :=
    parts_of_matchHere? hpattern htext hhead hstop hat hnone hm
  refine hending _ _ _ htakes ?_
  obtain ⟨c, hc, -⟩ := hpattern.tail_head _ _ _ htakes
  obtain ⟨ending, rfl⟩ := List.head?_eq_some_iff.mp hc
  exact congrArg some (List.cons.inj hmore).1.symm

/-- A match that starts in closed text before a brace stops before the brace. -/
theorem stop_le_of_closed (hpattern : IsMemberPattern gap excluded tail) {s rest : List Char}
    (hclosed : IsClosed s) (hangle : '<' ∉ s) (hat : '@' ∉ s ++ '\x7d' :: rest)
    (h : (memberHead gap excluded tail).matchHere? limit
      ⟨before, s ++ '\x7d' :: rest, index, []⟩ = some m) : m.stop ≤ index + s.length := by
  -- the first excluded character of the text is in `s`, or it is the brace
  obtain ⟨head, t, rfl, hhead, ht⟩ : ∃ head t, s = head ++ t ∧ (∀ c ∈ head, c ∉ excluded)
      ∧ ∀ c ∈ t.head?, c ∈ excluded := by
    refine ⟨_, _, (List.takeWhile_append_dropWhile (p := fun c => !excluded.contains c)).symm,
      fun c hc => ?_, fun c hc => ?_⟩
    · simpa using List.all_eq_true.mp List.all_takeWhile c hc
    · have hfirst := List.head?_dropWhile_not (fun c => !excluded.contains c) s
      rw [show (s.dropWhile _).head? = some c from hc] at hfirst
      simpa using hfirst
  obtain ⟨stop, more, hmore, hstop⟩ : ∃ stop more, t ++ '\x7d' :: rest = stop :: more
      ∧ stop ∈ excluded := by
    cases t with
    | nil => exact ⟨_, _, rfl, hpattern.brace⟩
    | cons c t => exact ⟨_, _, rfl, ht c rfl⟩
  have htext : (head ++ t) ++ '\x7d' :: rest = head ++ stop :: more := by
    rw [List.append_assoc, hmore]
  have hnone : HasNoTypeParameters ((head ++ t) ++ '\x7d' :: rest) := by
    rw [htext]
    exact hasNoTypeParameters_of_excluded hpattern.toIsHeadPattern hstop fun hmem =>
      hangle (List.mem_append_left t hmem)
  obtain ⟨-, -, -, -, -, _, ending, after, hending, htakes, hend⟩ :=
    parts_of_matchHere? hpattern.toIsHeadPattern htext hhead hstop hat hnone h
  have hle := (hpattern.isEnding _ _ _ htakes).length_le hclosed.of_append
    (hending.symm.trans hmore.symm)
  rw [hend, List.length_append]
  show index + (head.length + ending.length) ≤ _
  omega

/-- What a match at a printed head has found. -/
structure IsPrinted (head : JavaHead) (index : Nat) (m : Match) : Prop where
  start : m.start = index
  stop : m.stop = index + (head.print.length + 1)
  modifiers : m.group 1 = printModifiers head.modifiers
  type : m.group 2 = head.type.print
  name : m.group 3 = head.name.text

theorem isPrinted_of_matchHere? (hpattern : IsMemberPattern gap excluded tail) {head : JavaHead}
    {stop : Char} {rest : List Char} (hstop : stop ∈ excluded) (hsingle : stop ≠ '=')
    (hat : '@' ∉ head.print ++ stop :: rest)
    (h : (memberHead gap excluded tail).matchHere? limit
      ⟨before, head.print ++ stop :: rest, index, []⟩ = some m) : IsPrinted head index m := by
  obtain ⟨hangle, hword, hblank⟩ := hpattern.excluded_class hstop
  obtain ⟨_, _, _, _, hstart, _⟩ := takes_of_matchHere? h
  obtain ⟨-, parts, hwords, htype, hname, _, ending, more, hending, htakes, hend⟩ :=
    parts_of_matchHere? hpattern.toIsHeadPattern rfl (hpattern.clear head.print_isHeadChar) hstop
      hat (hasNoTypeParameters_print head rest hangle hword hblank) h
  obtain ⟨hmodifiers, hprint, htext⟩ := parts.eq_print
  refine ⟨hstart, ?_, hwords.trans hmodifiers, htype.trans hprint, hname.trans htext⟩
  -- no value follows the name
  have hlength : ending.length = 1 := by
    rcases hpattern.isEnding _ _ _ htakes with rfl | rfl | ⟨value, rfl, -⟩
    · rfl
    · rfl
    · exact absurd (List.cons.inj hending).1 hsingle
  rw [hend, hlength]

/-- A head that is followed by what the pattern asks for is found as it was printed. -/
theorem exists_isPrinted (hpattern : IsMemberPattern gap excluded tail)
    (hgap : ∀ before rest, gap.Takes before [] rest) {head : JavaHead} {stop : Char}
    {rest : List Char} (hstop : stop ∈ excluded) (hsingle : stop ≠ '=')
    (htail : ∀ before, tail.Takes before [stop] rest) (hat : '@' ∉ head.print ++ stop :: rest)
    (hlimit : (head.print ++ stop :: rest).length ≤ limit) (index : Nat) :
    ∃ m, (memberHead gap excluded tail).matchHere? limit
        ⟨some '\n', head.print ++ stop :: rest, index, []⟩ = some m
      ∧ IsPrinted head index m := by
  have hsome : ((memberHead gap excluded tail).matchHere? limit
      ⟨some '\n', head.print ++ stop :: rest, index, []⟩).isSome :=
    matchHere?_isSome_print hpattern.toIsHeadPattern hgap htail rfl rfl hlimit
  obtain ⟨m, hm⟩ := Option.isSome_iff_exists.mp hsome
  exact ⟨m, hm, isPrinted_of_matchHere? hpattern hstop hsingle hat hm⟩

/-- A head that is followed by something else is not found. -/
theorem matchHere?_print_eq_none (hpattern : IsHeadPattern gap excluded tail) {head : JavaHead}
    {stop : Char} {rest : List Char} (hstop : stop ∈ excluded)
    (hat : '@' ∉ head.print ++ stop :: rest)
    (hending : ∀ before s more, tail.Takes before s more → stop ∉ s.head?) :
    (memberHead gap excluded tail).matchHere? limit
      ⟨before, head.print ++ stop :: rest, index, []⟩ = none := by
  obtain ⟨hangle, hword, hblank⟩ := hpattern.excluded_class hstop
  exact matchHere?_eq_none_of_ending hpattern rfl (hpattern.clear head.print_isHeadChar) hstop hat
    (hasNoTypeParameters_print head rest hangle hword hblank) hending

end Matches

/-! ## The lines of a member -/

theorem printMembers_cons (member : JavaMember) (members : List JavaMember) :
    printMembers (member :: members) = member.print ++ printMembers members := List.flatMap_cons

/-- The line of a method's head. -/
def methodLine (head : JavaHead) (parameters : List JavaParameter) : List Char :=
  head.print ++ '(' :: (printParameters parameters ++ ") \x7b".toList)

theorem print_field (head : JavaHead) :
    (JavaMember.field head).print = (head.print ++ [';']) ++ ['\n'] := by
  rw [JavaMember.print, List.append_assoc]
  rfl

theorem print_method (head : JavaHead) (parameters : List JavaParameter) (body : JavaBody) :
    (JavaMember.method head parameters body).print
      = methodLine head parameters ++ '\n' :: (body.text ++ ['\x7d', '\n']) := by
  simp [JavaMember.print, methodLine]

theorem not_mem_printParameters {parameters : List JavaParameter} {c : Char}
    (hc : isHeadChar c = false) : c ∉ printParameters parameters := fun hmem =>
  Bool.false_ne_true (hc.symm.trans (isHeadChar_of_mem_printParameters hmem))

theorem newline_not_mem_methodLine (head : JavaHead) (parameters : List JavaParameter) :
    '\n' ∉ methodLine head parameters := by
  rw [methodLine, List.mem_append, List.mem_cons, List.mem_append]
  rintro (h | h | h | h)
  · exact JavaHead.not_mem_print (by decide) h
  · exact absurd h (by decide)
  · exact not_mem_printParameters (by decide) h
  · exact absurd h (by decide)

theorem depthAfter_headChars {s : List Char} (h : ∀ c ∈ s, isHeadChar c = true) (depth : Nat) :
    Bracket.curly.depthAfter depth s = some depth := by
  refine Bracket.depthAfter_of_none depth fun c hc => ⟨?_, ?_⟩
  · rintro rfl
    exact absurd (h _ hc) (by decide)
  · rintro rfl
    exact absurd (h _ hc) (by decide)

/-- The head of a method opens a block. -/
theorem depthAfter_methodLine (head : JavaHead) (parameters : List JavaParameter) (depth : Nat)
    (rest : List Char) : Bracket.curly.depthAfter depth (methodLine head parameters ++ '\n' :: rest)
      = Bracket.curly.depthAfter (depth + 1) rest := by
  have htext : methodLine head parameters ++ '\n' :: rest
      = head.print ++ ('(' :: (printParameters parameters
        ++ (')' :: ' ' :: Bracket.curly.opener :: '\n' :: rest))) := by
    simp [methodLine, Bracket.opener]
  rw [htext, Bracket.depthAfter_append, depthAfter_headChars head.print_isHeadChar,
    Option.bind_some, Bracket.depthAfter_other _ _ (by decide) (by decide),
    Bracket.depthAfter_append,
    depthAfter_headChars fun c hc => isHeadChar_of_mem_printParameters hc, Option.bind_some,
    Bracket.depthAfter_other _ _ (by decide) (by decide),
    Bracket.depthAfter_other _ _ (by decide) (by decide), Bracket.depthAfter_opener,
    Bracket.depthAfter_other _ _ (by decide) (by decide)]

/-- The braces of a member are balanced. -/
theorem JavaMember.print_isBalanced (member : JavaMember) :
    Bracket.curly.IsBalanced member.print := by
  cases member with
  | field head =>
      rw [print_field, List.append_assoc, Bracket.IsBalanced, Bracket.depthAfter_append,
        depthAfter_headChars head.print_isHeadChar]
      rfl
  | method head parameters body =>
      rw [print_method, Bracket.IsBalanced, depthAfter_methodLine, Bracket.depthAfter_append,
        Bracket.depthAfter_add 1 body.balanced]
      rfl

/-! ## The matches of a member -/

section Members

variable {gap tail : Pattern} {excluded : List Char} {limit : Nat}

theorem JavaBody.isClosed_of_append {body : JavaBody} {s t : List Char} (h : body.text = s ++ t) :
    IsClosed t :=
  IsClosed.of_append (s := s) (h ▸ body.closed)

theorem JavaBody.not_mem_angle (body : JavaBody) : '<' ∉ body.text := fun hmem =>
  (body.plain '<' hmem).2 (by decide)

/-- The matches that start in a body stop in it, and none starts at the brace after it. -/
theorem allFrom_body (hpattern : IsMemberPattern gap excluded tail) (body : JavaBody)
    {seen : List Char} (hat : '@' ∉ body.text ++ '\x7d' :: '\n' :: seen) (limit index : Nat) :
    ∃ nested, (memberHead gap excluded tail).allFrom limit 0 (some '\n') index
          (body.text ++ '\x7d' :: '\n' :: seen)
        = nested ++ (memberHead gap excluded tail).allFrom limit 0 (some '\n')
          (index + body.text.length + 2) seen
      ∧ ∀ m ∈ nested, ∃ front back, body.text = front ++ back ∧ m.start = index + front.length := by
  have hstops : ∀ d e m, body.text = d ++ e → e ≠ [] →
      (memberHead gap excluded tail).matchHere? limit ⟨lastOr (some '\n') d,
        e ++ '\x7d' :: '\n' :: seen, index + d.length, []⟩ = some m →
        m.stop ≤ index + body.text.length := by
    intro d e m htext _ hm
    have hle := stop_le_of_closed hpattern (JavaBody.isClosed_of_append htext)
      (fun hmem => body.not_mem_angle (htext ▸ List.mem_append_right d hmem))
      (fun hmem => hat (by rw [htext, List.append_assoc]; exact List.mem_append_right d hmem)) hm
    rw [htext, List.length_append]
    omega
  have hbrace : ∀ before index, (memberHead gap excluded tail).matchHere? limit
      ⟨before, ['\x7d'] ++ '\n' :: seen, index, []⟩ = none := fun before index =>
    matchHere?_eq_none_of_excluded hpattern.toIsHeadPattern rfl hpattern.brace fun hmem =>
      hat (List.mem_append_right _ hmem)
  have hclose : ∀ before index, (memberHead gap excluded tail).allFrom limit 0 before index
      (['\x7d'] ++ '\n' :: seen)
        = (memberHead gap excluded tail).allFrom limit 0 (some '\n') (index + 2) seen := by
    intro before index
    refine (allFrom_line startsLine_memberHead (by decide) fun m hm =>
      nomatch (hbrace before index).symm.trans hm).trans ?_
    rw [hbrace]
    rfl
  obtain ⟨nested, hnested, hstarts⟩ := allFrom_append body.text hstops (Nat.zero_le _)
  refine ⟨nested, hnested.trans (congrArg (nested ++ ·) (hclose _ _)), fun m hm => ?_⟩
  obtain ⟨d, e, hde, -, hm⟩ := hstarts m hm
  obtain ⟨_, _, _, _, hstart, _⟩ := takes_of_matchHere? hm
  exact ⟨d, e, hde, hstart⟩

/-- The matches that start in a printed member are the one at its head, if any, and others that lie in
a block; the search goes on where the member ends. -/
structure AreMatchesIn (pattern : Pattern) (limit : Nat) (member : JavaMember) (seen : List Char)
    (index : Nat) (nested : List Match) : Prop where
  found : pattern.allFrom limit 0 (some '\n') index (member.print ++ seen)
    = (pattern.matchHere? limit ⟨some '\n', member.print ++ seen, index, []⟩).toList
      ++ (nested ++ pattern.allFrom limit 0 (some '\n') (index + member.print.length) seen)
  inBlock : ∀ m ∈ nested, ∃ front back depth, member.print = front ++ back
    ∧ m.start = index + front.length ∧ Bracket.curly.depthAfter 0 front = some (depth + 1)

/-- A field is one line, which holds one match at most. -/
theorem areMatchesIn_field (hpattern : IsMemberPattern gap excluded tail) (head : JavaHead)
    {seen : List Char} (hat : '@' ∉ (JavaMember.field head).print ++ seen) (index : Nat) :
    AreMatchesIn (memberHead gap excluded tail) limit (.field head) seen index [] := by
  have hline : '\n' ∉ head.print ++ [';'] := by
    rw [List.mem_append, List.mem_singleton]
    rintro (h | h)
    · exact JavaHead.not_mem_print (by decide) h
    · exact absurd h (by decide)
  have htext : (JavaMember.field head).print ++ seen = (head.print ++ [';']) ++ '\n' :: seen := by
    rw [print_field, List.append_assoc]
    rfl
  have hlength : (JavaMember.field head).print.length = (head.print ++ [';']).length + 1 := by
    rw [print_field, List.length_append]
    rfl
  refine ⟨?_, fun m hm => absurd hm List.not_mem_nil⟩
  rw [htext] at hat ⊢
  rw [hlength]
  refine allFrom_line startsLine_memberHead hline fun m hm => ?_
  rw [List.append_assoc] at hm hat
  rw [(isPrinted_of_matchHere? hpattern hpattern.semicolon (by decide) hat hm).stop,
    List.length_append]
  exact Nat.le_succ _

/-- Behind the first line of a method its body holds further matches, all of them in its block. -/
theorem areMatchesIn_method (hpattern : IsMemberPattern gap excluded tail) (head : JavaHead)
    (parameters : List JavaParameter) (body : JavaBody) {seen : List Char}
    (hat : '@' ∉ (JavaMember.method head parameters body).print ++ seen) (index : Nat) :
    ∃ nested, AreMatchesIn (memberHead gap excluded tail) limit (.method head parameters body) seen
      index nested := by
  have htext : (JavaMember.method head parameters body).print ++ seen
      = methodLine head parameters ++ '\n' :: (body.text ++ '\x7d' :: '\n' :: seen) := by
    rw [print_method]
    simp
  have hlength : (JavaMember.method head parameters body).print.length
      = (methodLine head parameters).length + 1 + body.text.length + 2 := by
    rw [print_method]
    simp only [List.length_append, List.length_cons, List.length_nil]
    omega
  rw [htext] at hat
  obtain ⟨nested, hnested, hstarts⟩ := allFrom_body hpattern body
    (fun hmem => hat (List.mem_append_right _ (List.mem_cons_of_mem _ hmem))) limit
    (index + ((methodLine head parameters).length + 1))
  refine ⟨nested, ?_, fun m hm => ?_⟩
  · rw [htext, allFrom_line startsLine_memberHead (newline_not_mem_methodLine head parameters),
      hnested, hlength]
    · simp only [Nat.add_assoc]
    · intro m hm
      rw [methodLine, List.append_assoc, List.cons_append] at hm hat
      rw [(isPrinted_of_matchHere? hpattern hpattern.parenthesis (by decide) hat hm).stop,
        methodLine, List.length_append, List.length_cons]
      omega
  · obtain ⟨front, back, hbody, hstart⟩ := hstarts m hm
    obtain ⟨depth, hdepth⟩ := Bracket.IsBalanced.prefix_depth (hbody ▸ body.balanced)
    refine ⟨methodLine head parameters ++ '\n' :: front, back ++ ['\x7d', '\n'], depth, ?_, ?_, ?_⟩
    · rw [print_method, hbody]
      simp
    · rw [hstart, List.length_append, List.length_cons]
      omega
    · rw [depthAfter_methodLine]
      exact Bracket.depthAfter_add 1 hdepth

/-- **The matches of a member.** -/
theorem exists_areMatchesIn (hpattern : IsMemberPattern gap excluded tail) (member : JavaMember)
    {seen : List Char} (hat : '@' ∉ member.print ++ seen) (limit index : Nat) :
    ∃ nested, AreMatchesIn (memberHead gap excluded tail) limit member seen index nested := by
  cases member with
  | field head => exact ⟨[], areMatchesIn_field hpattern head hat index⟩
  | method head parameters body => exact areMatchesIn_method hpattern head parameters body hat index

/-- Where no match in a block is kept, none but the one at its head is kept of a member. -/
theorem AreMatchesIn.filter_nested {pattern : Pattern} {member : JavaMember} {seen front : List Char}
    {nested : List Match} {base : Nat} {keep : Match → Bool}
    (h : AreMatchesIn pattern limit member seen front.length nested) (hbase : base ≤ front.length)
    (hdepth : Bracket.curly.depthAfter 0 (front.drop base) = some 0)
    (hnested : ∀ m d e depth, member.print = d ++ e → m.start = (front ++ d).length →
      Bracket.curly.depthAfter 0 ((front ++ d).drop base) = some (depth + 1) → keep m = false) :
    nested.filter keep = [] := by
  refine List.filter_eq_nil_iff.mpr fun m hm => Bool.not_eq_true _ ▸ ?_
  obtain ⟨d, e, depth, hde, hstart, hd⟩ := h.inBlock m hm
  refine hnested m d e depth hde ?_ ?_
  · rw [hstart, List.length_append]
  · rw [List.drop_append_of_le_length hbase, Bracket.depthAfter_append, hdepth]
    exact hd

/-- **What is kept of the matches.** If what lies in a block is left out, and of the match at the
head of a member is seen what is expected of the member, then of all the members of a class is seen
what is expected of them, in their order. -/
theorem kept_of_members {β : Type} {text : List Char} {keep : Match → Bool}
    {seen : Match → β} {expected : JavaMember → Option β} (base : Nat) (close post : List Char)
    (hpattern : IsMemberPattern gap excluded tail) (hat : '@' ∉ text)
    (hclose : ∀ c ∈ close, isWord c = false)
    (hnested : ∀ m front back depth, text = front ++ back → m.start = front.length →
      Bracket.curly.depthAfter 0 (front.drop base) = some (depth + 1) → keep m = false)
    (hhead : ∀ member front rest, text = front ++ (member.print ++ (rest ++ post)) →
      '@' ∉ member.print ++ rest → base ≤ front.length →
      Bracket.curly.depthAfter 0 (front.drop base) = some 0 →
        (((memberHead gap excluded tail).matchHere? limit
          ⟨some '\n', member.print ++ rest, front.length, []⟩).toList.filter keep).map seen
            = (expected member).toList) :
    ∀ (members : List JavaMember) (front : List Char),
      text = front ++ (printMembers members ++ (close ++ post)) → base ≤ front.length →
        Bracket.curly.depthAfter 0 (front.drop base) = some 0 →
          (((memberHead gap excluded tail).allFrom limit 0 (some '\n') front.length
            (printMembers members ++ close)).filter keep).map seen
              = members.filterMap expected := by
  -- `front` is the text before the members that are left, with no brace open since `base`
  intro members
  induction members with
  | nil =>
      intro front _ _ _
      have hnone : (memberHead gap excluded tail).allFrom limit 0 (some '\n') front.length close
          = [] := by
        refine allFrom_eq_nil fun d e hde => matchHere?_eq_none_of_no_word fun c hc => ?_
        exact hclose c (hde ▸ List.mem_append_right d hc)
      show ((allFrom _ _ _ _ _ close).filter keep).map seen = []
      rw [hnone]
      rfl
  | cons member members ih =>
      intro front htext hbase hdepth
      rw [printMembers_cons, List.append_assoc] at htext ⊢
      have hrest : '@' ∉ member.print ++ (printMembers members ++ close) := fun hmem => hat <| by
        rw [htext, ← List.append_assoc (printMembers members), ← List.append_assoc member.print]
        exact List.mem_append_right _ (List.mem_append_left post hmem)
      obtain ⟨nested, hmatches⟩ := exists_areMatchesIn hpattern member hrest limit front.length
      have hleft : nested.filter keep = [] := by
        refine hmatches.filter_nested hbase hdepth fun m d e depth hde hstart hd => ?_
        refine hnested m (front ++ d) (e ++ (printMembers members ++ (close ++ post))) depth ?_
          hstart hd
        rw [htext, hde]
        simp only [List.append_assoc]
      have hlater := ih (front ++ member.print) (by rw [htext, List.append_assoc])
        (by rw [List.length_append]; omega)
        (by rw [List.drop_append_of_le_length hbase, Bracket.depthAfter_append, hdepth]
            exact member.print_isBalanced)
      have hmember := hhead member front (printMembers members ++ close)
        (by rw [htext]; simp only [List.append_assoc]) hrest hbase hdepth
      rw [hmatches.found, List.filter_append, List.filter_append, hleft, List.nil_append,
        List.map_append, hmember, ← List.length_append, hlater, List.filterMap_cons]
      cases expected member <;> rfl

end Members

end ServiceMap.Declaration
