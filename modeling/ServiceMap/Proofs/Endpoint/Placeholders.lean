import ServiceMap.Endpoint.Route
import ServiceMap.Proofs.Link.TypeLists
import ServiceMap.Proofs.Pattern.FirstWay

/-!
# Placeholders of a path

A path whose segments are literals, names after colons, and names in braces with or without a
constraint. The parameters of the path are the names after colons, in their order, and then the names
in braces, in theirs: whatever a constraint holds, a colon in it gives no parameter, since the last
brace before it is an opening one.
-/

namespace ServiceMap.Endpoint

open Text Pattern Link

/-! ## Paths by their segments -/

/-- One of the braces around a placeholder. -/
def isBrace (c : Char) : Bool :=
  c == '\x7b' || c == '\x7d'

/-- What may stand behind the name of a placeholder in braces. -/
structure Constraint where
  text : List Char
  nonempty : text ≠ []
  noBraces : ∀ c ∈ text, isBrace c = false

/-- A constraint with the colon before it, if there is one. -/
def printConstraint (constraint : Option Constraint) : List Char :=
  (constraint.map fun c => ':' :: c.text).getD []

/-- What may stand between two slashes. -/
inductive Segment where
  | literal (text : List Char) (plain : ∀ c ∈ text, c ≠ ':' ∧ isBrace c = false)
  | named (name : TypeName)
  | braced (name : TypeName) (constraint : Option Constraint)

namespace Segment

def print : Segment → List Char
  | literal text _ => text
  | named name => ':' :: name.text
  | braced name constraint =>
    '\x7b' :: (name.text ++ printConstraint constraint) ++ ['\x7d']

/-- The name after a colon. -/
def named? : Segment → Option (List Char)
  | named name => some name.text
  | _ => none

/-- The name in braces, with its constraint if it has one. -/
def braced? : Segment → Option (List Char × Option (List Char))
  | braced name constraint => some (name.text, constraint.map Constraint.text)
  | _ => none

end Segment

/-- The path with these segments. -/
def pathOf (segments : List Segment) : List Char :=
  join ['/'] (segments.map Segment.print)

/-- Segments with a slash before each. -/
def slashed (segments : List Segment) : List Char :=
  segments.flatMap fun s => '/' :: s.print

theorem pathOf_cons (s : Segment) (rest : List Segment) :
    pathOf (s :: rest) = s.print ++ slashed rest := by
  have hjoin : pathOf (s :: rest)
      = join ['/'] [s.print] ++ (rest.map Segment.print).flatMap fun piece => ['/'] ++ piece :=
    join_append (List.cons_ne_nil s.print []) (rest.map Segment.print)
  rw [hjoin, List.flatMap_map]
  rfl

theorem head_slashed (segments : List Segment) : ∀ c ∈ (slashed segments).head?, c = '/' := by
  cases segments with
  | nil => exact fun c hc => nomatch hc
  | cons s rest => exact fun c hc => (Option.some.inj hc).symm

/-! ## Inside and outside of braces -/

/-- A text after which no brace is open. -/
def IsClosed (s : List Char) : Prop :=
  s.reverse.find? isBrace ≠ some '\x7b'

theorem isClosed_nil : IsClosed [] :=
  (Option.some_ne_none _).symm

theorem insideBraces_append (s t : List Char) :
    insideBraces (s ++ t) s.length = (s.reverse.find? isBrace == some '\x7b') := by
  have hbrace : (fun c => c == '\x7b' || c == '\x7d') = isBrace := rfl
  rw [insideBraces, List.take_left, hbrace]
  cases s.reverse.find? isBrace <;> rfl

theorem IsClosed.insideBraces {s : List Char} (h : IsClosed s) (t : List Char) :
    insideBraces (s ++ t) s.length = false := by
  rw [insideBraces_append, beq_eq_false_iff_ne]
  exact h

theorem find?_isBrace_append (s t : List Char) :
    (s ++ t).reverse.find? isBrace = (t.reverse.find? isBrace).or (s.reverse.find? isBrace) := by
  rw [List.reverse_append, List.find?_append]

theorem find?_isBrace_of_plain {s : List Char} (h : ∀ c ∈ s, isBrace c = false) :
    s.reverse.find? isBrace = none :=
  List.find?_eq_none.mpr fun c hc => Bool.eq_false_iff.mp (h c (List.mem_reverse.mp hc))

theorem IsClosed.append_plain {s t : List Char} (hs : IsClosed s) (ht : ∀ c ∈ t, isBrace c = false) :
    IsClosed (s ++ t) := by
  rw [IsClosed, find?_isBrace_append, find?_isBrace_of_plain ht]
  exact hs

/-- A text that starts with an opening brace, and has no other one. -/
theorem insideBraces_of_open (front : List Char) {inner : List Char}
    (h : ∀ c ∈ inner, isBrace c = false) (t : List Char) :
    insideBraces (front ++ '\x7b' :: inner ++ t) (front ++ '\x7b' :: inner).length = true := by
  have hopen : ('\x7b' :: inner).reverse.find? isBrace = some '\x7b' := by
    rw [List.reverse_cons, List.find?_append, find?_isBrace_of_plain h]
    rfl
  rw [insideBraces_append, find?_isBrace_append, hopen]
  rfl

theorem isBrace_of_isWord {c : Char} (h : isWord c = true) : isBrace c = false := by
  rw [isBrace, Bool.or_eq_false_iff, beq_eq_false_iff_ne, beq_eq_false_iff_ne]
  constructor <;> rintro rfl <;> exact absurd h (by decide)

theorem isBrace_printConstraint (constraint : Option Constraint) :
    ∀ c ∈ printConstraint constraint, isBrace c = false := by
  intro c hc
  cases constraint with
  | none => exact absurd hc List.not_mem_nil
  | some constraint =>
      rcases List.mem_cons.mp hc with rfl | hc
      · decide
      · exact constraint.noBraces c hc

theorem isBrace_inner (name : TypeName) (constraint : Option Constraint) :
    ∀ c ∈ name.text ++ printConstraint constraint, isBrace c = false := by
  intro c hc
  rcases List.mem_append.mp hc with hc | hc
  · exact isBrace_of_isWord (name.ofWords c hc)
  · exact isBrace_printConstraint constraint c hc

/-- A segment leaves no brace open. -/
theorem IsClosed.append_segment {front : List Char} (h : IsClosed front) (s : Segment) :
    IsClosed (front ++ s.print) := by
  cases s with
  | literal text plain => exact h.append_plain fun c hc => (plain c hc).2
  | named name =>
      refine h.append_plain fun c hc => ?_
      rcases List.mem_cons.mp hc with rfl | hc
      · decide
      · exact isBrace_of_isWord (name.ofWords c hc)
  | braced name constraint =>
      rw [Segment.print, IsClosed, ← List.append_assoc, find?_isBrace_append]
      show some '\x7d' ≠ some '\x7b'
      decide

/-! ## Segment by segment -/

section Segments

variable {β : Type} {path : List Char} {limit : Nat} {mark : Char} {pattern : Pattern}
  {read : Match → Option β} {value : Segment → Option β}

/-- A stretch without the mark that a pattern starts with is passed over. -/
theorem allFrom_of_not_mem (h : pattern.StartsWith mark) {s : List Char} (hs : mark ∉ s)
    (front t : List Char) :
    pattern.allFrom limit 0 (lastOr none front) front.length (s ++ t)
      = pattern.allFrom limit 0 (lastOr none (front ++ s)) (front ++ s).length t := by
  rw [lastOr_append, List.length_append]
  exact h.allFrom_append hs t

/-- What a pattern finds in a segment of a path is read as the value of the segment, and the search
goes on behind it. -/
def ReadsSegments (path : List Char) (limit : Nat) (pattern : Pattern) (read : Match → Option β)
    (value : Segment → Option β) : Prop :=
  ∀ (s : Segment) (front t : List Char), path = front ++ (s.print ++ t) → IsClosed front →
    (∀ c ∈ t.head?, c = '/') →
    ∃ found, pattern.allFrom limit 0 (lastOr none front) front.length (s.print ++ t)
        = found ++ pattern.allFrom limit 0 (lastOr none (front ++ s.print))
            (front ++ s.print).length t
      ∧ found.filterMap read = (value s).toList

theorem toList_append_filterMap (value : Segment → Option β) (s : Segment) (rest : List Segment) :
    (value s).toList ++ rest.filterMap value = (s :: rest).filterMap value := by
  cases hvalue : value s <;> simp [hvalue]

/-- **All segments.** By induction on the segments: no brace is open where one starts. -/
theorem filterMap_allFrom_segments (hreads : ReadsSegments path limit pattern read value)
    (hmark : pattern.StartsWith mark) (hslash : mark ≠ '/') (rest : List Segment) :
    ∀ (s : Segment) (front : List Char), path = front ++ (s.print ++ slashed rest) →
      IsClosed front →
      (pattern.allFrom limit 0 (lastOr none front) front.length (s.print ++ slashed rest)).filterMap
          read = (s :: rest).filterMap value := by
  induction rest with
  | nil =>
      intro s front hpath hclosed
      obtain ⟨found, hfound, hread⟩ := hreads s front _ hpath hclosed (head_slashed [])
      rw [hfound, List.filterMap_append, hread, ← toList_append_filterMap]
      exact congrArg (_ ++ List.filterMap read ·) (hmark.allFrom_eq_nil List.not_mem_nil)
  | cons next rest ih =>
      intro s front hpath hclosed
      obtain ⟨found, hfound, hread⟩ := hreads s front _ hpath hclosed (head_slashed (next :: rest))
      have htext : slashed (next :: rest) = ['/'] ++ (next.print ++ slashed rest) := rfl
      have hopen : IsClosed (front ++ s.print ++ ['/']) :=
        (hclosed.append_segment s).append_plain (forall_mem_of_all (by decide))
      have hsplit : path = front ++ s.print ++ ['/'] ++ (next.print ++ slashed rest) := by
        rw [hpath, htext]
        simp only [List.append_assoc]
      have hslashed : mark ∉ ['/'] := by simp [hslash]
      rw [hfound, List.filterMap_append, hread, htext, allFrom_of_not_mem hmark hslashed,
        ih next _ hsplit hopen, toList_append_filterMap]

/-- What a pattern finds in a path is read as the values of the segments. -/
theorem filterMap_findAll_pathOf (segments : List Segment)
    (hreads : ReadsSegments (pathOf segments) (pathOf segments).length pattern read value)
    (hmark : pattern.StartsWith mark) (hslash : mark ≠ '/') :
    (pattern.findAll (pathOf segments)).filterMap read = segments.filterMap value := by
  cases segments with
  | nil => exact congrArg (List.filterMap read) (hmark.allFrom_eq_nil List.not_mem_nil)
  | cons s rest =>
      have hall := filterMap_allFrom_segments hreads hmark hslash rest s [] (pathOf_cons s rest)
        isClosed_nil
      rw [← pathOf_cons] at hall
      exact hall

end Segments

/-! ## Names after colons -/

theorem startsWith_colonPlaceholder : colonPlaceholder.StartsWith ':' := by
  rintro _ _ _ ⟨s, t, rfl, hcolon, -⟩
  rw [takes_lit.mp hcolon]
  rfl

/-- The name that a match outside of braces has after the colon. -/
def readNamed (path : List Char) (m : Match) : Option (List Char) :=
  if insideBraces path m.start then none else some (m.group 1)

theorem matchHere?_colonPlaceholder (name : TypeName) {t : List Char}
    (ht : ∀ c ∈ t.head?, c = '/') (limit : Nat) (before : Option Char) (index : Nat) :
    ∃ m, colonPlaceholder.matchHere? limit ⟨before, ':' :: name.text ++ t, index, []⟩ = some m
      ∧ m.start = index ∧ m.stop = index + (':' :: name.text).length ∧ m.group 1 = name.text := by
  have hcolon : (lit ":").TakesFirst limit ⟨before, ':' :: name.text ++ t, index, []⟩ [':']
      (name.text ++ t) [] := takesFirst_lit (s := ":") rfl
  have hword : ∀ p : Place, p.rest = name.text ++ t → word.TakesFirst limit p name.text t [] :=
    fun p hp => takesFirst_many1 hp name.nonempty name.ofWords fun c hc => by rw [ht c hc]; decide
  refine ⟨_, matchHere?_of_takesFirst (hcolon.append ((hword _ rfl).capture 1)), rfl, rfl, ?_⟩
  exact group_of_lookup rfl rfl

/-- No match that starts in braces goes on behind them. -/
theorem stop_of_colonPlaceholder {limit : Nat} {p : Place} {m : Match} {e t : List Char}
    (htext : p.rest = e ++ '\x7d' :: t) (h : colonPlaceholder.matchHere? limit p = some m) :
    m.stop ≤ p.index + e.length := by
  obtain ⟨taken, rest, hrest, htakes, -, hstop⟩ := takes_of_matchHere? h
  have hbrace : '\x7d' ∉ taken := not_mem_of_takes (by decide) htakes
  obtain ⟨z, rfl, -⟩ := split_of_not_mem hbrace (hrest.symm.trans htext)
  rw [hstop, List.length_append]
  omega

/-- A stretch up to the end of a text ends with its last character. -/
theorem split_last {x d e : List Char} {c : Char} (h : x ++ [c] = d ++ e) (he : e ≠ []) :
    ∃ f, x = d ++ f ∧ e = f ++ [c] := by
  rcases List.eq_nil_or_concat e with rfl | ⟨f, a, rfl⟩
  · exact absurd rfl he
  · rw [List.concat_eq_append, ← List.append_assoc] at h
    obtain ⟨hx, ha⟩ := List.append_inj' h rfl
    exact ⟨f, hx, by rw [List.concat_eq_append, ha]⟩

/-- A colon in braces gives nothing: the last brace before it is the opening one. -/
theorem readNamed_of_braced {name : TypeName} {constraint : Option Constraint}
    {front d f t : List Char} {limit : Nat} {m : Match}
    (hinner : '\x7b' :: (name.text ++ printConstraint constraint) = d ++ f)
    (h : colonPlaceholder.matchHere? limit
      ⟨lastOr (lastOr none front) d, f ++ ['\x7d'] ++ t, front.length + d.length, []⟩ = some m) :
    readNamed (front ++ (d ++ (f ++ ['\x7d'] ++ t))) m = none := by
  cases d with
  | nil =>
      rw [← show '\x7b' :: (name.text ++ printConstraint constraint) = f from hinner] at h
      exact nomatch (startsWith_colonPlaceholder.matchHere?_eq_none (by simp)).symm.trans h
  | cons c d =>
      obtain ⟨rfl, hsplit⟩ := List.cons.inj (show _ = c :: (d ++ f) from hinner)
      obtain ⟨-, -, -, -, hstart, -⟩ := takes_of_matchHere? h
      have hplain : ∀ c ∈ d, isBrace c = false := fun c hc =>
        isBrace_inner name constraint c (hsplit ▸ List.mem_append_left f hc)
      have hinside := insideBraces_of_open front hplain (f ++ ['\x7d'] ++ t)
      rw [List.length_append] at hinside
      rw [readNamed, hstart, ← List.append_assoc, hinside]
      rfl

theorem readsSegments_colonPlaceholder (path : List Char) (limit : Nat) :
    ReadsSegments path limit colonPlaceholder (readNamed path) Segment.named? := by
  intro s front t hpath hclosed ht
  cases s with
  | literal text plain =>
      refine ⟨[], ?_, rfl⟩
      exact allFrom_of_not_mem startsWith_colonPlaceholder (fun h => (plain _ h).1 rfl) front t
  | named name =>
      obtain ⟨m, hm, hstart, hstop, hgroup⟩ :=
        matchHere?_colonPlaceholder name ht limit (lastOr none front) front.length
      refine ⟨[m], ?_, ?_⟩
      · rw [lastOr_append, List.length_append]
        exact allFrom_of_matchHere? (List.cons_ne_nil _ _) hm hstop
      · have houtside : insideBraces path m.start = false := by
          rw [hpath, hstart]
          exact hclosed.insideBraces _
        simp [readNamed, houtside, hgroup, Segment.named?]
  | braced name constraint =>
      have hsplit : ∀ {d e : List Char}, (Segment.braced name constraint).print = d ++ e → e ≠ [] →
          ∃ f, '\x7b' :: (name.text ++ printConstraint constraint) = d ++ f ∧ e = f ++ ['\x7d'] :=
        fun hde he => split_last hde he
      have hwithin : ∀ d e m, (Segment.braced name constraint).print = d ++ e → e ≠ [] →
          colonPlaceholder.matchHere? limit
            ⟨lastOr (lastOr none front) d, e ++ t, front.length + d.length, []⟩ = some m →
          m.stop ≤ front.length + (Segment.braced name constraint).print.length := by
        intro d e m hde he hm
        obtain ⟨f, -, rfl⟩ := hsplit hde he
        have hstop := stop_of_colonPlaceholder (e := f) (t := t) (by simp) hm
        rw [hde, List.length_append, List.length_append]
        dsimp only at hstop
        omega
      obtain ⟨found, hfound, hstarts⟩ := allFrom_append _ hwithin (Nat.zero_le _)
      refine ⟨found, ?_, List.filterMap_eq_nil_iff.mpr fun m hm => ?_⟩
      · rw [lastOr_append, List.length_append]
        exact hfound
      · obtain ⟨d, e, hde, he, hmatch⟩ := hstarts m hm
        obtain ⟨f, hinner, rfl⟩ := hsplit hde he
        rw [hpath, hde, List.append_assoc d]
        exact readNamed_of_braced hinner hmatch

/-! ## Names in braces -/

theorem startsWith_bracePlaceholder : bracePlaceholder.StartsWith '\x7b' := by
  rintro _ _ _ ⟨_, _, rfl, ⟨_, _, rfl, ⟨_, _, rfl, ⟨c, hc, rfl⟩, -⟩, -⟩, -⟩
  exact congrArg some (beq_iff_eq.mp hc)

/-- The name of a match in braces, with its constraint if it has one. -/
def readBraced (m : Match) : Option (List Char × Option (List Char)) :=
  some (m.group 1, m.group? 2)

theorem matchHere?_bracePlaceholder (name : TypeName) (constraint : Option Constraint)
    (t : List Char) (limit : Nat) (before : Option Char) (index : Nat) :
    ∃ m, bracePlaceholder.matchHere? limit
        ⟨before, (Segment.braced name constraint).print ++ t, index, []⟩ = some m
      ∧ m.stop = index + (Segment.braced name constraint).print.length
      ∧ m.group 1 = name.text ∧ m.group? 2 = constraint.map Constraint.text := by
  have htext : (Segment.braced name constraint).print ++ t
      = '\x7b' :: (name.text ++ (printConstraint constraint ++ '\x7d' :: t)) := by
    simp [Segment.print]
  have hlength : (Segment.braced name constraint).print.length
      = (['\x7b'] ++ name.text ++ printConstraint constraint ++ ['\x7d']).length := by
    simp [Segment.print]
  rw [htext, hlength]
  have hopen : (char (· == '\x7b')).TakesFirst limit
      ⟨before, '\x7b' :: (name.text ++ (printConstraint constraint ++ '\x7d' :: t)), index, []⟩
      ['\x7b'] (name.text ++ (printConstraint constraint ++ '\x7d' :: t)) [] :=
    takesFirst_char rfl rfl
  have hclose : ∀ p : Place, p.rest = '\x7d' :: t →
      (char (· == '\x7d')).TakesFirst limit p ['\x7d'] t [] :=
    fun p hp => takesFirst_char hp rfl
  have hword : ∀ (p : Place) (c : Char) (u : List Char), p.rest = name.text ++ c :: u →
      isWord c = false → word.TakesFirst limit p name.text (c :: u) [] :=
    fun p c u hp hc => takesFirst_many1 hp name.nonempty name.ofWords
      fun d hd => Option.some.inj hd ▸ hc
  cases constraint with
  | none =>
      have hname := hopen.append ((hword _ '\x7d' t rfl (by decide)).capture 1)
      have hnone : ∀ p : Place, p.rest = '\x7d' :: t →
          (lit ":" ++ capture 2 (many1 (· != '\x7d'))).Fails limit p :=
        fun p hp => (fails_lit (c := ':') rfl (by rw [hp]; simp)).append _
      have htakes := (hname.append (hnone _ rfl).opt).append (hclose _ rfl)
      exact ⟨_, matchHere?_of_takesFirst htakes, rfl, group_of_lookup rfl rfl, rfl⟩
  | some constraint =>
      have hname := hopen.append
        ((hword _ ':' (constraint.text ++ '\x7d' :: t) rfl (by decide)).capture 1)
      have hcolon : ∀ p : Place, p.rest = ':' :: (constraint.text ++ '\x7d' :: t) →
          (lit ":").TakesFirst limit p [':'] (constraint.text ++ '\x7d' :: t) [] :=
        fun p hp => takesFirst_lit (s := ":") hp
      have hrest : ∀ p : Place, p.rest = constraint.text ++ '\x7d' :: t →
          (many1 (· != '\x7d')).TakesFirst limit p constraint.text ('\x7d' :: t) [] := by
        refine fun p hp => takesFirst_many1 hp constraint.nonempty (fun c hc => ?_) fun c hc => ?_
        · rw [bne_iff_ne]
          rintro rfl
          exact absurd (constraint.noBraces _ hc) (by decide)
        · rw [← Option.some.inj hc]
          decide
      have htakes := (hname.append ((hcolon _ rfl).append ((hrest _ rfl).capture 2)).opt).append
        (hclose _ rfl)
      exact ⟨_, matchHere?_of_takesFirst htakes, rfl, group_of_lookup rfl rfl,
        group?_of_lookup rfl rfl⟩

theorem readsSegments_bracePlaceholder (path : List Char) (limit : Nat) :
    ReadsSegments path limit bracePlaceholder readBraced Segment.braced? := by
  intro s front t _ _ _
  cases s with
  | literal text plain =>
      refine ⟨[], allFrom_of_not_mem startsWith_bracePlaceholder (fun h => ?_) front t, rfl⟩
      exact absurd (plain _ h).2 (by decide)
  | named name =>
      refine ⟨[], allFrom_of_not_mem startsWith_bracePlaceholder (fun h => ?_) front t, rfl⟩
      rcases List.mem_cons.mp h with h | h
      · exact absurd h (by decide)
      · exact absurd (name.ofWords _ h) (by decide)
  | braced name constraint =>
      obtain ⟨m, hm, hstop, hname, hconstraint⟩ :=
        matchHere?_bracePlaceholder name constraint t limit (lastOr none front) front.length
      refine ⟨[m], ?_, ?_⟩
      · rw [lastOr_append, List.length_append]
        exact allFrom_of_matchHere? (List.cons_ne_nil _ _) hm hstop
      · simp [readBraced, hname, hconstraint, Segment.braced?]

/-! ## The parameters of a path -/

theorem pathParameters_eq (typeOf : Option (List Char) → String) (path : List Char) :
    pathParameters typeOf path
      = ((colonPlaceholder.findAll path).filterMap (readNamed path)).map (pathParameter · "string")
        ++ ((bracePlaceholder.findAll path).filterMap readBraced).map fun b =>
            pathParameter b.1 (typeOf b.2) := by
  have hnamed : ∀ found : List Match,
      (found.filter fun m => !insideBraces path m.start).map
          (fun m => pathParameter (m.group 1) "string")
        = (found.filterMap (readNamed path)).map (pathParameter · "string") := by
    intro found
    rw [List.map_filterMap, ← List.filterMap_eq_map, List.filterMap_filter]
    refine List.filterMap_congr fun m _ => ?_
    cases hinside : insideBraces path m.start <;> simp [readNamed, hinside]
  have hbraced : ∀ found : List Match,
      found.map (fun m => pathParameter (m.group 1) (typeOf (m.group? 2)))
        = (found.filterMap readBraced).map fun b => pathParameter b.1 (typeOf b.2) := by
    intro found
    rw [List.map_filterMap, ← List.filterMap_eq_map]
    rfl
  rw [pathParameters, hnamed, hbraced]

/-- **Placeholders.** The parameters of a path are the names after its colons, as strings, and then
the names in its braces, with the types that their constraints give, each in the order of the
segments. -/
theorem parameters_are_the_placeholders (typeOf : Option (List Char) → String)
    (segments : List Segment) :
    pathParameters typeOf (pathOf segments)
        = (segments.filterMap Segment.named?).map (pathParameter · "string")
          ++ (segments.filterMap Segment.braced?).map (fun b => pathParameter b.1 (typeOf b.2))
      ∧ ∀ p ∈ pathParameters typeOf (pathOf segments), p.location = "path" := by
  have hparameters : pathParameters typeOf (pathOf segments)
      = (segments.filterMap Segment.named?).map (pathParameter · "string")
        ++ (segments.filterMap Segment.braced?).map fun b => pathParameter b.1 (typeOf b.2) := by
    rw [pathParameters_eq, filterMap_findAll_pathOf segments (readsSegments_colonPlaceholder _ _)
        startsWith_colonPlaceholder (by decide),
      filterMap_findAll_pathOf segments (readsSegments_bracePlaceholder _ _)
        startsWith_bracePlaceholder (by decide)]
  refine ⟨hparameters, ?_⟩
  rw [hparameters]
  intro p hp
  rcases List.mem_append.mp hp with hp | hp
  · obtain ⟨name, -, rfl⟩ := List.mem_map.mp hp
    rfl
  · obtain ⟨b, -, rfl⟩ := List.mem_map.mp hp
    rfl

/-- A path with a placeholder of each kind, and colons in a constraint. -/
def mixedSegments : List Segment :=
  [.literal "api".toList (forall_mem_of_all (by decide)),
    .braced (.ofString "id" (by decide) (by decide)) none,
    .named (.ofString "user" (by decide) (by decide)),
    .braced (.ofString "page" (by decide) (by decide))
      (some ⟨"int:min(1)/:x".toList, by decide, forall_mem_of_all (by decide)⟩),
    .named (.ofString "file" (by decide) (by decide))]

theorem parameters_of_mixedSegments :
    pathOf mixedSegments = "api/\x7bid\x7d/:user/\x7bpage:int:min(1)/:x\x7d/:file".toList
      ∧ (pathParameters constraintType (pathOf mixedSegments)).map (fun p => (p.name, p.type))
        = [("user", "string"), ("file", "string"), ("id", "string"), ("page", "integer")] := by
  refine ⟨by decide +kernel, ?_⟩
  rw [(parameters_are_the_placeholders constraintType mixedSegments).1]
  decide +kernel

end ServiceMap.Endpoint
