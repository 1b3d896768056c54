import ServiceMap.Proofs.Declaration.KeptHeads

/-!
# Java around literals

The types and methods of two Java sources that differ within literals, none of which stands in a head,
are the same.
-/

namespace ServiceMap.Declaration

open Text Source Pattern

/-! ## Heads -/

/-- The matches of the fields in a body. -/
def javaFieldMatches (masked : List Char) (body : Span) : List Match :=
  (javaField.findBetween masked body.start body.stop).filter (isFieldOf masked body)

/-- The brace that opens the body of the type whose head is `m`. -/
def javaBrace? (masked : List Char) (m : Match) : Option Nat :=
  match findFrom? ['\x7b'] masked m.stop with
  | none => none
  | some brace => if (slice masked m.stop brace).contains ';' then none else some brace

/-- What is read of the heads of a type and of its fields, but for their names. -/
def javaTypeStretches (masked : List Char) (m : Match) : List (Nat × Nat) :=
  match javaBrace? masked m with
  | none => []
  | some brace =>
    preambleStretch masked m.start :: bodyStretches masked (javaFieldMatches masked) brace

/-- The matches of the methods of types. -/
def javaMethodMatches (masked : List Char) (types : List OpenType) : List Match :=
  (javaMethodHead.findAll masked).filter fun m =>
    isJavaMethod m && (owner? (types.map OpenType.body) masked m.start).isSome

/-- What is read of the heads of a Java source, but for the names. -/
def javaHeads (source : SourceText) : List (Nat × Nat) :=
  (javaTypeHead.findAll source.masked).flatMap (javaTypeStretches source.masked)
    ++ match javaTypes source with
      | .ok types =>
        (javaMethodMatches source.masked types).flatMap (methodStretches source.masked)
      | .error _ => []

/-! ## Fields -/

section

variable {s t : SourceText}

theorem isFieldOf_congr (h : SameMarks s.masked t.masked) (body : Span) {m n : Match}
    (hmn : m.outline = n.outline) (hwords : '"' ∉ m.group 1) :
    isFieldOf s.masked body m = isFieldOf t.masked body n := by
  have htype := Match.quoteless?_group hmn 2
  rw [isFieldOf, isFieldOf, Match.group_congr hmn hwords, Match.start_congr hmn, h.encloses,
    contains_congr javaStatementWords (by decide) htype,
    contains_congr javaModifiers (by decide) htype]

theorem javaFieldMatches_congr (h : s.Veiled t) {brace stop : Nat} {rest : List Char}
    (hbrace : s.masked.drop brace = '\x7b' :: rest) (hstop : groupEnd s.masked brace = .ok stop) :
    (javaFieldMatches s.masked ⟨brace + 1, stop⟩).map Match.outline
      = (javaFieldMatches t.masked ⟨brace + 1, stop⟩).map Match.outline :=
  map_filter_congr (foundAlike_javaField.findBetween silent_javaField h.masked hbrace hstop)
    fun _ hm _ _ hmn => isFieldOf_congr h.masked.sameMarks _ hmn (quoteless_javaField hm).1

theorem javaFields_kept (h : s.Veiled t) {brace stop : Nat} {rest : List Char}
    (hbrace : s.masked.drop brace = '\x7b' :: rest) (hstop : groupEnd s.masked brace = .ok stop)
    (hkept : ∀ stretch ∈ bodyStretches s.masked (javaFieldMatches s.masked) brace,
      KeptIn s.masked t.masked stretch) :
    javaFields s ⟨brace + 1, stop⟩ = javaFields t ⟨brace + 1, stop⟩ := by
  rw [bodyStretches, hstop] at hkept
  show (javaFieldMatches s.masked _).mapM (readMember annotatedStyle s)
    = (javaFieldMatches t.masked _).mapM (readMember annotatedStyle t)
  exact readMembers_kept h annotatedStyle (fun _ hm => (List.mem_filter.mp hm).1)
    (fun _ hn => (List.mem_filter.mp hn).1) (javaFieldMatches_congr h hbrace hstop)
    (fun _ hm => (quoteless_javaField (List.mem_filter.mp hm).1).2)
    fun m hm stretch hstretch => hkept stretch (List.mem_flatMap.mpr ⟨m, hm, hstretch⟩)

/-! ## Types -/

theorem javaBrace?_congr (h : SameMarks s.masked t.masked) {m n : Match}
    (hmn : m.outline = n.outline) : javaBrace? s.masked m = javaBrace? t.masked n := by
  rw [javaBrace?, javaBrace?, ← Match.stop_congr hmn, h.findFrom? _ (by decide)]
  cases findFrom? ['\x7b'] t.masked m.stop with
  | none => rfl
  | some brace =>
      dsimp only
      rw [(h.slice m.stop brace).contains (by decide)]

/-- The type whose head is `m`, by its brace. -/
theorem javaType?_eq (source : SourceText) (m : Match) :
    javaType? source m = match javaBrace? source.masked m with
      | none => .ok none
      | some brace => do
        let preamble ← readPreamble annotatedStyle source.text source.masked m.start
        let stop ← groupEnd source.masked brace
        let properties ← javaFields source ⟨brace + 1, stop⟩
        return some {
          info := {
            name := String.ofList (m.group 3)
            description := describe preamble.description
              (String.ofList (title (m.group 2)) ++ ": " ++ String.ofList (m.group 3))
            lineNumber := source.lineNumber m.start
            properties
            annotations := strings preamble.annotations }
          body := ⟨brace + 1, stop⟩ } := by
  rw [javaType?, javaBrace?]
  cases findFrom? ['\x7b'] source.masked m.stop with
  | none => rfl
  | some brace =>
      dsimp only
      split <;> rfl

theorem drop_of_javaBrace? {masked : List Char} {m : Match} {brace : Nat}
    (h : javaBrace? masked m = some brace) : ∃ rest, masked.drop brace = '\x7b' :: rest := by
  unfold javaBrace? at h
  split at h
  · exact nomatch h
  · rename_i index hindex
    split at h
    · exact nomatch h
    · obtain rfl := Option.some.inj h
      exact drop_of_findFrom? hindex

theorem javaType?_kept (h : s.Veiled t) {m n : Match} (hmn : m.outline = n.outline)
    (hgroups : '"' ∉ m.group 2 ∧ '"' ∉ m.group 3)
    (hkept : ∀ stretch ∈ javaTypeStretches s.masked m, KeptIn s.masked t.masked stretch) :
    javaType? s m = javaType? t n := by
  have hmarks := h.masked.sameMarks
  rw [javaType?_eq, javaType?_eq, ← javaBrace?_congr hmarks hmn]
  rw [javaTypeStretches] at hkept
  cases hbrace : javaBrace? s.masked m with
  | none => rfl
  | some brace =>
      rw [hbrace] at hkept
      obtain ⟨rest, hrest⟩ := drop_of_javaBrace? hbrace
      have hpreamble := readPreamble_kept h annotatedStyle _ (hkept _ List.mem_cons_self)
      have hline : s.lineNumber m.start = t.lineNumber m.start := hmarks.lineNumber m.start
      dsimp only
      rw [hpreamble, ← hmarks.groupEnd brace, hline, Match.start_congr hmn,
        Match.group_congr hmn hgroups.1, Match.group_congr hmn hgroups.2]
      refine bind_congr fun preamble => ?_
      cases hstop : groupEnd s.masked brace with
      | error fault => rfl
      | ok stop =>
          have hfields := javaFields_kept h hrest hstop fun stretch hstretch =>
            hkept stretch (List.mem_cons_of_mem _ hstretch)
          rw [except_ok_bind, except_ok_bind, hfields]

theorem javaTypes_kept (h : s.Veiled t)
    (hkept : ∀ stretch ∈ javaHeads s, KeptIn s.masked t.masked stretch) :
    javaTypes s = javaTypes t := by
  have hheads := foundAlike_javaTypeHead.findAll silent_javaTypeHead h.masked
  rw [javaTypes, javaTypes, mapM_congr_of_mem hheads fun m hm n _ hmn =>
    javaType?_kept h hmn (quoteless_javaTypeHead hm) fun stretch hstretch =>
      hkept stretch (List.mem_append_left _ (List.mem_flatMap.mpr ⟨m, hm, hstretch⟩))]

/-! ## Methods -/

theorem isJavaMethod_congr {m n : Match} (hmn : m.outline = n.outline)
    (hgroups : '"' ∉ m.group 1 ∧ '"' ∉ m.group 3) : isJavaMethod m = isJavaMethod n := by
  have htype := Match.quoteless?_group hmn 2
  rw [isJavaMethod, isJavaMethod, Match.group_congr hmn hgroups.1, Match.group_congr hmn hgroups.2,
    contains_congr javaStatementWords (by decide) htype,
    contains_congr javaModifiers (by decide) htype]

theorem javaMethodMatches_congr (h : s.Veiled t) (types : List OpenType) :
    (javaMethodMatches s.masked types).map Match.outline
      = (javaMethodMatches t.masked types).map Match.outline := by
  refine map_filter_congr (foundAlike_javaMethodHead.findAll silent_javaMethodHead h.masked)
    fun m hm n _ hmn => ?_
  rw [isJavaMethod_congr hmn (quoteless_javaMethodHead hm), h.masked.sameMarks.owner?,
    Match.start_congr hmn]

/-- A body is read in both texts, whatever it holds. -/
theorem javaBody_agrees (h : SameMarks s.masked t.masked) (stop : Nat) :
    AgreeUpTo (fun _ => ()) (javaBody s.masked stop) (javaBody t.masked stop) := by
  rw [javaBody, javaBody, h.findFrom? _ (by decide)]
  cases findFrom? ['\x7b'] t.masked stop with
  | none => rfl
  | some brace =>
      dsimp only
      rw [(h.slice stop brace).contains (by decide)]
      split
      · rfl
      · exact group_agrees h brace

theorem javaMethod_eq (source : SourceText) (m : Match) :
    javaMethod source m = (do
      let (parameters, stop) ← group source.masked (m.stop - 1)
      let body ← javaBody source.masked stop
      let preamble ← readPreamble annotatedStyle source.text source.masked (methodStart m)
      let parameters ← javaParameters parameters
      return {
        info := {
          name := String.ofList (m.group 3)
          description := describe preamble.description ("Method: " ++ String.ofList (m.group 3))
          lineNumber := source.lineNumber (m.groupStart 2)
          parameters := parameters.map DeclaredParameter.toParameter
          returnType := String.ofList (m.group 2)
          annotations := strings preamble.annotations }
        index := m.start
        modifiers := words (m.group 1)
        parameters
        body
        doc := preamble.description }) := rfl

theorem javaMethod_kept (h : s.Veiled t) {m n : Match}
    (hm : m ∈ javaMethodHead.findAll s.masked) (hn : n ∈ javaMethodHead.findAll t.masked)
    (hmn : m.outline = n.outline)
    (hkept : ∀ stretch ∈ methodStretches s.masked m, KeptIn s.masked t.masked stretch) :
    AgreeUpTo DeclaredMethod.bodiless (javaMethod s m) (javaMethod t n) := by
  have hhead := sameMethodHead h annotatedStyle hm hn hmn (quoteless_javaMethodHead hm) hkept
  rw [javaMethod_eq, javaMethod_eq, hhead.list, hhead.preamble, hhead.line, hhead.start, hhead.words,
    hhead.type, hhead.name]
  refine AgreeUpTo.bind_same _ fun list => ?_
  refine (javaBody_agrees h.masked.sameMarks list.2).bind fun body body' _ => ?_
  refine AgreeUpTo.bind_same _ fun preamble => ?_
  refine AgreeUpTo.bind_same _ fun parameters => ?_
  exact AgreeUpTo.pure rfl

/-- The methods are the same but for their bodies. -/
theorem javaMethods_kept (h : s.Veiled t) {types : List OpenType} (htypes : javaTypes s = .ok types)
    (hkept : ∀ stretch ∈ javaHeads s, KeptIn s.masked t.masked stretch) :
    AgreeUpTo (List.map bodilessEntry) (javaMethods s types) (javaMethods t types) := by
  rw [javaHeads, htypes] at hkept
  have hread : AgreeUpTo (List.map DeclaredMethod.bodiless)
      ((javaMethodMatches s.masked types).mapM (javaMethod s))
      ((javaMethodMatches t.masked types).mapM (javaMethod t)) := by
    refine AgreeUpTo.mapM_of_mem (javaMethodMatches_congr h types) fun m hm n hn hmn => ?_
    exact javaMethod_kept h (List.mem_filter.mp hm).1 (List.mem_filter.mp hn).1 hmn
      fun stretch hstretch =>
        hkept stretch (List.mem_append_right _ (List.mem_flatMap.mpr ⟨m, hm, hstretch⟩))
  exact hread.bind fun methods methods' hmethods =>
    AgreeUpTo.pure (ownedMethods_kept h.masked.sameMarks types hmethods)

end

end ServiceMap.Declaration
