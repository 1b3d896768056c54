import ServiceMap.Proofs.Declaration.KeptHeads

/-!
# C# around literals

The types and methods of two C# sources that differ within literals, none of which stands in a head,
are the same.
-/

namespace ServiceMap.Declaration

open Text Source Pattern

/-! ## Heads -/

/-- Whether a match is that of a field or property of a body. -/
def isMemberOf (masked : List Char) (body : Span) (m : Match) : Bool :=
  let type := String.ofList (m.group 2)
  !csharpStatementWords.contains type && !csharpModifiers.contains type
    && (strings (words (m.group 1))).all csharpModifiers.contains
    && body.encloses masked m.start

/-- The matches of the fields and properties in a body. -/
def csharpMemberMatches (masked : List Char) (body : Span) : List Match :=
  (csharpMember.findBetween masked body.start body.stop).filter (isMemberOf masked body)

/-- The brace that opens the body of the type whose head is `m`. -/
def csharpBrace? (masked : List Char) (m : Match) : Option Nat :=
  comesFirst (findFrom? ['\x7b'] masked m.stop) (findFrom? [';'] masked m.stop)

/-- The parenthesis that opens the parameter list of the record whose head is `m`. -/
def csharpList? (masked : List Char) (m : Match) : Option Nat :=
  comesFirst (findFrom? ['('] masked m.stop) (findFrom? [';'] masked m.stop)

/-- What is read of the head of a type, and of those of its members or its parameters, but for the
names. -/
def csharpTypeStretches (masked : List Char) (m : Match) : List (Nat × Nat) :=
  match csharpBrace? masked m with
  | some brace =>
    preambleStretch masked m.start :: bodyStretches masked (csharpMemberMatches masked) brace
  | none =>
    if !"record".toList.isPrefixOf (m.group 2) then []
    else
      match csharpList? masked m with
      | none => []
      | some parenthesis =>
        preambleStretch masked m.start :: listStretches masked parenthesis

/-- The matches of the methods of types. -/
def csharpMethodMatches (masked : List Char) (types : List OpenType) : List Match :=
  (csharpMethodHead.findAll masked).filter fun m =>
    isCSharpMethod m && types.any fun t => t.body.encloses masked m.start

/-- What is read of the heads of a C# source, but for the names. -/
def csharpHeads (source : SourceText) : List (Nat × Nat) :=
  (csharpTypeHead.findAll source.masked).flatMap (csharpTypeStretches source.masked)
    ++ match csharpTypes source with
      | .ok types =>
        (csharpMethodMatches source.masked types).flatMap (methodStretches source.masked)
      | .error _ => []

/-! ## Fields and properties -/

section

variable {s t : SourceText}

theorem isMemberOf_congr (h : SameMarks s.masked t.masked) (body : Span) {m n : Match}
    (hmn : m.outline = n.outline) (hwords : '"' ∉ m.group 1) :
    isMemberOf s.masked body m = isMemberOf t.masked body n := by
  have htype := Match.quoteless?_group hmn 2
  rw [isMemberOf, isMemberOf, Match.group_congr hmn hwords, Match.start_congr hmn, h.encloses,
    contains_congr csharpStatementWords (by decide) htype,
    contains_congr csharpModifiers (by decide) htype]

theorem csharpMemberMatches_congr (h : s.Veiled t) {brace stop : Nat} {rest : List Char}
    (hbrace : s.masked.drop brace = '\x7b' :: rest) (hstop : groupEnd s.masked brace = .ok stop) :
    (csharpMemberMatches s.masked ⟨brace + 1, stop⟩).map Match.outline
      = (csharpMemberMatches t.masked ⟨brace + 1, stop⟩).map Match.outline :=
  map_filter_congr (foundAlike_csharpMember.findBetween silent_csharpMember h.masked hbrace hstop)
    fun _ hm _ _ hmn => isMemberOf_congr h.masked.sameMarks _ hmn (quoteless_csharpMember hm).1

theorem csharpMembers_kept (h : s.Veiled t) {brace stop : Nat} {rest : List Char}
    (hbrace : s.masked.drop brace = '\x7b' :: rest) (hstop : groupEnd s.masked brace = .ok stop)
    (hkept : ∀ stretch ∈ bodyStretches s.masked (csharpMemberMatches s.masked) brace,
      KeptIn s.masked t.masked stretch) :
    csharpMembers s ⟨brace + 1, stop⟩ = csharpMembers t ⟨brace + 1, stop⟩ := by
  rw [bodyStretches, hstop] at hkept
  show (csharpMemberMatches s.masked _).mapM (readMember attributedStyle s)
    = (csharpMemberMatches t.masked _).mapM (readMember attributedStyle t)
  exact readMembers_kept h attributedStyle (fun _ hm => (List.mem_filter.mp hm).1)
    (fun _ hn => (List.mem_filter.mp hn).1) (csharpMemberMatches_congr h hbrace hstop)
    (fun _ hm => (quoteless_csharpMember (List.mem_filter.mp hm).1).2)
    fun m hm stretch hstretch => hkept stretch (List.mem_flatMap.mpr ⟨m, hm, hstretch⟩)

/-! ## Types -/

theorem csharpBrace?_congr (h : SameMarks s.masked t.masked) {m n : Match}
    (hmn : m.outline = n.outline) : csharpBrace? s.masked m = csharpBrace? t.masked n := by
  rw [csharpBrace?, csharpBrace?, ← Match.stop_congr hmn, h.findFrom? _ (by decide),
    h.findFrom? _ (by decide)]

theorem csharpList?_congr (h : SameMarks s.masked t.masked) {m n : Match}
    (hmn : m.outline = n.outline) : csharpList? s.masked m = csharpList? t.masked n := by
  rw [csharpList?, csharpList?, ← Match.stop_congr hmn, h.findFrom? _ (by decide),
    h.findFrom? _ (by decide)]

/-- What is said of the type whose head is `m`, apart from its methods and properties. -/
def csharpInfo (source : SourceText) (m : Match) (preamble : Preamble) : TypeDecl where
  name := String.ofList (m.group 3)
  description := describe preamble.description
    (String.ofList (title (m.group 2)) ++ ": " ++ String.ofList (m.group 3))
  lineNumber := source.lineNumber m.start
  annotations := strings preamble.annotations

/-- A parameter of a record as a property. -/
def DeclaredParameter.toProperty (p : DeclaredParameter) : Property where
  name := String.ofList p.name
  type := String.ofList p.type
  annotations := strings p.annotations

/-- The type whose head is `m`, by its brace or parenthesis. -/
theorem csharpType?_eq (source : SourceText) (m : Match) :
    csharpType? source m = (do
      let preamble ← readPreamble attributedStyle source.text source.masked m.start
      match csharpBrace? source.masked m with
      | some brace =>
        let stop ← groupEnd source.masked brace
        let properties ← csharpMembers source ⟨brace + 1, stop⟩
        return some ⟨{ csharpInfo source m preamble with properties }, ⟨brace + 1, stop⟩⟩
      | none =>
        if !"record".toList.isPrefixOf (m.group 2) then return none
        match csharpList? source.masked m with
        | none => return none
        | some parenthesis =>
          let (parameters, _) ← group source.masked parenthesis
          let properties := (csharpParameters parameters).map DeclaredParameter.toProperty
          return some ⟨{ csharpInfo source m preamble with properties }, ⟨m.stop, m.stop⟩⟩) := by
  rfl

theorem drop_of_csharpBrace? {masked : List Char} {m : Match} {brace : Nat}
    (h : csharpBrace? masked m = some brace) : ∃ rest, masked.drop brace = '\x7b' :: rest :=
  drop_of_findFrom? (comesFirst_eq_some h)

/-- A preamble is read in both texts, whatever it holds. -/
theorem attributed_then {α : Type} (h : SameMarks s.masked t.masked) (index : Nat)
    (next : Except Fault α) :
    (readPreamble attributedStyle s.text s.masked index >>= fun _ => next)
      = readPreamble attributedStyle t.text t.masked index >>= fun _ => next := by
  rw [readPreamble, readPreamble, h.preambleStart]
  cases preambleStart t.masked index <;> rfl

theorem csharpInfo_congr (h : SameMarks s.masked t.masked) {m n : Match}
    (hmn : m.outline = n.outline) (hgroups : '"' ∉ m.group 2 ∧ '"' ∉ m.group 3)
    (preamble : Preamble) : csharpInfo s m preamble = csharpInfo t n preamble := by
  have hline : s.lineNumber m.start = t.lineNumber m.start := h.lineNumber m.start
  rw [csharpInfo, csharpInfo, hline, Match.start_congr hmn, Match.group_congr hmn hgroups.1,
    Match.group_congr hmn hgroups.2]

theorem csharpType?_kept (h : s.Veiled t) {m n : Match} (hmn : m.outline = n.outline)
    (hgroups : '"' ∉ m.group 2 ∧ '"' ∉ m.group 3)
    (hkept : ∀ stretch ∈ csharpTypeStretches s.masked m, KeptIn s.masked t.masked stretch) :
    csharpType? s m = csharpType? t n := by
  have hmarks := h.masked.sameMarks
  rw [csharpType?_eq, csharpType?_eq, ← csharpBrace?_congr hmarks hmn,
    ← csharpList?_congr hmarks hmn, ← Match.group_congr hmn hgroups.1, ← Match.start_congr hmn,
    ← Match.stop_congr hmn]
  simp only [← csharpInfo_congr hmarks hmn hgroups]
  rw [csharpTypeStretches] at hkept
  cases hbrace : csharpBrace? s.masked m with
  | some brace =>
      -- a body
      rw [hbrace] at hkept
      obtain ⟨rest, hrest⟩ := drop_of_csharpBrace? hbrace
      rw [readPreamble_kept h attributedStyle _ (hkept _ List.mem_cons_self)]
      refine bind_congr fun preamble => ?_
      dsimp only
      rw [← hmarks.groupEnd brace]
      cases hstop : groupEnd s.masked brace with
      | error fault => rfl
      | ok stop =>
          have hmembers := csharpMembers_kept h hrest hstop fun stretch hstretch =>
            hkept stretch (List.mem_cons_of_mem _ hstretch)
          rw [except_ok_bind, except_ok_bind, hmembers]
  | none =>
      -- no body: a record or nothing
      rw [hbrace] at hkept
      dsimp only at hkept ⊢
      cases hrecord : !"record".toList.isPrefixOf (m.group 2) with
      | true => exact attributed_then hmarks m.start (.ok none)
      | false =>
          rw [hrecord, if_neg Bool.false_ne_true] at hkept
          cases hlist : csharpList? s.masked m with
          | none => exact attributed_then hmarks m.start (.ok none)
          | some parenthesis =>
              rw [hlist] at hkept
              have hgroup := group_kept h.masked fun stretch hstretch =>
                hkept stretch (List.mem_cons_of_mem _ hstretch)
              rw [readPreamble_kept h attributedStyle _ (hkept _ List.mem_cons_self)]
              refine bind_congr fun preamble => ?_
              dsimp only
              rw [hgroup]

theorem csharpTypes_kept (h : s.Veiled t)
    (hkept : ∀ stretch ∈ csharpHeads s, KeptIn s.masked t.masked stretch) :
    csharpTypes s = csharpTypes t := by
  have hheads := foundAlike_csharpTypeHead.findAll silent_csharpTypeHead h.masked
  rw [csharpTypes, csharpTypes, mapM_congr_of_mem hheads fun m hm n _ hmn =>
    csharpType?_kept h hmn (quoteless_csharpTypeHead hm) fun stretch hstretch =>
      hkept stretch (List.mem_append_left _ (List.mem_flatMap.mpr ⟨m, hm, hstretch⟩))]

/-! ## Methods -/

theorem isCSharpMethod_congr {m n : Match} (hmn : m.outline = n.outline)
    (hgroups : '"' ∉ m.group 1 ∧ '"' ∉ m.group 3) : isCSharpMethod m = isCSharpMethod n := by
  have htype := Match.quoteless?_group hmn 2
  rw [isCSharpMethod, isCSharpMethod, Match.group_congr hmn hgroups.1,
    Match.group_congr hmn hgroups.2,
    contains_congr csharpStatementWords (by decide) htype,
    contains_congr csharpModifiers (by decide) htype]

theorem csharpMethodMatches_congr (h : s.Veiled t) (types : List OpenType) :
    (csharpMethodMatches s.masked types).map Match.outline
      = (csharpMethodMatches t.masked types).map Match.outline := by
  refine map_filter_congr (foundAlike_csharpMethodHead.findAll silent_csharpMethodHead h.masked)
    fun m hm n _ hmn => ?_
  simp only [isCSharpMethod_congr hmn (quoteless_csharpMethodHead hm),
    h.masked.sameMarks.encloses, Match.start_congr hmn]

/-- A body is read in both texts, whatever it holds. -/
theorem csharpBody_agrees (h : SameMarks s.masked t.masked) (stop : Nat) :
    AgreeUpTo (fun _ => ()) (csharpBody s.masked stop) (csharpBody t.masked stop) := by
  rw [csharpBody, csharpBody, h.findFrom? ['\x7b'] (by decide),
    h.findFrom? ['=', '>'] (by decide), h.findFrom? [';'] (by decide)]
  split
  · exact group_agrees h _
  · split <;> rfl

theorem csharpMethod_eq (source : SourceText) (m : Match) :
    csharpMethod source m = (do
      let (parameters, stop) ← group source.masked (m.stop - 1)
      let preamble ← readPreamble attributedStyle source.text source.masked (methodStart m)
      let body ← csharpBody source.masked stop
      return {
        info := {
          name := String.ofList (m.group 3)
          description := describe preamble.description ("Method: " ++ String.ofList (m.group 3))
          lineNumber := source.lineNumber (m.groupStart 2)
          parameters := (csharpParameters parameters).map DeclaredParameter.toParameter
          returnType := String.ofList (m.group 2)
          annotations := strings preamble.annotations }
        index := m.start
        modifiers := words (m.group 1)
        parameters := csharpParameters parameters
        body
        doc := preamble.description }) := rfl

theorem csharpMethod_kept (h : s.Veiled t) {m n : Match}
    (hm : m ∈ csharpMethodHead.findAll s.masked) (hn : n ∈ csharpMethodHead.findAll t.masked)
    (hmn : m.outline = n.outline)
    (hkept : ∀ stretch ∈ methodStretches s.masked m, KeptIn s.masked t.masked stretch) :
    AgreeUpTo DeclaredMethod.bodiless (csharpMethod s m) (csharpMethod t n) := by
  have hhead := sameMethodHead h attributedStyle hm hn hmn (quoteless_csharpMethodHead hm) hkept
  rw [csharpMethod_eq, csharpMethod_eq, hhead.list, hhead.preamble, hhead.line, hhead.start, hhead.words,
    hhead.type, hhead.name]
  refine AgreeUpTo.bind_same _ fun list => ?_
  refine AgreeUpTo.bind_same _ fun preamble => ?_
  refine (csharpBody_agrees h.masked.sameMarks list.2).bind fun body body' _ => ?_
  exact AgreeUpTo.pure rfl

/-- The methods are the same but for their bodies. -/
theorem csharpMethods_kept (h : s.Veiled t) {types : List OpenType}
    (htypes : csharpTypes s = .ok types)
    (hkept : ∀ stretch ∈ csharpHeads s, KeptIn s.masked t.masked stretch) :
    AgreeUpTo (List.map DeclaredMethod.bodiless) (csharpMethods s types)
      (csharpMethods t types) := by
  rw [csharpHeads, htypes] at hkept
  refine AgreeUpTo.mapM_of_mem (csharpMethodMatches_congr h types) fun m hm n hn hmn => ?_
  exact csharpMethod_kept h (List.mem_filter.mp hm).1 (List.mem_filter.mp hn).1 hmn
    fun stretch hstretch =>
      hkept stretch (List.mem_append_right _ (List.mem_flatMap.mpr ⟨m, hm, hstretch⟩))

end

end ServiceMap.Declaration
