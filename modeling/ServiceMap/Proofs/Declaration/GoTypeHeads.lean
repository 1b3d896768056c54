import ServiceMap.Link.Symbol
import ServiceMap.Proofs.Declaration.Readers
import ServiceMap.Proofs.Link.Headers
import ServiceMap.Proofs.Pattern.FirstWay
import ServiceMap.Proofs.Pattern.Found

/-!
# Heads of Go types

The head of a struct or an interface is the word `type`, a name, the kind of the type and a brace. No
head starts inside another one. So each head that is written is found, and those of structs alone are
the heads of structs among all.
-/

namespace ServiceMap.Declaration

open Text Source Pattern Link

/-! ## Heads in print -/

/-- The head of a type up to the brace of its body. -/
structure GoTypeHead where
  gap : Space
  name : TypeName
  space : Space
  kind : String
  isKind : kind ∈ ["struct", "interface"]
  trailing : Gap

namespace GoTypeHead

/-- A head from the name on. -/
def printNamed (h : GoTypeHead) : List Char :=
  h.name.text ++ (h.space.text ++ (h.kind.toList ++ (h.trailing.text ++ ['\x7b'])))

/-- A head as it is written. -/
def print (h : GoTypeHead) : List Char :=
  "type".toList ++ (h.gap.text ++ h.printNamed)

theorem kind_isWord (h : GoTypeHead) : h.kind.toList ≠ [] ∧ ∀ c ∈ h.kind.toList, isWord c = true := by
  have hkinds : ∀ kind ∈ ["struct", "interface"],
      kind.toList ≠ [] ∧ kind.toList.all isWord = true := by decide
  obtain ⟨hne, hall⟩ := hkinds h.kind h.isKind
  exact ⟨hne, List.all_eq_true.mp hall⟩

theorem kind_ne_type (h : GoTypeHead) : h.kind.toList ≠ "type".toList := by
  have hkinds : ∀ kind ∈ ["struct", "interface"], kind.toList ≠ "type".toList := by decide
  exact hkinds h.kind h.isKind

/-- No name goes on behind the kind. -/
theorem trailing_head (h : GoTypeHead) (rest : List Char) :
    ∀ c ∈ (h.trailing.text ++ '\x7b' :: rest).head?, isWord c = false :=
  fun c hc => isWord_eq_false (h.trailing.head_append (forall_head?_cons (by decide) rest) c hc)

theorem printNamed_append (h : GoTypeHead) (rest : List Char) :
    h.printNamed ++ rest
      = h.name.text ++ (h.space.text ++ (h.kind.toList ++ (h.trailing.text ++ '\x7b' :: rest))) := by
  simp only [printNamed, List.append_assoc, List.singleton_append]

theorem print_append (h : GoTypeHead) (rest : List Char) :
    h.print ++ rest = "type".toList ++ (h.gap.text ++ (h.printNamed ++ rest)) := by
  rw [print, List.append_assoc, List.append_assoc]

end GoTypeHead

/-! ## What the patterns describe -/

/-- What heads start with, up to the blanks before the kind. -/
def goTypeFront : Pattern :=
  wordEdge ++ lit "type" ++ blanks1 ++ capture 1 word ++ blanks1

theorem isWord_before_of_edge {before : Option Char} {rest : List Char}
    (hrest : rest.head?.any isWord = true) (h : before.any isWord ≠ rest.head?.any isWord) :
    ∀ c ∈ before, isWord c = false := by
  rintro c rfl
  rw [hrest] at h
  exact Bool.eq_false_iff.mpr h

/-- A stretch that a pattern of heads describes is a head in print. -/
theorem head_of_takes (kinds : Pattern)
    (hkinds : ∀ {before taken rest}, kinds.Takes before taken rest →
      ∃ kind ∈ ["struct", "interface"], taken = kind.toList)
    {before : Option Char} {taken rest : List Char}
    (h : (goTypeFront ++ kinds ++ blanks ++ char (· == '\x7b')).Takes before taken rest) :
    (∀ c ∈ before, isWord c = false) ∧ ∃ head : GoTypeHead, taken = head.print
      ∧ ∃ between, kinds.Takes between head.kind.toList (head.trailing.text ++ '\x7b' :: rest) := by
  obtain ⟨_, _, rfl, ⟨_, trailing, rfl, ⟨_, _, rfl, hfront, hkind⟩, htrailing⟩, c, hc, rfl⟩ := h
  obtain ⟨_, space, rfl, ⟨_, name, rfl, ⟨_, gap, rfl, ⟨_, _, rfl, ⟨rfl, hedge⟩, hword⟩, hgap⟩, hname⟩,
    hspace⟩ := hfront
  obtain rfl := takes_lit.mp hword
  obtain rfl := beq_iff_eq.mp hc
  obtain ⟨kind, hmem, rfl⟩ := hkinds hkind
  obtain ⟨hgap, hgap'⟩ := takes_many1.mp hgap
  obtain ⟨hname, hname'⟩ := takes_many1.mp hname
  obtain ⟨hspace, hspace'⟩ := takes_many1.mp hspace
  refine ⟨isWord_before_of_edge (by rfl) hedge, ⟨⟨⟨gap, hgap'⟩, hgap⟩, ⟨name, hname, hname'⟩,
    ⟨⟨space, hspace'⟩, hspace⟩, kind, hmem, ⟨trailing, htrailing⟩⟩, ?_, _, hkind⟩
  simp [GoTypeHead.print, GoTypeHead.printNamed]

theorem head_of_goTypeHead {before : Option Char} {taken rest : List Char}
    (h : goTypeHead.Takes before taken rest) :
    (∀ c ∈ before, isWord c = false) ∧ ∃ head : GoTypeHead, taken = head.print := by
  obtain ⟨hbefore, head, htaken, -⟩ := head_of_takes
    (capture 2 (oneOf ["struct", "interface"])) (fun h => takes_oneOf.mp h) h
  exact ⟨hbefore, head, htaken⟩

theorem head_of_structHead {before : Option Char} {taken rest : List Char}
    (h : structHead.Takes before taken rest) :
    (∀ c ∈ before, isWord c = false)
      ∧ ∃ head : GoTypeHead, taken = head.print ∧ head.kind = "struct" := by
  obtain ⟨hbefore, head, htaken, _, hkind⟩ := head_of_takes (lit "struct")
    (fun h => ⟨"struct", by decide, takes_lit.mp h⟩) h
  exact ⟨hbefore, head, htaken, String.toList_inj.mp (takes_lit.mp hkind)⟩

/-! ## Heads are matched -/

section Matching

variable {limit : Nat} {p : Place}

/-- A head is taken up to its kind, and its name is remembered. -/
theorem takesFirst_goTypeFront (limit : Nat) (gap space : Space) (name : TypeName) {rest : List Char}
    (hrest : ∀ c ∈ rest.head?, isWord c = true) (hbefore : ∀ c ∈ p.before, isWord c = false)
    (htext : p.rest = "type".toList ++ (gap.text ++ (name.text ++ (space.text ++ rest)))) :
    ∃ c : Capture, c.text = name.text
      ∧ goTypeFront.TakesFirst limit p
        ("type".toList ++ (gap.text ++ (name.text ++ space.text))) rest [(1, c)] := by
  have hname : ∀ c ∈ (name.text ++ (space.text ++ rest)).head?, isBlank c = false :=
    forall_head?_append name.nonempty (fun c hc => isBlank_of_isWord (name.ofWords c hc)) _
  have hedge : wordEdge.TakesFirst limit p [] p.rest [] :=
    takesFirst_edge_of_word (c := 't') (by decide) hbefore htext
  have hword : (lit "type").TakesFirst limit (p.after [] p.rest []) "type".toList
      (gap.text ++ (name.text ++ (space.text ++ rest))) [] := takesFirst_lit htext
  have hgap := (hedge.append hword).append (gap.takesFirst hname rfl)
  have hbody : word.TakesFirst limit (p.after ([] ++ "type".toList ++ gap.text)
      (name.text ++ (space.text ++ rest)) ([] ++ ([] ++ []))) name.text (space.text ++ rest) [] :=
    takesFirst_many1 rfl name.nonempty name.ofWords fun c hc =>
      isWord_eq_false (space.head_append rest c hc)
  obtain ⟨c, hc, hcaptured⟩ := takesFirst_captured 1 hbody
  have hfront := (hgap.append hcaptured).append
    (space.takesFirst (fun c hc => isBlank_of_isWord (hrest c hc)) rfl)
  refine ⟨c, hc, ?_⟩
  simp only [List.nil_append, List.append_nil, List.append_assoc] at hfront
  exact hfront

/-- A head is taken if its kind is. -/
theorem takesFirst_head (limit : Nat) {kinds : Pattern} (new : Place → List (Nat × Capture))
    (h : GoTypeHead) {rest : List Char}
    (hkind : ∀ p : Place, p.rest = h.kind.toList ++ (h.trailing.text ++ '\x7b' :: rest) →
      kinds.TakesFirst limit p h.kind.toList (h.trailing.text ++ '\x7b' :: rest) (new p))
    (hbefore : ∀ c ∈ p.before, isWord c = false) (htext : p.rest = h.print ++ rest) :
    ∃ (c : Capture) (q : Place), c.text = h.name.text
      ∧ q.rest = h.kind.toList ++ (h.trailing.text ++ '\x7b' :: rest)
      ∧ (goTypeFront ++ kinds ++ blanks ++ char (· == '\x7b')).TakesFirst limit p h.print rest
        (new q ++ [(1, c)]) := by
  have hhead : ∀ c ∈ (h.kind.toList ++ (h.trailing.text ++ '\x7b' :: rest)).head?,
      isWord c = true := forall_head?_append h.kind_isWord.1 h.kind_isWord.2 _
  obtain ⟨c, hc, hfront⟩ := takesFirst_goTypeFront limit h.gap h.space h.name hhead
    hbefore (by rw [htext, h.print_append, h.printNamed_append])
  have hblanks : ∀ q : Place, q.rest = h.trailing.text ++ '\x7b' :: rest →
      blanks.TakesFirst limit q h.trailing.text ('\x7b' :: rest) [] := fun q hq =>
    h.trailing.takesFirst (forall_head?_cons (by decide) rest) hq
  have hbrace : ∀ q : Place, q.rest = '\x7b' :: rest →
      (char (· == '\x7b')).TakesFirst limit q ['\x7b'] rest [] := fun q hq =>
    takesFirst_char hq (by decide)
  have hwhole := ((hfront.append (hkind _ rfl)).append (hblanks _ rfl)).append (hbrace _ rfl)
  simp only [List.nil_append, List.append_assoc] at hwhole
  exact ⟨c, p.after ("type".toList ++ (h.gap.text ++ (h.name.text ++ h.space.text)))
    (h.kind.toList ++ (h.trailing.text ++ '\x7b' :: rest)) [(1, c)], hc, rfl, hwhole⟩

theorem matchHere?_goTypeHead (limit : Nat) {h : GoTypeHead} {rest : List Char}
    (hbefore : ∀ c ∈ p.before, isWord c = false) (htext : p.rest = h.print ++ rest) :
    ∃ m, goTypeHead.matchHere? limit p = some m ∧ m.start = p.index
      ∧ m.stop = p.index + h.print.length ∧ m.group 1 = h.name.text
      ∧ m.group 2 = h.kind.toList := by
  have hkind : ∀ p : Place, p.rest = h.kind.toList ++ (h.trailing.text ++ '\x7b' :: rest) →
      (capture 2 (oneOf ["struct", "interface"])).TakesFirst limit p h.kind.toList
        (h.trailing.text ++ '\x7b' :: rest)
        [(2, ⟨p.index, p.index + h.kind.toList.length, p.rest⟩)] := by
    intro p hp
    refine TakesFirst.capture 2 ?_
    have hcases : h.kind = "struct" ∨ h.kind = "interface" := by simpa using h.isKind
    rcases hcases with hcase | hcase
    · rw [hcase] at hp ⊢
      exact (takesFirst_lit hp).left
    · rw [hcase] at hp ⊢
      have hstruct : (lit "struct").Fails limit p := fails_of_not_takes fun taken rest htext htakes => by
        rw [hp, takes_lit.mp htakes] at htext
        exact absurd (List.cons.inj htext).1 (by decide)
      exact hstruct.right (takesFirst_lit hp)
  obtain ⟨c, q, hc, hq, htakes⟩ := takesFirst_head limit _ h hkind hbefore htext
  refine ⟨_, matchHere?_of_takesFirst htakes, rfl, rfl, ?_, ?_⟩
  · exact hc
  · exact group_of_lookup (r := h.trailing.text ++ '\x7b' :: rest) (by rw [← hq]; rfl) rfl

theorem matchHere?_structHead (limit : Nat) {h : GoTypeHead} {rest : List Char} (hkind : h.kind = "struct")
    (hbefore : ∀ c ∈ p.before, isWord c = false) (htext : p.rest = h.print ++ rest) :
    ∃ m, structHead.matchHere? limit p = some m ∧ m.start = p.index
      ∧ m.stop = p.index + h.print.length ∧ m.group 1 = h.name.text := by
  obtain ⟨c, q, hc, hq, htakes⟩ := takesFirst_head limit (fun _ => []) h
    (fun p hp => (hkind ▸ takesFirst_lit (hkind ▸ hp) : (lit "struct").TakesFirst limit p _ _ []))
    hbefore htext
  exact ⟨_, matchHere?_of_takesFirst htakes, rfl, rfl, hc⟩

end Matching

/-! ## Heads do not overlap -/

/-- A stretch that reaches into a text behind a word and blanks holds both. -/
theorem split_word_gap {s t w gap r : List Char} (hs : s ≠ [])
    (hlast : ∀ c ∈ s.getLast?, isWord c = false) (hne : t ≠ [])
    (ht : ∀ c ∈ t.head?, isBlank c = false) (hw : ∀ c ∈ w, isWord c = true)
    (hgap : ∀ c ∈ gap, isBlank c = true) (h : s ++ t = w ++ (gap ++ r)) :
    ∃ s', s = w ++ (gap ++ s') ∧ r = s' ++ t ∧ ∀ c ∈ s'.getLast?, isWord c = false := by
  obtain ⟨more, rfl, hmore⟩ := word_in_stretch hw hs (Or.inl hlast) h
  rcases List.append_eq_append_iff.mp hmore with ⟨u, rfl, rfl⟩ | ⟨u, rfl, rfl⟩
  · refine ⟨u, rfl, rfl, fun c hc => hlast c ?_⟩
    rw [List.getLast?_append, List.getLast?_append, hc]
    rfl
  · cases u with
    | nil => exact ⟨[], by simp, rfl, fun c hc => nomatch hc⟩
    | cons c u => 
        -- the blanks would go on where the second text starts
        exact absurd ((ht c rfl).symm.trans (hgap c (by simp))) Bool.false_ne_true

namespace GoTypeHead

variable {h k : GoTypeHead} {rest rest' : List Char}

/-- The name of a head and what follows it are not read as the start of another head. -/
theorem printNamed_ne (heq : h.printNamed ++ rest = k.print ++ rest') : False := by
  have htype : ∀ c ∈ "type".toList, isWord c = true := forall_mem_of_all (by decide)
  have hname : ∀ c ∈ (k.printNamed ++ rest').head?, isBlank c = false := by
    rw [k.printNamed_append]
    exact forall_head?_append k.name.nonempty
      (fun c hc => isBlank_of_isWord (k.name.ofWords c hc)) _
  have hkind : ∀ (h : GoTypeHead) (t : List Char), ∀ c ∈ (h.kind.toList ++ t).head?,
      isBlank c = false := fun h t => forall_head?_append h.kind_isWord.1
    (fun c hc => isBlank_of_isWord (h.kind_isWord.2 c hc)) t
  rw [h.printNamed_append, k.print_append] at heq
  obtain ⟨-, -, heq⟩ := word_gap_inj h.name.ofWords htype ⟨h.space.nonempty, h.space.ofBlanks⟩
    ⟨k.gap.nonempty, k.gap.ofBlanks⟩ (hkind h _) hname heq
  -- the kind of the one would be the name of the other, and a brace would be its kind
  rw [k.printNamed_append] at heq
  obtain ⟨-, heq⟩ := append_inj_of_span (h.trailing_head rest)
    (fun c hc => isWord_eq_false (k.space.head_append _ c hc)) _ h.kind_isWord.2 k.name.ofWords heq
  obtain ⟨-, heq⟩ := append_inj_of_span (forall_head?_cons (by decide) rest) (hkind k _) _
    h.trailing.ofBlanks k.space.ofBlanks heq
  obtain ⟨c, s, hs⟩ := List.exists_cons_of_ne_nil k.kind_isWord.1
  have hc := k.kind_isWord.2 c (by rw [hs]; exact List.mem_cons_self)
  rw [hs] at heq
  rw [← (List.cons.inj heq).1] at hc
  exact absurd hc (by decide)

/-- No head starts inside another one. -/
theorem apart {s t : List Char} (hsplit : h.print = s ++ t) (hs : s ≠ [])
    (hlast : ∀ c ∈ s.getLast?, isWord c = false) (htext : t ++ rest = k.print ++ rest') : t = [] := by
  by_contra hne
  have htype : ∀ c ∈ "type".toList, isWord c = true := forall_mem_of_all (by decide)
  have hhead : t.head? = some 't' := by
    obtain ⟨c, t, rfl⟩ := List.exists_cons_of_ne_nil hne
    rw [k.print_append] at htext
    rw [(List.cons.inj htext).1]
    rfl
  have ht : ∀ c ∈ t.head?, isBlank c = false := fun c hc => by
    rw [hhead] at hc
    exact Option.some.inj hc ▸ by decide
  obtain ⟨s, rfl, hrest, hlast⟩ := split_word_gap hs hlast hne ht htype h.gap.ofBlanks hsplit.symm
  by_cases hs : s = []
  · rw [hs, List.nil_append] at hrest
    exact printNamed_ne (hrest ▸ htext)
  obtain ⟨s, rfl, hrest, hlast⟩ :=
    split_word_gap hs hlast hne ht h.name.ofWords h.space.ofBlanks hrest.symm
  by_cases hs : s = []
  · -- the kind would be the word that heads start with
    rw [hs, List.nil_append] at hrest
    rw [← hrest, k.print_append, List.append_assoc, List.append_assoc] at htext
    refine h.kind_ne_type (append_inj_of_span (h.trailing_head rest) (fun c hc => isWord_eq_false
      (k.gap.head_append _ c hc)) _ h.kind_isWord.2 htype htext).1
  obtain ⟨s, rfl, hrest, -⟩ :=
    split_word_gap hs hlast hne ht h.kind_isWord.2 h.trailing.ofBlanks hrest.symm
  cases s with
  | nil =>
      rw [← show ['\x7b'] = t from hrest] at hhead
      exact absurd hhead (by decide)
  | cons c s => exact hne (List.append_eq_nil_iff.mp (List.cons.inj hrest).2.symm).2

end GoTypeHead

theorem keepsApart_goTypeHead : KeepsApart goTypeHead goTypeHead := by
  intro before s t rest taken rest' hfirst hsecond htext
  obtain ⟨-, h, hsplit⟩ := head_of_goTypeHead hfirst
  obtain ⟨hbefore, k, rfl⟩ := head_of_goTypeHead hsecond
  by_cases hs : s = []
  · exact Or.inl hs
  · refine Or.inr (h.apart hsplit.symm hs (fun c hc => hbefore c ?_) htext)
    rw [lastOr, hc]
    rfl

theorem keepsApart_structHead : KeepsApart goTypeHead structHead := by
  intro before s t rest taken rest' hfirst hsecond htext
  obtain ⟨-, h, hsplit⟩ := head_of_goTypeHead hfirst
  obtain ⟨hbefore, k, rfl, -⟩ := head_of_structHead hsecond
  by_cases hs : s = []
  · exact Or.inl hs
  · refine Or.inr (h.apart hsplit.symm hs (fun c hc => hbefore c ?_) htext)
    rw [lastOr, hc]
    rfl

/-! ## Heads of structs -/

/-- Two heads at one place with one name. -/
structure IsSameHead (m n : Match) : Prop where
  start : m.start = n.start
  stop : m.stop = n.stop
  name : m.group 1 = n.group 1

/-- The heads of structs are those among all heads whose kind is this. -/
theorem selects_structHead :
    Selects goTypeHead structHead (fun m => m.group 2 == "struct".toList) IsSameHead where
  within := by
    intro limit here m hm
    obtain ⟨_, rest, htext, htakes, -, -⟩ := takes_of_matchHere? hm
    obtain ⟨hbefore, h, rfl, hkind⟩ := head_of_structHead htakes
    obtain ⟨m', hm', hstart, hstop, hname⟩ :=
      matchHere?_structHead limit hkind hbefore htext
    obtain rfl := Option.some.inj (hm.symm.trans hm')
    obtain ⟨n, hn, hstart', hstop', hname', hkind'⟩ :=
      matchHere?_goTypeHead limit hbefore htext
    refine ⟨n, hn, ?_, ⟨hstart.trans hstart'.symm, hstop.trans hstop'.symm,
      hname.trans hname'.symm⟩, hstop.trans hstop'.symm⟩
    rw [hkind', hkind]
    exact beq_self_eq_true _
  all := by
    intro limit here n hn hselect
    obtain ⟨_, rest, htext, htakes, -, -⟩ := takes_of_matchHere? hn
    obtain ⟨hbefore, h, rfl⟩ := head_of_goTypeHead htakes
    obtain ⟨n', hn', -, -, -, hkind⟩ := matchHere?_goTypeHead limit hbefore htext
    obtain rfl := Option.some.inj (hn.symm.trans hn')
    rw [hkind] at hselect
    obtain ⟨m, hm, -⟩ := matchHere?_structHead limit
      (String.toList_inj.mp (beq_iff_eq.mp hselect)) hbefore htext
    exact ⟨m, hm⟩

/-! ## The type of a head -/

theorem goType_eq_ok {source : SourceText} {m : Match} {type : TypeDecl}
    (h : goType source m = .ok type) :
    ∃ body stop, group source.masked (m.stop - 1) = .ok (body, stop)
      ∧ type.name = String.ofList (m.group 1) ∧ type.lineNumber = source.lineNumber m.start
      ∧ type.properties = if m.group 2 == "struct".toList then goProperties body else [] := by
  obtain ⟨⟨body, stop⟩, hbody, h⟩ := except_bind_eq_ok h
  obtain ⟨doc, -, h⟩ := except_bind_eq_ok h
  obtain rfl := Except.ok.inj h
  exact ⟨body, stop, hbody, rfl, rfl, rfl⟩

/-- Apart from its methods each type stays as it is. -/
theorem mem_attachMethods (functions : List GoFunction) {type : TypeDecl} {types : List TypeDecl}
    (h : type ∈ types) :
    ∀ seen, ∃ methods, { type with methods } ∈ attachMethods functions seen types := by
  induction types with
  | nil => exact absurd h List.not_mem_nil
  | cons first types ih =>
      intro seen
      rcases List.mem_cons.mp h with rfl | h
      · exact ⟨_, List.mem_cons_self⟩
      · obtain ⟨methods, hmethods⟩ := ih h (first.name :: seen)
        exact ⟨methods, List.mem_cons_of_mem _ hmethods⟩

/-- A head that stands in a text is that of a type of the text. -/
theorem exists_type_of_head {text front rest : List Char} {head : GoTypeHead}
    (hfront : ∀ c ∈ front.getLast?, isWord c = false)
    (hmasked : maskComments Language.go.rawQuote text = front ++ (head.print ++ rest)) :
    ∃ types, goTypes (.ofText Language.go.rawQuote text) = .ok types
      ∧ ∃ type ∈ types, type.name = head.name.toString
        ∧ type.lineNumber = (SourceText.ofText Language.go.rawQuote text).lineNumber front.length
        ∧ ∃ body stop, group (front ++ (head.print ++ rest)) (front.length + head.print.length - 1)
            = .ok (body, stop)
          ∧ type.properties = if head.kind = "struct" then goProperties body else [] := by
  obtain ⟨types, htypes⟩ := neverFails_iff.mp
    (goTypes_neverFails (hasLines_ofText Language.go.rawQuote text))
  obtain ⟨found, hfound, hrest⟩ := except_bind_eq_ok htypes
  obtain ⟨functions, -, hrest⟩ := except_bind_eq_ok hrest
  have hbefore : ∀ c ∈ lastOr none front, isWord c = false := by rwa [lastOr_none]
  obtain ⟨m, hm, hstart, hstop, hname, hkind⟩ := matchHere?_goTypeHead
    (front ++ (head.print ++ rest)).length
    (p := ⟨lastOr none front, head.print ++ rest, front.length, []⟩) hbefore rfl
  have hmem := mem_findAll_of_keepsApart keepsApart_goTypeHead hm
  rw [← hmasked] at hmem
  obtain ⟨type, htype, hread⟩ := exists_mem_of_mapM_eq_ok hfound hmem
  obtain ⟨body, stop, hbody, hname', hline, hproperties⟩ := goType_eq_ok hread
  obtain ⟨methods, hmethods⟩ := mem_attachMethods functions htype []
  refine ⟨types, htypes, { type with methods }, Except.ok.inj hrest ▸ hmethods, ?_, ?_, body, stop,
    ?_, ?_⟩
  · rw [hname', hname]; rfl
  · rw [hline, hstart]
  · rw [← hmasked]
    rw [hstop] at hbody
    exact hbody
  · rw [hproperties, hkind]
    simp only [beq_iff_eq, String.toList_inj]

end ServiceMap.Declaration
