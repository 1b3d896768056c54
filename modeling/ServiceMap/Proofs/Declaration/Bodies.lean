import Mathlib.Data.List.Nodup
import ServiceMap.Declaration.JavaType
import ServiceMap.Proofs.Source.Groups
import ServiceMap.Proofs.Source.Positions
import ServiceMap.Proofs.Text.Names

/-!
# Bodies and braces

Whether a position lies directly in the body of a type is told by counting braces between the start
of the body and the position. In a text without quotes this is the matching of braces: the body that
a brace opens holds the positions at which this brace is the innermost one that is open. Bodies that
start at different places therefore share no position, and the owner of a position does not depend
on the order in which the types are listed.
-/

namespace ServiceMap

open Text Source

namespace Declaration

/-! ## Owners -/

section Owners

variable {masked : List Char} {index : Nat}

theorem owner?_eq_some {spans : List Span} {number : Nat}
    (h : owner? spans masked index = some number) :
    ∃ span, spans[number]? = some span ∧ span.encloses masked index = true := by
  obtain ⟨⟨span, position⟩, hfind, rfl⟩ := Option.map_eq_some_iff.mp h
  have hmem := List.mem_reverse.mp (List.mem_of_find?_eq_some hfind)
  have hencloses := List.find?_some (p := fun entry : Span × Nat => entry.1.encloses masked index) hfind
  exact ⟨span, List.mem_zipIdx_iff_getElem?.mp hmem, hencloses⟩

/-- A position that lies directly in a body has an owner, if not this body then a later one. -/
theorem exists_owner?_of_mem {spans : List Span} {span : Span} (hspan : span ∈ spans)
    (h : span.encloses masked index = true) : ∃ number, owner? spans masked index = some number := by
  obtain ⟨number, hnumber⟩ := List.mem_iff_getElem?.mp hspan
  have hmem : (span, number) ∈ spans.zipIdx.reverse :=
    List.mem_reverse.mpr (List.mem_zipIdx_iff_getElem?.mpr hnumber)
  rw [owner?]
  cases hfind : spans.zipIdx.reverse.find? fun entry => entry.1.encloses masked index with
  | some entry => exact ⟨entry.2, rfl⟩
  | none => exact absurd h (by simpa using List.find?_eq_none.mp hfind _ hmem)

variable {types : List OpenType} {type : OpenType}

/-- The type that owns a position, by the body that holds it. -/
theorem exists_type_of_owner? {number : Nat}
    (h : owner? (types.map OpenType.body) masked index = some number) :
    ∃ type, types[number]? = some type ∧ type.body.encloses masked index = true := by
  obtain ⟨span, hspan, hencloses⟩ := owner?_eq_some h
  rw [List.getElem?_map, Option.map_eq_some_iff] at hspan
  obtain ⟨type, htype, rfl⟩ := hspan
  exact ⟨type, htype, hencloses⟩

/-- The type that owns a position, as it is listed. -/
def ownerType? (types : List OpenType) (masked : List Char) (position : Int) : Option OpenType :=
  (ownerAt? (types.map OpenType.body) masked position).bind fun number => types[number]?

/-- The owner of a position that lies directly in one body at most. -/
theorem ownerType?_eq_some_iff
    (hone : ∀ t ∈ types, ∀ u ∈ types, t.body.encloses masked index = true →
      u.body.encloses masked index = true → t = u) :
    ownerType? types masked index = some type
      ↔ type ∈ types ∧ type.body.encloses masked index = true := by
  have howner : ownerType? types masked index
      = (owner? (types.map OpenType.body) masked index).bind fun number => types[number]? := by
    rw [ownerType?, ownerAt?, if_neg (by omega), Int.toNat_natCast]
  rw [howner]
  constructor
  · intro h
    obtain ⟨number, hnumber, hfound⟩ := Option.bind_eq_some_iff.mp h
    obtain ⟨other, hother, hencloses⟩ := exists_type_of_owner? hnumber
    obtain rfl := Option.some.inj (hother.symm.trans hfound)
    exact ⟨List.mem_of_getElem? hother, hencloses⟩
  · rintro ⟨hmem, hencloses⟩
    obtain ⟨number, hnumber⟩ := exists_owner?_of_mem (List.mem_map_of_mem hmem) hencloses
    obtain ⟨other, hother, hencloses'⟩ := exists_type_of_owner? hnumber
    rw [hnumber, Option.bind_some, hother,
      hone other (List.mem_of_getElem? hother) type hmem hencloses' hencloses]

end Owners

/-! ## Open braces -/

/-- The braces that are open behind a text, by their positions, the innermost first. A closing brace
closes the innermost one, and nothing where none is open. -/
def openBraces : (braces : List Nat) → (position : Nat) → List Char → List Nat
  | braces, _, [] => braces
  | braces, position, c :: s =>
    if c = '\x7b' then openBraces (position :: braces) (position + 1) s
    else if c = '\x7d' then openBraces braces.tail (position + 1) s
    else openBraces braces (position + 1) s

/-- The innermost of the braces that are open at a position. -/
def innermostBrace? (text : List Char) (index : Nat) : Option Nat :=
  (openBraces [] 0 (text.take index)).head?

section Braces

variable (braces : List Nat) (position : Nat) (s : List Char)

theorem openBraces_opener : openBraces braces position (Bracket.curly.opener :: s)
    = openBraces (position :: braces) (position + 1) s :=
  if_pos rfl

theorem openBraces_closer : openBraces braces position (Bracket.curly.closer :: s)
    = openBraces braces.tail (position + 1) s :=
  (if_neg (by decide)).trans (if_pos rfl)

theorem openBraces_other {c : Char} (hopener : c ≠ Bracket.curly.opener)
    (hcloser : c ≠ Bracket.curly.closer) :
    openBraces braces position (c :: s) = openBraces braces (position + 1) s :=
  (if_neg hopener).trans (if_neg hcloser)

theorem openBraces_append (t : List Char) :
    openBraces braces position (s ++ t)
      = openBraces (openBraces braces position s) (position + s.length) t := by
  induction s generalizing braces position with
  | nil => rfl
  | cons c s ih =>
      have hlength : position + (c :: s).length = position + 1 + s.length := by
        rw [List.length_cons]
        omega
      rw [List.cons_append, openBraces, openBraces, hlength]
      split
      · exact ih _ _
      · split
        · exact ih _ _
        · exact ih _ _

/-- Braces that are open behind a text stand in it, or were open before. -/
theorem mem_openBraces {brace : Nat} (h : brace ∈ openBraces braces position s) :
    brace ∈ braces ∨ position ≤ brace ∧ brace < position + s.length := by
  induction s generalizing braces position with
  | nil => exact Or.inl h
  | cons c s ih =>
      rw [List.length_cons]
      rw [openBraces] at h
      split at h
      · rcases ih _ _ h with hmem | hrange
        · rcases List.mem_cons.mp hmem with rfl | hmem
          · exact Or.inr ⟨Nat.le_refl _, by omega⟩
          · exact Or.inl hmem
        · exact Or.inr (by omega)
      · split at h
        · rcases ih _ _ h with hmem | hrange
          · exact Or.inl (List.mem_of_mem_tail hmem)
          · exact Or.inr (by omega)
        · rcases ih _ _ h with hmem | hrange
          · exact Or.inl hmem
          · exact Or.inr (by omega)

end Braces

/-- A text that closes no brace too early leaves the outer braces open, and as many more as counting
says; these stand in the text. -/
theorem openBraces_of_depthAfter (outer inner : List Nat) (position : Nat) {after : Nat}
    {s : List Char} (h : Bracket.curly.depthAfter inner.length s = some after) :
    ∃ more, openBraces (inner ++ outer) position s = more ++ outer ∧ more.length = after
      ∧ ∀ brace ∈ more, brace ∈ inner ∨ position ≤ brace := by
  induction s generalizing inner position with
  | nil => exact ⟨inner, rfl, Option.some.inj h, fun _ => Or.inl⟩
  | cons c s ih =>
      rcases Bracket.depthAfter_cases h with ⟨rfl, hrest⟩ | ⟨rfl, depth, hdepth, hrest⟩
        | ⟨hopener, hcloser, hrest⟩
      · obtain ⟨more, hmore, hlength, hmem⟩ :=
          ih (position :: inner) (position + 1) hrest
        refine ⟨more, (openBraces_opener _ _ _).trans hmore, hlength, fun brace hbrace => ?_⟩
        rcases hmem brace hbrace with hbrace | hbrace
        · rcases List.mem_cons.mp hbrace with rfl | hbrace
          · exact Or.inr (Nat.le_refl _)
          · exact Or.inl hbrace
        · exact Or.inr (by omega)
      · obtain ⟨first, inner, rfl⟩ := List.exists_cons_of_length_eq_add_one hdepth
        obtain rfl : inner.length = depth := Nat.succ.inj hdepth
        obtain ⟨more, hmore, hlength, hmem⟩ := ih inner (position + 1) hrest
        refine ⟨more, (openBraces_closer _ _ _).trans hmore, hlength, fun brace hbrace => ?_⟩
        exact (hmem brace hbrace).imp (List.mem_cons_of_mem first) fun hle => by omega
      · obtain ⟨more, hmore, hlength, hmem⟩ := ih inner (position + 1) hrest
        refine ⟨more, (openBraces_other _ _ _ hopener hcloser).trans hmore, hlength,
          fun brace hbrace => ?_⟩
        exact (hmem brace hbrace).imp_right fun hle => by omega

/-- As long as a brace is not closed, it is the innermost one where as many braces are closed as were
opened behind it. -/
theorem head_openBraces_of_depthAfter {brace after : Nat} {outer : List Nat} {s : List Char}
    (h : Bracket.curly.depthAfter 0 s = some after) :
    (openBraces (brace :: outer) (brace + 1) s).head? = some brace ↔ after = 0 := by
  obtain ⟨more, hmore, rfl, hmem⟩ :=
    openBraces_of_depthAfter (brace :: outer) [] (brace + 1) h
  rw [List.nil_append] at hmore
  rw [hmore]
  cases more with
  | nil => exact iff_of_true rfl rfl
  | cons first more =>
      have hlt := (hmem first List.mem_cons_self).resolve_left List.not_mem_nil
      refine iff_of_false (fun heq => ?_) (Nat.succ_ne_zero _)
      have hfirst : first = brace := Option.some.inj heq
      omega

/-- A brace that is closed is not open any more. -/
theorem not_mem_openBraces_of_closed {brace : Nat} {outer : List Nat} {front rest : List Char}
    (houter : ∀ other ∈ outer, other < brace) (h : Bracket.curly.IsBalanced front) :
    brace ∉ openBraces (brace :: outer) (brace + 1) (front ++ Bracket.curly.closer :: rest) := by
  obtain ⟨more, hmore, hlength, -⟩ :=
    openBraces_of_depthAfter (brace :: outer) [] (brace + 1) h
  obtain rfl := List.eq_nil_of_length_eq_zero hlength
  rw [List.nil_append] at hmore
  rw [openBraces_append, hmore, openBraces_closer, List.tail_cons]
  intro hmem
  rcases mem_openBraces _ _ _ hmem with hmem | ⟨hle, -⟩
  · exact Nat.lt_irrefl brace (houter brace hmem)
  · omega

/-! ## Bodies -/

/-- The body that a brace opens: from behind the brace to the end of its group. -/
structure Span.IsBodyOf (body : Span) (text : List Char) (brace : Nat) : Prop where
  opener : text[brace]? = some '\x7b'
  start : body.start = brace + 1
  stop : groupEnd text brace = .ok body.stop

section Bodies

variable {text front s : List Char} {index : Nat}

theorem slice_behind (front : List Char) (c : Char) (s : List Char) (n : Nat) :
    slice (front ++ c :: s) (front.length + 1) (front.length + 1 + n) = s.take n := by
  have hsplit : front ++ c :: s = (front ++ [c]) ++ s := by simp
  have hlength : front.length + 1 = (front ++ [c]).length := by simp
  rw [slice, hsplit, hlength, List.take_length_add_append, List.drop_left]

/-- The braces that are open at a position behind a brace. -/
theorem innermostBrace?_behind (front s : List Char) (n : Nat) :
    innermostBrace? (front ++ Bracket.curly.opener :: s) (front.length + 1 + n)
      = (openBraces (front.length :: openBraces [] 0 front) (front.length + 1) (s.take n)).head? := by
  rw [innermostBrace?, Nat.add_assoc, Nat.add_comm 1 n, List.take_length_add_append,
    List.take_succ_cons, openBraces_append, Nat.zero_add, openBraces_opener]

/-- A brace is open at no position up to its own. -/
theorem innermostBrace?_ne_of_le {brace : Nat} (h : index ≤ brace) :
    innermostBrace? text index ≠ some brace := by
  intro hhead
  rcases mem_openBraces _ _ _ (List.mem_of_head? hhead) with hmem | ⟨-, hlt⟩
  · exact List.not_mem_nil hmem
  · have htake := List.length_take_le index text
    omega

/-- The end of the group that a brace opens in a text without quotes, by the first closing brace that
comes too early behind it. -/
theorem groupEnd_brace (front : List Char) (hplain : ∀ c ∈ s, isAnyQuote c = false) :
    (∃ depth, Bracket.curly.depthAfter 0 s = some depth
      ∧ groupEnd (front ++ Bracket.curly.opener :: s) front.length
        = .ok (front ++ Bracket.curly.opener :: s).length)
    ∨ ∃ inside rest, s = inside ++ Bracket.curly.closer :: rest ∧ Bracket.curly.IsBalanced inside
      ∧ groupEnd (front ++ Bracket.curly.opener :: s) front.length
        = .ok (front.length + 1 + (inside.length + 1)) := by
  rw [groupEnd, List.drop_left]
  simp only [Bracket.ofOpener?_opener]
  rcases Bracket.curly.depthAfter_split s 0 with ⟨depth, h⟩ | ⟨inside, rest, rfl, h⟩
  · have hopen := Bracket.closing?_append [] hplain h
    rw [List.append_nil, Nat.zero_add, Bracket.closing?, Option.map_none] at hopen
    exact Or.inl ⟨depth, h, by rw [hopen]⟩
  · have hclosed := Bracket.closing?_of_isBalanced rest
      (fun c hc => hplain c (List.mem_append_left _ hc)) h
    exact Or.inr ⟨inside, rest, rfl, h, by rw [hclosed]⟩

/-- Where the brace of a body is not closed, counting and matching agree. -/
theorem braceDepth_eq_zero_iff {n depth : Nat}
    (h : Bracket.curly.depthAfter 0 (s.take n) = some depth) :
    braceDepth (front ++ Bracket.curly.opener :: s) (front.length + 1) (front.length + 1 + n) = 0
      ↔ innermostBrace? (front ++ Bracket.curly.opener :: s) (front.length + 1 + n)
        = some front.length := by
  rw [innermostBrace?_behind, head_openBraces_of_depthAfter h,
    braceDepth_eq (by rwa [slice_behind]), Int.natCast_eq_zero]

theorem exists_depthAfter_take {b : Bracket} {depth : Nat} (n : Nat)
    (h : b.depthAfter 0 s = some depth) : ∃ depth, b.depthAfter 0 (s.take n) = some depth := by
  rw [← List.take_append_drop n s, Bracket.depthAfter_append] at h
  obtain ⟨after, hafter, -⟩ := Option.bind_eq_some_iff.mp h
  exact ⟨after, hafter⟩

/-- **Counting agrees with matching.** A body holds a position of the text directly if its brace is
the innermost one that is open there. -/
theorem Span.IsBodyOf.encloses_iff {body : Span} {brace : Nat} (h : body.IsBodyOf text brace)
    (hplain : ∀ c ∈ text, isAnyQuote c = false) :
    body.encloses text index = true
      ↔ index < text.length ∧ innermostBrace? text index = some brace := by
  obtain ⟨hbrace, hstart, hstop⟩ := h
  obtain ⟨front, s, rfl, rfl⟩ : ∃ front s, text = front ++ Bracket.curly.opener :: s
      ∧ front.length = brace := by
    obtain ⟨hlt, hchar⟩ := List.getElem?_eq_some_iff.mp hbrace
    refine ⟨text.take brace, text.drop (brace + 1), ?_, List.length_take_of_le (Nat.le_of_lt hlt)⟩
    rw [← show text[brace] = Bracket.curly.opener from hchar, ← List.drop_eq_getElem_cons hlt,
      List.take_append_drop]
  rw [Span.encloses, hstart, Bool.and_eq_true, Bool.and_eq_true, decide_eq_true_eq,
    decide_eq_true_eq, beq_iff_eq]
  by_cases hle : index ≤ front.length
  · exact iff_of_false (fun h => by omega) fun h => innermostBrace?_ne_of_le hle h.2
  obtain ⟨n, rfl⟩ : ∃ n, index = front.length + 1 + n := ⟨index - (front.length + 1), by omega⟩
  rcases groupEnd_brace front
    (fun c hc => hplain c (List.mem_append_right _ (List.mem_cons_of_mem _ hc))) with
    ⟨depth, hdepth, hend⟩ | ⟨inside, rest, rfl, hinside, hend⟩
  · obtain ⟨depth, hdepth⟩ := exists_depthAfter_take n hdepth
    rw [Except.ok.inj (hstop.symm.trans hend), braceDepth_eq_zero_iff hdepth]
    exact and_congr_left fun _ => and_iff_right (Nat.le_add_right _ _)
  · rw [Except.ok.inj (hstop.symm.trans hend)]
    by_cases hwithin : n ≤ inside.length
    · obtain ⟨depth, hdepth⟩ := exists_depthAfter_take n hinside
      have htake : (inside ++ Bracket.curly.closer :: rest).take n = inside.take n :=
        List.take_append_of_le_length hwithin
      rw [← htake] at hdepth
      rw [braceDepth_eq_zero_iff hdepth]
      refine and_congr_left fun _ => iff_of_true ⟨Nat.le_add_right _ _, by omega⟩ ?_
      simp only [List.length_append, List.length_cons]
      omega
    · -- behind its closer the brace is not open
      refine iff_of_false (fun h => by omega) fun h => ?_
      obtain ⟨more, hmore⟩ : ∃ more, (inside ++ Bracket.curly.closer :: rest).take n
          = inside ++ Bracket.curly.closer :: more := by
        obtain ⟨k, rfl⟩ : ∃ k, n = inside.length + (k + 1) := ⟨n - inside.length - 1, by omega⟩
        exact ⟨rest.take k, by rw [List.take_length_add_append, List.take_succ_cons]⟩
      have hhead := h.2
      rw [innermostBrace?_behind, hmore] at hhead
      refine not_mem_openBraces_of_closed (fun other hother => ?_) hinside (List.mem_of_head? hhead)
      rcases mem_openBraces _ _ _ hother with hmem | ⟨-, hlt⟩
      · exact absurd hmem List.not_mem_nil
      · omega

theorem exists_isBodyOf {brace : Nat} (h : text[brace]? = some '\x7b') :
    ∃ body : Span, body.IsBodyOf text brace := by
  have hdrop : (text.drop brace).head? = some Bracket.curly.opener := by rw [List.head?_drop, h]; rfl
  obtain ⟨s, hs⟩ := List.head?_eq_some_iff.mp hdrop
  have hend : ∃ stop, groupEnd text brace = .ok stop := by
    rw [groupEnd, hs]
    simp only [Bracket.ofOpener?_opener]
    exact ⟨_, rfl⟩
  obtain ⟨stop, hstop⟩ := hend
  exact ⟨⟨brace + 1, stop⟩, h, rfl, hstop⟩

/-- The bodies of the types of a Java source are bodies that braces open. -/
theorem exists_isBodyOf_of_javaTypes {source : SourceText} {types : List OpenType} {type : OpenType}
    (h : javaTypes source = .ok types) (htype : type ∈ types) :
    ∃ brace, type.body.IsBodyOf source.masked brace := by
  obtain ⟨found, hfound, h⟩ := except_bind_eq_ok h
  rw [← Except.ok.inj h] at htype
  obtain ⟨m, -, hread⟩ := (mem_of_mapM_option_iff hfound).mp htype
  rw [javaType?] at hread
  split at hread
  · exact absurd (Except.ok.inj hread).symm (Option.some_ne_none _)
  · rename_i brace hbrace
    split at hread
    · exact absurd (Except.ok.inj hread).symm (Option.some_ne_none _)
    · obtain ⟨preamble, -, hread⟩ := except_bind_eq_ok hread
      obtain ⟨stop, hstop, hread⟩ := except_bind_eq_ok hread
      obtain ⟨properties, -, hread⟩ := except_bind_eq_ok hread
      obtain ⟨rest, hrest⟩ := drop_of_findFrom? hbrace
      have hopener : source.masked[brace]? = some '\x7b' := by
        rw [← List.head?_drop, hrest]
        rfl
      rw [← Option.some.inj (Except.ok.inj hread)]
      exact ⟨brace, hopener, rfl, hstop⟩

end Bodies

/-! ## Bodies apart -/

section Apart

variable {text : List Char} {types : List OpenType}

/-- Bodies that start at different places share no position. -/
theorem eq_of_encloses {index : Nat} (hplain : ∀ c ∈ text, isAnyQuote c = false)
    (hbodies : ∀ t ∈ types, ∃ brace, t.body.IsBodyOf text brace)
    (hstarts : (types.map fun t => t.body.start).Nodup) :
    ∀ t ∈ types, ∀ u ∈ types, t.body.encloses text index = true →
      u.body.encloses text index = true → t = u := by
  intro t ht u hu htext hutext
  obtain ⟨brace, hbrace⟩ := hbodies t ht
  obtain ⟨other, hother⟩ := hbodies u hu
  have hsame : brace = other := Option.some.inj
    (((hbrace.encloses_iff hplain).mp htext).2.symm.trans ((hother.encloses_iff hplain).mp hutext).2)
  refine List.inj_on_of_nodup_map hstarts ht hu ?_
  show t.body.start = u.body.start
  rw [hbrace.start, hother.start, hsame]

theorem length_le_one_of_forall_eq {α : Type} {l : List α} (hnodup : l.Nodup)
    (h : ∀ a ∈ l, ∀ b ∈ l, a = b) : l.length ≤ 1 := by
  match l with
  | [] => exact Nat.zero_le 1
  | [_] => exact Nat.le_refl 1
  | a :: b :: rest =>
      have hab : a = b := h a List.mem_cons_self b (List.mem_cons_of_mem a List.mem_cons_self)
      exact absurd (hab ▸ List.mem_cons_self) (List.nodup_cons.mp hnodup).1

/-- **Counting braces is matching them.** In a text without quotes every brace opens a body, and the
body holds a position of the text directly if and only if its brace is the innermost one that is open
there. So of types whose bodies start at different places at most one holds a position, and whichever
way they are ordered the position has the same owner. -/
theorem bodies_hold_what_their_braces_hold (hplain : ∀ c ∈ text, isAnyQuote c = false) :
    (∀ brace, text[brace]? = some '\x7b' → ∃ body : Span, body.IsBodyOf text brace)
      ∧ (∀ (body : Span) (brace : Nat), body.IsBodyOf text brace → ∀ index,
          body.encloses text index = true
            ↔ index < text.length ∧ innermostBrace? text index = some brace)
      ∧ ∀ types : List OpenType, (∀ t ∈ types, ∃ brace, t.body.IsBodyOf text brace) →
          (types.map fun t => t.body.start).Nodup →
          (∀ index, (types.filter fun t => t.body.encloses text index).length ≤ 1)
            ∧ ∀ ordered, types.Perm ordered → ∀ position,
              ownerType? ordered text position = ownerType? types text position := by
  refine ⟨fun _ => exists_isBodyOf, fun _ _ hbody _ => hbody.encloses_iff hplain,
    fun types hbodies hstarts => ⟨fun index => ?_, fun ordered hperm position => ?_⟩⟩
  · refine length_le_one_of_forall_eq ((List.Nodup.of_map _ hstarts).filter _) fun t ht u hu => ?_
    obtain ⟨ht, hencloses⟩ := List.mem_filter.mp ht
    obtain ⟨hu, hencloses'⟩ := List.mem_filter.mp hu
    exact eq_of_encloses hplain hbodies hstarts t ht u hu hencloses hencloses'
  · by_cases hposition : position < 0
    · rw [ownerType?, ownerType?, ownerAt?, ownerAt?, if_pos hposition, if_pos hposition]
      rfl
    obtain ⟨index, rfl⟩ := Int.eq_ofNat_of_zero_le (Int.not_lt.mp hposition)
    have hbodies' : ∀ t ∈ ordered, ∃ brace, t.body.IsBodyOf text brace :=
      fun t ht => hbodies t (hperm.mem_iff.mpr ht)
    have hstarts' : (ordered.map fun t => t.body.start).Nodup :=
      (hperm.map fun t => t.body.start).nodup_iff.mp hstarts
    ext type
    rw [ownerType?_eq_some_iff (eq_of_encloses hplain hbodies' hstarts'),
      ownerType?_eq_some_iff (eq_of_encloses hplain hbodies hstarts), hperm.mem_iff]

/-- A type with a type inside, and a member of each. -/
def nestedTypes : List Char :=
  "class A \x7b class B \x7b x \x7d y \x7d \x7d".toList

/-- The type around the other one. -/
def outerType : OpenType :=
  ⟨⟨"A", "", 1, [], [], []⟩, ⟨9, 27⟩⟩

/-- The type inside. -/
def innerType : OpenType :=
  ⟨⟨"B", "", 1, [], [], []⟩, ⟨19, 23⟩⟩

/-- Of a type with a type inside each holds its own member, and in both orders of the types the member
inside has the same owner. -/
theorem nested_bodies_hold_their_members :
    (∀ c ∈ nestedTypes, isAnyQuote c = false) ∧ outerType.body.IsBodyOf nestedTypes 8
      ∧ innerType.body.IsBodyOf nestedTypes 18
      ∧ outerType.body.encloses nestedTypes 24 = true
      ∧ outerType.body.encloses nestedTypes 20 = false
      ∧ innerType.body.encloses nestedTypes 20 = true
      ∧ ([outerType, innerType].map fun t => t.body.start).Nodup
      ∧ ownerType? [outerType, innerType] nestedTypes 20
        = ownerType? [innerType, outerType] nestedTypes 20 := by
  have hplain : ∀ c ∈ nestedTypes, isAnyQuote c = false := forall_mem_of_all (by decide)
  have houter : outerType.body.IsBodyOf nestedTypes 8 := ⟨by decide, rfl, by cbv⟩
  have hinner : innerType.body.IsBodyOf nestedTypes 18 := ⟨by decide, rfl, by cbv⟩
  have hstarts : ([innerType, outerType].map fun t => t.body.start).Nodup := by decide
  obtain ⟨-, hencloses, hapart⟩ := bodies_hold_what_their_braces_hold hplain
  have hbodies : ∀ t ∈ [innerType, outerType], ∃ brace, t.body.IsBodyOf nestedTypes brace := by
    intro t ht
    rcases List.mem_pair.mp ht with rfl | rfl
    · exact ⟨18, hinner⟩
    · exact ⟨8, houter⟩
  refine ⟨hplain, houter, hinner, (hencloses _ 8 houter 24).mpr (by decide), ?_,
    (hencloses _ 18 hinner 20).mpr (by decide), by decide,
    (hapart _ hbodies hstarts).2 _ (List.Perm.swap _ _ _) 20⟩
  exact Bool.eq_false_iff.mpr fun h => absurd ((hencloses _ 8 houter 20).mp h) (by decide)

end Apart

end Declaration

end ServiceMap
