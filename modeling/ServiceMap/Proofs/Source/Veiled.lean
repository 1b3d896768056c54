import ServiceMap.Proofs.Source.Marks
import ServiceMap.Proofs.Source.Positions

/-!
# Texts that differ within literals

Two texts that are equal but for the contents of some string literals. Their marks are the same, so
that they are divided up in the same way; a stretch that begins outside of literals is the same in
both or holds a double quote in both; and the body of a group is outside of literals again.
-/

namespace ServiceMap

open Text Source

/-! ## Texts that differ within literals -/

/-- The words for a kind of type. -/
def typeKinds : List String := ["class", "interface", "enum", "struct", "record"]

/-- The text does not start with a word for a kind of type. -/
def NamesNoKind (s : List Char) : Prop :=
  ∀ kind ∈ typeKinds, ¬kind.toList <+: s

/-- Two texts that are equal but for the contents of string literals, which hold no marks and name no
kind of type. `hidden` tells whether the texts start within such a literal. -/
inductive Veiled : (hidden : Bool) → List Char → List Char → Prop where
  | nil : Veiled false [] []
  | same (c : Char) {s t : List Char} (rest : Veiled false s t) : Veiled false (c :: s) (c :: t)
  | opening {s t : List Char} (rest : Veiled true s t) : Veiled false ('"' :: s) ('"' :: t)
  | within {c d : Char} {s t : List Char} (left : isPlain c = true) (right : isPlain d = true)
      (leftNames : NamesNoKind (c :: s)) (rightNames : NamesNoKind (d :: t))
      (rest : Veiled true s t) : Veiled true (c :: s) (d :: t)
  | closing {s t : List Char} (rest : Veiled false s t) : Veiled true ('"' :: s) ('"' :: t)

theorem NamesNoKind.mono {s t : List Char} (h : NamesNoKind t) (hst : s <+: t) : NamesNoKind s :=
  fun kind hkind hword => h kind hkind (hword.trans hst)

namespace Veiled

variable {hidden : Bool} {s t : List Char}

theorem symm (h : Veiled hidden s t) : Veiled hidden t s := by
  induction h with
  | nil => exact .nil
  | same c _ ih => exact .same c ih
  | opening _ ih => exact .opening ih
  | within hc hd hs ht _ ih => exact .within hd hc ht hs ih
  | closing _ ih => exact .closing ih

theorem sameMarks (h : Veiled hidden s t) : SameMarks s t := by
  induction h with
  | nil => rfl
  | same c _ ih | opening _ ih | closing _ ih => exact congrArg (List.cons _) ih
  | @within c d s t hc hd _ _ _ ih =>
      have hblot : blot c = blot d := by rw [blot, blot, hc, hd]; rfl
      rw [SameMarks, List.map_cons, List.map_cons, hblot, show s.map blot = t.map blot from ih]

theorem length_eq (h : Veiled hidden s t) : s.length = t.length :=
  h.sameMarks.length_eq

theorem same_append (u : List Char) (h : Veiled false s t) : Veiled false (u ++ s) (u ++ t) := by
  induction u with
  | nil => exact h
  | cons c u ih => exact .same c ih

theorem head? (h : Veiled false s t) : s.head? = t.head? := by
  cases h <;> rfl

/-- Right after a mark that is no double quote the texts are outside of literals. -/
theorem split {c : Char} (hc : isPlain c = false) (hquote : c ≠ '"') {rest : List Char}
    (front : List Char) {hidden : Bool} {t : List Char} (h : Veiled hidden (front ++ c :: rest) t) :
    ∃ front' rest', t = front' ++ c :: rest' ∧ front'.length = front.length
      ∧ Veiled hidden (front ++ [c]) (front' ++ [c]) ∧ Veiled false rest rest' := by
  induction front generalizing hidden t with
  | nil =>
      rw [List.nil_append] at h
      cases h with
      | same _ hrest => exact ⟨[], _, rfl, rfl, .same c .nil, hrest⟩
      | opening _ | closing _ => exact absurd rfl hquote
      | within hplain _ _ _ _ => exact absurd (hplain.symm.trans hc) Bool.noConfusion
  | cons x front ih =>
      rw [List.cons_append] at h
      cases h with
      | same _ hrest =>
          obtain ⟨front', rest', rfl, hlength, hfront, hrest⟩ := ih hrest
          exact ⟨x :: front', rest', rfl, congrArg (· + 1) hlength, .same x hfront, hrest⟩
      | opening hrest =>
          obtain ⟨front', rest', rfl, hlength, hfront, hrest⟩ := ih hrest
          exact ⟨'"' :: front', rest', rfl, congrArg (· + 1) hlength, .opening hfront, hrest⟩
      | @within _ d _ _ hx hd hleft hright hrest =>
          obtain ⟨front', rest', rfl, hlength, hfront, hrest⟩ := ih hrest
          -- what stands before the mark names no kind of type, since the longer text does not
          have hmono : ∀ (y : Char) (u v : List Char), NamesNoKind (y :: (u ++ c :: v)) →
              NamesNoKind (y :: (u ++ [c])) := fun y u v hnames =>
            hnames.mono ⟨v, by rw [List.cons_append, List.append_assoc, List.singleton_append]⟩
          exact ⟨d :: front', rest', rfl, congrArg (· + 1) hlength,
            .within hx hd (hmono _ _ _ hleft) (hmono _ _ _ hright) hfront, hrest⟩
      | closing hrest =>
          obtain ⟨front', rest', rfl, hlength, hfront, hrest⟩ := ih hrest
          exact ⟨'"' :: front', rest', rfl, congrArg (· + 1) hlength, .closing hfront, hrest⟩

/-- No kind of type is named in the rest of a literal. -/
theorem namesNoKind_after {w x : List Char} (hw : '"' ∉ w) (hx : x.head? ≠ some '"') {t : List Char}
    (h : Veiled true (w ++ x) t) : NamesNoKind x := by
  induction w generalizing t with
  | nil =>
      rw [List.nil_append] at h
      cases h with
      | within _ _ hnames _ _ => exact hnames
      | closing _ => exact absurd rfl hx
  | cons c w ih =>
      rw [List.cons_append] at h
      cases h with
      | within _ _ _ _ hrest => exact ih (fun hmem => hw (List.mem_cons_of_mem c hmem)) hrest
      | closing _ => exact absurd List.mem_cons_self hw

end Veiled

/-! ## Stretches without double quotes -/

/-- The text, unless it holds a double quote. -/
def quoteless? (s : List Char) : Option (List Char) :=
  if '"' ∈ s then none else some s

theorem quoteless?_of_not_mem {s : List Char} (h : '"' ∉ s) : quoteless? s = some s :=
  if_neg h

theorem quoteless?_of_mem {s : List Char} (h : '"' ∈ s) : quoteless? s = none :=
  if_pos h

/-- A text without double quotes is told from all others. -/
theorem eq_of_quoteless? {s t : List Char} (hs : '"' ∉ s) (h : quoteless? s = quoteless? t) :
    s = t := by
  rw [quoteless?_of_not_mem hs] at h
  by_cases ht : '"' ∈ t
  · rw [quoteless?_of_mem ht] at h
    exact nomatch h
  · rw [quoteless?_of_not_mem ht] at h
    exact Option.some.inj h

theorem quoteless?_cons_quote (s : List Char) : quoteless? ('"' :: s) = none :=
  quoteless?_of_mem List.mem_cons_self

theorem quoteless?_cons {c : Char} (hc : c ≠ '"') (s : List Char) :
    quoteless? (c :: s) = (quoteless? s).map (c :: ·) := by
  by_cases h : '"' ∈ s
  · rw [quoteless?_of_mem h, quoteless?_of_mem (List.mem_cons_of_mem c h)]
    rfl
  · rw [quoteless?_of_not_mem h, quoteless?_of_not_mem]
    · rfl
    · exact fun hmem => h ((List.mem_cons.mp hmem).resolve_left hc.symm)

/-- A stretch that begins outside of literals is the same in both texts, or holds a double quote in
both. -/
theorem Veiled.quoteless?_take {s t : List Char} (h : Veiled false s t) (n : Nat) :
    quoteless? (s.take n) = quoteless? (t.take n) := by
  induction n generalizing s t with
  | zero => rw [List.take_zero, List.take_zero]
  | succ n ih =>
      cases h with
      | nil => rfl
      | same c hrest =>
          rw [List.take_succ_cons, List.take_succ_cons]
          by_cases hc : c = '"'
          · rw [hc, quoteless?_cons_quote, quoteless?_cons_quote]
          · rw [quoteless?_cons hc, quoteless?_cons hc, ih hrest]
      | opening _ =>
          rw [List.take_succ_cons, List.take_succ_cons, quoteless?_cons_quote,
            quoteless?_cons_quote]

/-! ## Bodies -/

theorem drop_take_middle (front : List Char) (c : Char) (rest : List Char) (n : Nat) :
    ((front ++ c :: rest).take (front.length + 1 + n)).drop (front.length + 1) = rest.take n := by
  rw [List.drop_take, Nat.add_sub_cancel_left, ← List.drop_drop, List.drop_left, List.drop_one,
    List.tail_cons]

/-- What lies before the end of a group lies there in both texts. -/
theorem Veiled.take_closing {s t : List Char} (h : Veiled false s t) {b : Bracket} {n : Nat}
    (hn : b.closing? 1 s = some n) : Veiled false (s.take n) (t.take n) := by
  obtain ⟨front, rest, rfl, rfl⟩ := closer_of_closing? b 1 s hn
  have hquote : b.closer ≠ '"' := by cases b <;> decide
  obtain ⟨front', rest', rfl, hlength, hfront, -⟩ := h.split (isPlain_closer b) hquote front
  have htake : ∀ u v : List Char, (u ++ b.closer :: v).take (u.length + 1) = u ++ [b.closer] := by
    intro u v
    rw [List.take_length_add_append]
    rfl
  rw [htake, ← hlength, htake]
  exact hfront

/-- The text of a body, from after its brace to its end, in both texts. -/
theorem Veiled.body {s t rest : List Char} (h : Veiled false s t) {brace stop : Nat}
    (hbrace : s.drop brace = '\x7b' :: rest) (hstop : groupEnd s brace = .ok stop) :
    Veiled false ((s.take stop).drop (brace + 1)) ((t.take stop).drop (brace + 1))
      ∧ s[brace]? = some '\x7b' ∧ t[brace]? = some '\x7b' := by
  obtain ⟨front, rfl, rfl⟩ : ∃ front, s = front ++ '\x7b' :: rest ∧ brace = front.length := by
    refine ⟨s.take brace, ?_, ?_⟩
    · rw [← hbrace, List.take_append_drop]
    · have := lt_length_of_drop hbrace
      rw [List.length_take]
      omega
  obtain ⟨front', rest', rfl, hlength, -, hrest⟩ := h.split (by decide) (by decide) front
  refine ⟨?_, by simp, by simp [← hlength]⟩
  unfold groupEnd at hstop
  rw [List.drop_left] at hstop
  have hend := Except.ok.inj (show Except.ok _ = Except.ok stop from hstop)
  cases hn : Bracket.curly.closing? 1 rest with
  | some n =>
      rw [hn] at hend
      dsimp only at hend
      rw [← hend, drop_take_middle, ← hlength, drop_take_middle]
      exact hrest.take_closing hn
  | none =>
      have hall : stop = front.length + 1 + rest.length := by
        rw [hn] at hend
        simp only [← hend, List.length_append, List.length_cons]
        omega
      rw [hall, drop_take_middle, ← hlength, drop_take_middle, List.take_length, hrest.length_eq,
        List.take_length]
      exact hrest

end ServiceMap
