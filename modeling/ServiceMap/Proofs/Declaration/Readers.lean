import ServiceMap.Declaration.CSharpMethod
import ServiceMap.Declaration.GoType
import ServiceMap.Declaration.JavaMethod
import ServiceMap.Proofs.Source.Positions

/-!
# Readers of declarations

Declarations are read off every source. The head of a declaration ends where its bracket opens, or
the bracket is looked for and found; a preamble is read at a position of the text.
-/

namespace ServiceMap.Declaration

open Text Source Pattern

variable {s : SourceText}

/-- A match of a pattern that ends in an opening bracket is followed by a group. -/
theorem group_of_mem_findAll {before : Pattern} {c : Char} (hc : isOpener c = true)
    {masked : List Char} {m : Match} (hm : m ∈ (before ++ char (· == c)).findAll masked) :
    NeverFails (group masked (m.stop - 1)) := by
  obtain ⟨d, rest, hrest, hd⟩ := last_of_mem_findAll hm
  obtain rfl := beq_iff_eq.mp hd
  exact group_neverFails hrest hc

/-- A brace that is found opens a group. -/
theorem group_of_findFrom? {c : Char} (hc : isOpener c = true) {masked : List Char}
    {start index : Nat} (h : findFrom? [c] masked start = some index) :
    NeverFails (group masked index) := by
  obtain ⟨rest, hrest⟩ := drop_of_findFrom? h
  exact group_neverFails hrest hc

/-! ## Go -/

theorem goFunctions_neverFails (hs : s.HasLines) : NeverFails (goFunctions s) := by
  refine FailsOnly.mapM fun m hm => ?_
  rw [goFunction]
  refine FailsOnly.bind (group_of_mem_findAll (c := '(') rfl hm) fun parameters _ => ?_
  exact FailsOnly.bind (hs _ _) fun doc _ => FailsOnly.pure _

theorem goTypes_neverFails (hs : s.HasLines) : NeverFails (goTypes s) := by
  rw [goTypes]
  refine FailsOnly.bind (FailsOnly.mapM fun m hm => ?_) fun types _ => ?_
  · rw [goType]
    refine FailsOnly.bind (group_of_mem_findAll (c := '\x7b') rfl hm) fun body _ => ?_
    exact FailsOnly.bind (hs _ _) fun doc _ => FailsOnly.pure _
  · exact FailsOnly.bind (goFunctions_neverFails hs) fun functions _ => FailsOnly.pure _

/-! ## Java -/

theorem javaFields_neverFails {body : Span} (hbody : body.start ≤ s.masked.length) :
    NeverFails (javaFields s body) := by
  refine FailsOnly.mapM fun m hm => ?_
  have hwithin := within_of_mem_findBetween hbody (List.mem_filter.mp hm).1
  refine FailsOnly.bind ?_ fun preamble _ => FailsOnly.pure _
  exact readPreamble_neverFails annotatedStyle_isTotal _ (hwithin.groupStart 1)

theorem javaTypes_neverFails (s : SourceText) : NeverFails (javaTypes s) := by
  rw [javaTypes]
  refine FailsOnly.bind (FailsOnly.mapM fun m hm => ?_) fun types _ => FailsOnly.pure _
  rw [javaType?]
  split
  · exact FailsOnly.pure _
  · rename_i brace hbrace
    obtain ⟨rest, hrest⟩ := drop_of_findFrom? hbrace
    split
    · exact FailsOnly.pure _
    · refine FailsOnly.bind ?_ fun preamble _ => ?_
      · exact readPreamble_neverFails annotatedStyle_isTotal _ (within_of_mem_findAll hm).start
      refine FailsOnly.bind (groupEnd_neverFails hrest (by decide)) fun stop _ => ?_
      refine FailsOnly.bind (javaFields_neverFails ?_) fun properties _ => FailsOnly.pure _
      exact lt_length_of_drop hrest

theorem javaBody_neverFails (masked : List Char) (stop : Nat) :
    NeverFails (javaBody masked stop) := by
  unfold javaBody
  split
  · exact FailsOnly.ok _
  · rename_i brace hbrace
    split
    · exact FailsOnly.ok _
    · exact (group_of_findFrom? (by decide) hbrace).map _

theorem javaParameters_neverFails (text : List Char) : NeverFails (javaParameters text) := by
  rw [javaParameters]
  refine FailsOnly.bind (FailsOnly.mapM fun part _ => ?_) fun parameters _ => FailsOnly.pure _
  rw [javaParameter?]
  refine FailsOnly.bind (readAnnotations_neverFails part) fun annotations _ => ?_
  dsimp only
  split
  · exact FailsOnly.pure _
  · exact FailsOnly.pure _

theorem javaMethods_neverFails (s : SourceText) (types : List OpenType) :
    NeverFails (javaMethods s types) := by
  rw [javaMethods]
  refine FailsOnly.bind (FailsOnly.mapM fun m hm => ?_) fun methods _ => FailsOnly.pure _
  have hmem := (List.mem_filter.mp hm).1
  have hwithin := within_of_mem_findAll hmem
  rw [javaMethod]
  refine FailsOnly.bind (group_of_mem_findAll (c := '(') rfl hmem) fun parameters _ => ?_
  refine FailsOnly.bind (javaBody_neverFails _ _) fun body _ => ?_
  refine FailsOnly.bind ?_ fun preamble _ => ?_
  · refine readPreamble_neverFails annotatedStyle_isTotal _ ?_
    split
    · exact hwithin.groupStart 2
    · exact hwithin.groupStart 1
  · exact FailsOnly.bind (javaParameters_neverFails _) fun parameters _ => FailsOnly.pure _

/-! ## C# -/

theorem csharpMembers_neverFails {body : Span} (hbody : body.start ≤ s.masked.length) :
    NeverFails (csharpMembers s body) := by
  refine FailsOnly.mapM fun m hm => ?_
  have hwithin := within_of_mem_findBetween hbody (List.mem_filter.mp hm).1
  refine FailsOnly.bind ?_ fun preamble _ => FailsOnly.pure _
  exact readPreamble_neverFails attributedStyle_isTotal _ (hwithin.groupStart 1)

theorem comesFirst_eq_some {a b : Option Nat} {i : Nat} (h : comesFirst a b = some i) :
    a = some i := by
  unfold comesFirst at h
  split at h
  · split at h
    · exact nomatch h
    · exact h
  · exact h

theorem csharpTypes_neverFails (s : SourceText) : NeverFails (csharpTypes s) := by
  rw [csharpTypes]
  refine FailsOnly.bind (FailsOnly.mapM fun m hm => ?_) fun types _ => FailsOnly.pure _
  rw [csharpType?]
  refine FailsOnly.bind ?_ fun preamble _ => ?_
  · exact readPreamble_neverFails attributedStyle_isTotal _ (within_of_mem_findAll hm).start
  dsimp only
  split
  · -- a body
    rename_i brace hbrace
    obtain ⟨rest, hrest⟩ := drop_of_findFrom? (comesFirst_eq_some hbrace)
    refine FailsOnly.bind (groupEnd_neverFails hrest (by decide)) fun stop _ => ?_
    refine FailsOnly.bind (csharpMembers_neverFails ?_) fun properties _ => FailsOnly.pure _
    exact lt_length_of_drop hrest
  · -- no body: a record or nothing
    split
    · exact FailsOnly.pure _
    split
    · exact FailsOnly.pure _
    · rename_i parenthesis hparenthesis
      refine FailsOnly.bind ?_ fun parameters _ => FailsOnly.pure _
      exact group_of_findFrom? (by decide) (comesFirst_eq_some hparenthesis)

theorem csharpBody_neverFails (masked : List Char) (stop : Nat) :
    NeverFails (csharpBody masked stop) := by
  unfold csharpBody
  dsimp only
  split
  · rename_i brace hbrace
    have hfound := comesFirst_eq_some (comesFirst_eq_some hbrace)
    exact (group_of_findFrom? (by decide) hfound).map _
  · split
    · exact FailsOnly.ok _
    · exact FailsOnly.ok _

theorem csharpMethods_neverFails (s : SourceText) (types : List OpenType) :
    NeverFails (csharpMethods s types) := by
  refine FailsOnly.mapM fun m hm => ?_
  have hmem := (List.mem_filter.mp hm).1
  have hwithin := within_of_mem_findAll hmem
  rw [csharpMethod]
  refine FailsOnly.bind (group_of_mem_findAll (c := '(') rfl hmem) fun parameters _ => ?_
  refine FailsOnly.bind ?_ fun preamble _ => ?_
  · refine readPreamble_neverFails attributedStyle_isTotal _ ?_
    split
    · exact hwithin.groupStart 2
    · exact hwithin.groupStart 1
  · exact FailsOnly.bind (csharpBody_neverFails _ _) fun body _ => FailsOnly.pure _

end ServiceMap.Declaration
