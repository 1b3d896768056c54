import ServiceMap.Declaration.GoFunction
import ServiceMap.Declaration.Span
import ServiceMap.Facts.Basic
import ServiceMap.Facts.Reading
import ServiceMap.Proofs.Source.CommentLexer
import ServiceMap.Proofs.Source.Fallible

/-!
# Texts that differ in their comments

Two computations that may fail agree up to a view if they fail for the same cause, or if what they
return looks the same. The views of this module are facts about source files without their
descriptions; what is read off two source texts with the same masked text agrees up to these. Their
readers look at the text as it was written for descriptions only: for the comments above a line, and
for the comments between a declaration and what stands before it.
-/

namespace ServiceMap

/-! ## Computations that may fail -/

/-- Both fail for the same cause, or return what looks the same. -/
def AgreeUpTo {ε α β : Type} (view : α → β) (x y : Except ε α) : Prop :=
  x.map view = y.map view

namespace AgreeUpTo

variable {ε α β γ δ κ : Type} {view : α → β} {view' : γ → δ}

theorem pure {a b : α} (h : view a = view b) :
    AgreeUpTo view (Pure.pure a : Except ε α) (Pure.pure b) :=
  congrArg Except.ok h

theorem bind {x y : Except ε α} {f g : α → Except ε γ} (h : AgreeUpTo view x y)
    (hfg : ∀ a b, view a = view b → AgreeUpTo view' (f a) (g b)) :
    AgreeUpTo view' (x >>= f) (y >>= g) := by
  rcases except_map_eq_map h with ⟨e, rfl, rfl⟩ | ⟨a, b, rfl, rfl, hab⟩
  · rfl
  · exact hfg a b hab

/-- One computation first, whatever it returns. -/
theorem bind_same (x : Except ε α) {f g : α → Except ε γ}
    (hfg : ∀ a, AgreeUpTo view' (f a) (g a)) : AgreeUpTo view' (x >>= f) (x >>= g) := by
  cases x with
  | error e => rfl
  | ok a => exact hfg a

/-- One computation for each of several things that look the same by their `key`. -/
theorem mapM {key : γ → κ} {f g : γ → Except ε α}
    (hfg : ∀ c d, key c = key d → AgreeUpTo view (f c) (g d)) :
    ∀ {xs ys : List γ}, xs.map key = ys.map key →
      AgreeUpTo (List.map view) (xs.mapM f) (ys.mapM g)
  | [], [], _ => rfl
  | c :: xs, d :: ys, h => by
      obtain ⟨hcd, hrest⟩ := List.cons.inj h
      rw [List.mapM_cons, List.mapM_cons]
      refine (hfg c d hcd).bind fun a b hab => ?_
      refine (mapM hfg hrest).bind fun as bs habs => ?_
      exact .pure (by rw [List.map_cons, List.map_cons, hab, habs])

/-- One computation for each of several things. -/
theorem mapM_same {f g : γ → Except ε α} (hfg : ∀ c, AgreeUpTo view (f c) (g c)) (xs : List γ) :
    AgreeUpTo (List.map view) (xs.mapM f) (xs.mapM g) := by
  have hid : xs.map id = xs.map id := rfl
  refine mapM ?_ hid
  rintro c d rfl
  exact hfg c

end AgreeUpTo

/-- What is there among things that look the same looks the same. -/
theorem map_filterMap_id {α β : Type} {view : α → β} {xs ys : List (Option α)}
    (h : xs.map (Option.map view) = ys.map (Option.map view)) :
    (xs.filterMap id).map view = (ys.filterMap id).map view := by
  have hview : ∀ zs : List (Option α),
      (zs.filterMap id).map view = (zs.map (Option.map view)).filterMap id := by
    intro zs
    rw [List.map_filterMap, List.filterMap_map]
    rfl
  rw [hview, hview, h]

/-! ## Facts without their descriptions -/

def Function.undescribed (f : Function) : Function := { f with description := "" }

def Property.undescribed (p : Property) : Property := { p with description := "" }

/-- A type whose description, and those of its methods and properties, are left out. -/
def TypeDecl.undescribed (t : TypeDecl) : TypeDecl :=
  { t with
    description := ""
    methods := t.methods.map Function.undescribed
    properties := t.properties.map Property.undescribed }

def Endpoint.undescribed (e : Endpoint) : Endpoint := { e with description := "" }

/-- The facts of a file without any description of an endpoint, a type, a method, a property or a
function. Descriptions of parameters and responses stay. -/
def SourceFile.undescribed (f : SourceFile) : SourceFile :=
  { f with
    endpoints := f.endpoints.map Endpoint.undescribed
    types := f.types.map TypeDecl.undescribed
    functions := f.functions.map Function.undescribed }

namespace Declaration

def GoFunction.undescribed (f : GoFunction) : GoFunction := { f with info := f.info.undescribed }

def OpenType.undescribed (t : OpenType) : OpenType := { t with info := t.info.undescribed }

/-- A method without its description and the documentation that this is made of. -/
def DeclaredMethod.undescribed (m : DeclaredMethod) : DeclaredMethod :=
  { m with info := m.info.undescribed, doc := [] }

end Declaration

open Text Source Declaration Endpoint

/-! ## Lines -/

namespace Text

/-- A document has at least as many lines as newlines. -/
theorem newlines_le_length_lines (s : List Char) : newlines s ≤ (lines s).length := by
  have hbreak : ∀ {c : Char}, ¬ isLineBreak c = true → c ≠ '\n' := by
    rintro c hc rfl
    exact hc (by decide)
  have hcons : ∀ {c : Char} {s : List Char}, ¬ isLineBreak c = true →
      newlines (c :: s) = newlines s :=
    fun hc => List.count_cons_of_ne (hbreak hc)
  have hle : ∀ (c : Char) (s : List Char), newlines (c :: s) ≤ newlines s + 1 := by
    intro c s
    rw [newlines, newlines, List.count_cons]
    split <;> omega
  fun_induction lines s with
  | case1 => exact Nat.le_refl 0
  | case2 s ih =>
      have h : newlines ('\r' :: '\n' :: s) = newlines s + 1 := by simp [newlines]
      rw [h, List.length_cons]
      omega
  | case3 c s _ hc ih =>
      have h := hle c s
      rw [List.length_cons]
      omega
  | case4 c s _ hc hnil ih =>
      rw [hnil] at ih
      rw [hcons hc]
      exact Nat.le_trans ih (Nat.zero_le _)
  | case5 c s _ hc line rest hlines ih =>
      rw [hlines] at ih
      rw [hcons hc]
      exact ih

theorem lineNumber_le (s : List Char) (index : Nat) : lineNumber s index ≤ newlines s + 1 := by
  have h : newlines (s.take index) ≤ newlines s := (List.take_sublist index s).count_le '\n'
  rw [lineNumber]
  omega

end Text

namespace Source

/-- The annotations above a declaration are those of the masked text. -/
theorem readPreamble_annotations (style : PreambleStyle) (text text' masked : List Char)
    (index : Nat) :
    AgreeUpTo Preamble.annotations
      (readPreamble style text masked index) (readPreamble style text' masked index) := by
  rw [readPreamble, readPreamble]
  refine AgreeUpTo.bind_same _ fun start => ?_
  refine AgreeUpTo.bind_same _ fun annotations => ?_
  exact AgreeUpTo.pure rfl

/-- Two texts with the same masked text, whose lines are enough for its line numbers. -/
structure SourceText.SameCode (s t : SourceText) : Prop where
  masked : s.masked = t.masked
  enough_left : newlines t.masked ≤ s.lines.length
  enough_right : newlines t.masked ≤ t.lines.length

namespace SourceText.SameCode

variable {s t : SourceText}

theorem lineNumber (h : s.SameCode t) (index : Nat) : s.lineNumber index = t.lineNumber index := by
  rw [SourceText.lineNumber, SourceText.lineNumber, h.masked]

/-- There are lines above every line that is the line of a position. -/
theorem commentAbove (h : s.SameCode t) (read : List Char → Option (List Char)) (index : Nat) :
    AgreeUpTo (fun _ => ())
      (Source.commentAbove read s.lines (s.lineNumber index))
      (Source.commentAbove read t.lines (t.lineNumber index)) := by
  have hline : t.lineNumber index ≤ newlines t.masked + 1 := lineNumber_le t.masked index
  have hleft := h.enough_left
  have hright := h.enough_right
  rw [h.lineNumber, Source.commentAbove, Source.commentAbove, if_neg (by omega),
    if_neg (by omega)]
  rfl

end SourceText.SameCode

end Source

end ServiceMap
