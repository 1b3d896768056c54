import ServiceMap.Facts.Basic
import ServiceMap.Source.Bracket
import ServiceMap.Source.Preamble
import ServiceMap.Source.SourceText

/-!
# Bodies of types

Which type a member belongs to. A position belongs to a body if it lies in its range and not in a
block nested in it.
-/

namespace ServiceMap.Declaration

open ServiceMap.Text ServiceMap.Source

/-- The range of a type's body: from after its opening brace to after its closing one. -/
structure Span where
  start : Nat
  stop : Nat
deriving Repr, DecidableEq

/-- Whether a position lies directly in a body, as many braces being closed as opened since its
start. -/
def Span.encloses (span : Span) (masked : List Char) (index : Nat) : Bool :=
  span.start ≤ index && index < span.stop && braceDepth masked span.start index == 0

/-- The number of the last of several bodies that a position lies directly in. -/
def owner? (spans : List Span) (masked : List Char) (index : Nat) : Option Nat :=
  (spans.zipIdx.reverse.find? fun entry => entry.1.encloses masked index).map Prod.snd

/-- The number of the last of several bodies that a position lies directly in. No body holds a
position below zero. -/
def ownerAt? (spans : List Span) (masked : List Char) (position : Int) : Option Nat :=
  if position < 0 then none else owner? spans masked position.toNat

/-- A type with the range of its body. -/
structure OpenType where
  info : TypeDecl
  body : Span
deriving Repr, DecidableEq

/-- A parameter as it is declared. -/
structure DeclaredParameter where
  name : List Char
  type : List Char
  annotations : List (List Char) := []
  hasDefault : Bool := false
deriving Repr, DecidableEq

/-- A parameter as a fact about its function. -/
def DeclaredParameter.toParameter (p : DeclaredParameter) : Parameter :=
  ⟨String.ofList p.name, String.ofList p.type, "body", !p.hasDefault,
    "Parameter: " ++ String.ofList p.name⟩

/-- A method as it is declared. -/
structure DeclaredMethod where
  info : Function
  /-- Where its line starts. -/
  index : Nat
  modifiers : List (List Char)
  parameters : List DeclaredParameter
  /-- The text of its body, if it has one. -/
  body : List Char
  /-- Its documentation. -/
  doc : List Char
deriving Repr, DecidableEq

/-- The methods with the number of the type they belong to; a method that belongs to none is no
method. -/
def ownedMethods (types : List OpenType) (masked : List Char) (methods : List DeclaredMethod) :
    List (Nat × DeclaredMethod) :=
  methods.filterMap fun m => (owner? (types.map OpenType.body) masked m.index).map (·, m)

/-- The types with the methods that belong to them. -/
def withMethods (types : List OpenType) (owned : List (Nat × DeclaredMethod)) : List TypeDecl :=
  types.zipIdx.map fun (type, number) =>
    { type.info with
      methods := (owned.filter fun entry => entry.1 == number).map fun entry => entry.2.info }

/-- Texts as strings. -/
def strings (texts : List (List Char)) : List String :=
  texts.map String.ofList

/-- A description: the documentation, or else a text in its place. -/
def describe (doc : List Char) (otherwise : String) : String :=
  if doc.isEmpty then otherwise else String.ofList doc

end ServiceMap.Declaration
