import ServiceMap.Log.Note
import ServiceMap.Settings.Basic
import ServiceMap.Source.Fault
import ServiceMap.Tree.Discovery

/-!
# Failures

Why an analysis yields nothing, and reports with the notes made on the way to a result or a failure.
-/

namespace ServiceMap

/-- Why an analysis has no result. -/
inductive Failure where
  /-- A root cannot be analyzed. -/
  | root (fault : RootFault)
  /-- The settings cannot be loaded. -/
  | settings (fault : LoadFault)
  /-- These names are the names of no language. -/
  | unknownLanguages (names : List String)
  /-- No directories are given and there are no settings to name them. -/
  | noDirectories
  /-- A source file cannot be read to its end. -/
  | source (fault : Fault)
deriving DecidableEq, Repr

/-- The wording of a failure. -/
def Failure.message : Failure → String
  | root fault => fault.message
  | settings fault => fault.message
  | unknownLanguages names =>
    "Unknown languages requested: " ++ ", ".intercalate names
  | noDirectories => "No paths given and no configuration to read source directories from"
  | source fault => fault.message

/-- A result or a failure, with the notes made on the way. -/
structure Reported (α : Type) where
  notes : List Note
  result : Except Failure α

namespace Reported

/-- A result without notes. -/
def pure {α : Type} (a : α) : Reported α :=
  ⟨[], .ok a⟩

/-- A failure without notes. -/
def fail {α : Type} (failure : Failure) : Reported α :=
  ⟨[], .error failure⟩

/-- A note. -/
def note (n : Note) : Reported Unit :=
  ⟨[n], .ok ()⟩

/-- Notes in their order. -/
def noteAll (ns : List Note) : Reported Unit :=
  ⟨ns, .ok ()⟩

/-- One report after another; after a failure nothing follows. -/
def bind {α β : Type} (x : Reported α) (f : α → Reported β) : Reported β :=
  match x.result with
  | .ok a =>
    let y := f a
    ⟨x.notes ++ y.notes, y.result⟩
  | .error failure => ⟨x.notes, .error failure⟩

instance : Monad Reported where
  pure := pure
  bind := bind

/-- A result that may have failed for causes of another kind. -/
def ofExcept {ε α : Type} (cause : ε → Failure) (x : Except ε α) : Reported α :=
  ⟨[], x.mapError cause⟩

end Reported

end ServiceMap
