import ServiceMap.Analysis.Run
import ServiceMap.Proofs.Settings.Values

/-!
# Which documents are accepted as settings

A document states settings unless it is neither null nor a mapping, names a language that is not
supported, or asks for a number of workers that is none. The documents that are accepted are these as
far as their values can be read. But a value that counts as one without members is accepted whatever
its kind.
-/

namespace ServiceMap

open Text

namespace Settings

/-! ## Settings that can be used -/

/-- What makes a document no settings. -/
inductive IsInvalid (v : Value) : Prop where
  /-- It is neither null nor a mapping. -/
  | notMapping (hnull : v ≠ .null) (hmap : ∀ members, v ≠ .map members)
  /-- An entry of its languages is not supported. -/
  | language {name : List Char} (hname : name ∈ (v.member "languages").names)
      (hunsupported : IsUnsupported name)
  /-- Its number of workers is none. -/
  | workers (hbad : ((v.member "analysis").member "workers").IsBadNumber)

/-- Whether the values of a document can be read, as far as this matters for its being accepted. -/
structure IsReadable (v : Value) : Prop where
  /-- Only null and mappings count as without members. -/
  void : v.isVoid = true → v = .null ∨ ∃ members, v = .map members
  /-- The source directories can be written, and are paths. -/
  directories : (v.member "source_directories").HasWritableEntries
    ∧ ¬∃ name ∈ (v.member "source_directories").names, name.any Path.isNul = true
  languages : (v.member "languages").HasWritableEntries
  /-- A number of workers that is one is no text of too many digits. -/
  workers : ¬IsInvalid v → ¬((v.member "analysis").member "workers").IsLongText
  /-- The rest is not looked at in invalid documents. -/
  rest : ¬IsInvalid v → ((v.member "render").member "templates_dir").IsWritable
    ∧ (v.member "exclude_dirs").HasWritableEntries

section Outcomes

variable {α : Type} {x : Except LoadFault α} {f : α → Except LoadFault Settings} {v : Value}

end Outcomes

section Mappings

variable {root : Path} {v : Value} {members : List (Value × Value)}

end Mappings

/-! ## Documents and files -/

section Documents

variable {root : Path} {v : Value}

variable {tree : Tree} {workingDirectory path : Path}

end Documents

end Settings

end ServiceMap
