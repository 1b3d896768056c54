import ServiceMap.Analysis.Run
import ServiceMap.Proofs.Endpoint.Origins
import ServiceMap.Proofs.Tree.Discovered

/-!
# What is read and what is skipped

A file that is read keeps its path. Reading one file after another divides the paths into those of
the files that were read and those that were skipped, and a discovered file is skipped just when its
bytes are no text.
-/

namespace ServiceMap

open Source

/-! ## Reports that have a result -/

theorem Reported.result_bind {α β : Type} (x : Reported α) (f : α → Reported β) :
    (x >>= f).result = x.result >>= fun a => (f a).result := by
  obtain ⟨notes, result⟩ := x
  cases result <;> rfl

theorem Reported.result_ofExcept {ε α : Type} (cause : ε → Failure) (x : Except ε α) :
    (ofExcept cause x).result = x.mapError cause :=
  rfl

theorem Reported.bind_eq_ok {α β : Type} {x : Reported α} {f : α → Reported β} {b : β}
    (h : (x >>= f).result = .ok b) : ∃ a, x.result = .ok a ∧ (f a).result = .ok b := by
  obtain ⟨notes, result⟩ := x
  cases result with
  | error failure => exact nomatch h
  | ok a => exact ⟨a, rfl, h⟩

theorem Reported.bind_of_ok {α β : Type} {x : Reported α} {f : α → Reported β} {a : α} {b : β}
    (hx : x.result = .ok a) (hf : (f a).result = .ok b) : (x >>= f).result = .ok b := by
  obtain ⟨notes, result⟩ := x
  obtain rfl : result = .ok a := hx
  exact hf

theorem Reported.ofExcept_of_ok {ε α : Type} {cause : ε → Failure} {x : Except ε α} {a : α}
    (h : x = .ok a) : (Reported.ofExcept cause x).result = .ok a := by
  rw [h]
  rfl

theorem Reported.ofExcept_eq_ok {ε α : Type} {cause : ε → Failure} {x : Except ε α} {a : α}
    (h : (Reported.ofExcept cause x).result = .ok a) : x = .ok a := by
  cases x with
  | error e => exact nomatch h
  | ok b => exact congrArg Except.ok (Except.ok.inj h)

/-! ## One file -/

namespace Registry

theorem extensions_default : ({} : Registry).extensions = [".cs", ".go", ".java"] := by
  show List.mergeSort [".go", ".java", ".cs"] _ = _
  simp +decide [List.mergeSort, List.MergeSort.Internal.splitInTwo]

variable {tree : Tree} {workingDirectory path : Path}

theorem path_readSource {r : Registry} {file : SourceFile} {notes : List Note}
    (h : r.readSource tree workingDirectory path = .ok (some file, notes)) :
    file.path = path.toString := by
  unfold readSource at h
  split at h
  · exact nomatch h
  · split at h
    · exact nomatch h
    · exact nomatch h
    · obtain ⟨facts, hfacts, h⟩ := except_bind_eq_ok h
      obtain ⟨hfile, -⟩ := Prod.mk.inj (Except.ok.inj h)
      rw [← Option.some.inj hfile]
      have hpath : facts.path = path.toString := SourceFile.path_read hfacts
      exact hpath

end Registry

namespace Analyzer

variable {r : Registry} {tree : Tree} {workingDirectory : Path}

/-- Whether the facts of a file are read. -/
def isRead (r : Registry) (tree : Tree) (workingDirectory path : Path) : Bool :=
  match r.readSource tree workingDirectory path with
  | .ok (some _, _) => true
  | _ => false

/-- **Reading.** If no file makes reading fail, the paths are divided into those of the files that
were read and those that were skipped, both in their order. -/
theorem readFiles_eq_ok {paths : List Path} :
    ∀ {reading : Reading}, (readFiles r tree workingDirectory paths).result = .ok reading →
      (∀ path ∈ paths, ∃ read, r.readSource tree workingDirectory path = .ok read)
        ∧ reading.files.map SourceFile.path
          = (paths.filter (isRead r tree workingDirectory)).map Path.toString
        ∧ reading.skipped
          = (paths.filter fun path => !isRead r tree workingDirectory path).map Path.toString := by
  induction paths with
  | nil =>
      intro reading h
      obtain rfl := Except.ok.inj h
      exact ⟨fun path hpath => absurd hpath List.not_mem_nil, rfl, rfl⟩
  | cons path paths ih =>
      intro reading h
      obtain ⟨⟨file?, notes⟩, hread, h⟩ := Reported.bind_eq_ok h
      obtain ⟨_, -, h⟩ := Reported.bind_eq_ok h
      have hsource := Reported.ofExcept_eq_ok hread
      -- whether the first file is read or skipped, the others are read as before
      have hreads : ∀ {rest : Reading},
          (readFiles r tree workingDirectory paths).result = .ok rest →
            ∀ other ∈ path :: paths,
              ∃ read, r.readSource tree workingDirectory other = .ok read := by
        intro rest hrest other hother
        rcases List.mem_cons.mp hother with rfl | hother
        · exact ⟨_, hsource⟩
        · exact (ih hrest).1 other hother
      cases file? with
      | some file =>
          obtain ⟨rest, hrest, h⟩ := Reported.bind_eq_ok h
          obtain ⟨-, hfiles, hskipped⟩ := ih hrest
          have hisRead : isRead r tree workingDirectory path = true := by
            rw [isRead, hsource]
          obtain rfl := Except.ok.inj h
          refine ⟨hreads hrest, ?_, ?_⟩
          · rw [List.filter_cons_of_pos hisRead, List.map_cons, List.map_cons, hfiles,
              Registry.path_readSource hsource]
          · rw [List.filter_cons_of_neg (by rw [hisRead]; exact Bool.false_ne_true)]
            exact hskipped
      | none =>
          obtain ⟨_, -, h⟩ := Reported.bind_eq_ok h
          obtain ⟨rest, hrest, h⟩ := Reported.bind_eq_ok h
          obtain ⟨-, hfiles, hskipped⟩ := ih hrest
          have hisRead : isRead r tree workingDirectory path = false := by
            rw [isRead, hsource]
          obtain rfl := Except.ok.inj h
          refine ⟨hreads hrest, ?_, ?_⟩
          · rw [List.filter_cons_of_neg (by rw [hisRead]; exact Bool.false_ne_true)]
            exact hfiles
          · rw [List.filter_cons_of_pos (by rw [hisRead]; rfl), List.map_cons]
            exact congrArg (path.toString :: ·) hskipped

/-- The files are read to the end if no file makes reading fail. -/
theorem readFiles_isOk {paths : List Path}
    (h : ∀ path ∈ paths, ∃ read, r.readSource tree workingDirectory path = .ok read) :
    ∃ reading, (readFiles r tree workingDirectory paths).result = .ok reading := by
  induction paths with
  | nil => exact ⟨{}, rfl⟩
  | cons path paths ih =>
      obtain ⟨⟨file?, notes⟩, hread⟩ := h path List.mem_cons_self
      obtain ⟨rest, hrest⟩ := ih fun other hother => h other (List.mem_cons_of_mem path hother)
      have hsource : (Reported.ofExcept Failure.source
          (r.readSource tree workingDirectory path)).result = .ok (file?, notes) :=
        Reported.ofExcept_of_ok hread
      cases file? with
      | some file =>
          exact ⟨_, Reported.bind_of_ok hsource
            (Reported.bind_of_ok rfl (Reported.bind_of_ok hrest rfl))⟩
      | none =>
          exact ⟨_, Reported.bind_of_ok hsource
            (Reported.bind_of_ok rfl (Reported.bind_of_ok rfl (Reported.bind_of_ok hrest rfl)))⟩

end Analyzer

end ServiceMap
