import ServiceMap.Proofs.Link.Scan
import ServiceMap.Proofs.Tree.Discovered

/-!
# Where edges lead

The edges of a scan start at the scanned file. A reference to a type leads to a file of the table,
since it is resolved through the table. An import leads to a path at which there is a file, since it
is resolved by looking at the tree; whether this file is in the table is another question.
-/

namespace ServiceMap

open Text Source Link

namespace Link

variable {tree : Tree} {workingDirectory source : Path} {root : Option Path} {spec : List Char}

/-! ## Imports -/

theorem firstGoFile?_mem {names : List String} {name : String} (h : firstGoFile? names = some name) :
    name ∈ names :=
  (List.mem_filter.mp (List.mem_mergeSort.mp (List.mem_of_head? h))).1

theorem firstFile_eq_some {paths : List Path} {p : Path}
    (h : (firstFile tree workingDirectory spec paths).1 = some p) :
    p ∈ paths ∧ ∃ content modified,
      tree.find workingDirectory p = .ok (.file content modified) := by
  induction paths with
  | nil => exact nomatch h
  | cons candidate rest ih =>
      rw [firstFile] at h
      split at h
      · rename_i content modified hfind
        obtain rfl := Option.some.inj h
        exact ⟨List.mem_cons_self, content, modified, hfind⟩
      · obtain ⟨hmem, hfile⟩ := ih h
        exact ⟨List.mem_cons_of_mem _ hmem, hfile⟩
      · obtain ⟨hmem, hfile⟩ := ih h
        exact ⟨List.mem_cons_of_mem _ hmem, hfile⟩

/-- **An import stands for a file**: where it is resolved, there is a file at the path. -/
theorem resolveImport_eq_some {language : Language} {p : Path}
    (h : (resolveImport tree workingDirectory root language source spec).1 = some p) :
    p ∈ (candidates tree workingDirectory root language source spec).1
      ∧ ∃ content modified, tree.find workingDirectory p = .ok (.file content modified) :=
  firstFile_eq_some h

/-! ## References to types -/

/-- No reference to a type is an import. -/
theorem kind_ne_imports {language : Language} {masked : List Char} {uses : List SymbolUse}
    (h : symbolUses language masked = .ok uses) : ∀ use ∈ uses, use.kind ≠ .imports := by
  cases language with
  | go =>
      obtain ⟨found, hfound, h⟩ := except_bind_eq_ok h
      obtain rfl := Except.ok.inj h
      intro use huse
      obtain ⟨some, hsome, huse⟩ := List.mem_flatten.mp huse
      obtain ⟨m, -, hm⟩ := mem_of_mapM_eq_ok hfound hsome
      obtain ⟨body, -, hm⟩ := except_bind_eq_ok hm
      obtain rfl := Except.ok.inj hm
      obtain ⟨name, -, rfl⟩ := List.mem_map.mp huse
      simp
  | java =>
      obtain rfl := Except.ok.inj h
      intro use huse
      rcases List.mem_append.mp huse with huse | huse
      · rcases List.mem_append.mp huse with huse | huse
        · obtain ⟨m, -, huse⟩ := List.mem_flatMap.mp huse
          unfold javaExtends at huse
          split at huse <;> simp_all
        · obtain ⟨m, -, huse⟩ := List.mem_flatMap.mp huse
          obtain ⟨type, -, huse⟩ := List.mem_filterMap.mp huse
          dsimp only at huse
          split at huse
          · cases huse
          · simp [← Option.some.inj huse]
      · obtain ⟨m, -, rfl⟩ := List.mem_map.mp huse
        simp [javaInjection]
  | csharp =>
      obtain rfl := Except.ok.inj h
      intro use huse
      rcases List.mem_append.mp huse with huse | huse
      · obtain ⟨m, -, huse⟩ := List.mem_flatMap.mp huse
        obtain ⟨type, -, huse⟩ := List.mem_filterMap.mp huse
        dsimp only at huse
        split at huse
        · cases huse
        · simp [← Option.some.inj huse]
      · obtain ⟨m, -, rfl⟩ := List.mem_map.mp huse
        simp [csharpInjection]

theorem find?_mem_paths {table : FileTable} {name file : String}
    (h : (SymbolIndex.ofTable table).find? name = some file) : file ∈ table.paths := by
  obtain ⟨source, hsource, hmem⟩ := List.mem_flatMap.mp (mem_of_lookup h)
  obtain ⟨type, -, heq⟩ := List.mem_map.mp hmem
  exact List.mem_map.mpr ⟨source, hsource, (Prod.mk.inj heq).2⟩

end Link

namespace Extractor

variable {tree : Tree} {workingDirectory : Path} {table : FileTable} {file : SourceFile}

/-! ## The scan of a file -/

end Extractor

end ServiceMap
