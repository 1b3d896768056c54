import Mathlib.Data.List.Induction
import Mathlib.Data.List.Nodup
import ServiceMap.Service.Context
import ServiceMap.Service.Name

/-!
# Contexts hold the files of their groups

The groups of a list of files, said without the loop that builds them: one group for each service,
in the order in which the services are first met, with the files of that service in their order. A
context is filled with the files of a group one by one, each into one of its buckets, so that none is
lost or doubled. Contexts put together from the groups of a table's own files are as many as the groups.
-/

namespace ServiceMap

/-! ## Each thing where it is first met -/

section FirstMet

variable {α : Type} [BEq α] [LawfulBEq α]

theorem eraseDups_snoc_of_mem {xs : List α} {a : α} (h : a ∈ xs) :
    (xs ++ [a]).eraseDups = xs.eraseDups := by
  have hnone : ([a] : List α).removeAll xs = [] := by
    rw [List.removeAll, List.filter_eq_nil_iff]
    intro b hb
    rw [List.mem_singleton.mp hb, List.elem_eq_true_of_mem h]
    exact Bool.false_ne_true
  rw [List.eraseDups_append, hnone, List.eraseDups_nil, List.append_nil]

theorem eraseDups_snoc_of_not_mem {xs : List α} {a : α} (h : a ∉ xs) :
    (xs ++ [a]).eraseDups = xs.eraseDups ++ [a] := by
  have hone : ([a] : List α).removeAll xs = [a] := by
    rw [List.removeAll, List.filter_eq_self]
    intro b hb
    rw [List.mem_singleton.mp hb, Bool.not_eq_true', ← Bool.not_eq_true, List.contains_iff_mem]
    exact h
  rw [List.eraseDups_append, hone]
  rfl

theorem nodup_eraseDups (xs : List α) : xs.eraseDups.Nodup := by
  induction xs using List.reverseRecOn with
  | nil => exact List.nodup_nil
  | append_singleton xs a ih =>
      by_cases h : a ∈ xs
      · rw [eraseDups_snoc_of_mem h]
        exact ih
      · rw [eraseDups_snoc_of_not_mem h]
        refine ih.append (List.nodup_singleton a) ?_
        rw [List.disjoint_singleton, List.mem_eraseDups]
        exact h

end FirstMet

namespace Service

/-! ## One file more -/

theorem addToGroup_of_not_mem {name : String} (file : String) {names : List String}
    (members : String → List String) (h : name ∉ names) :
    addToGroup name file (names.map fun n => (n, members n))
      = names.map (fun n => (n, members n)) ++ [(name, [file])] := by
  induction names with
  | nil => rfl
  | cons first names ih =>
      rw [List.mem_cons, not_or] at h
      rw [List.map_cons, addToGroup, beq_eq_false_iff_ne.mpr (Ne.symm h.1), ih h.2]
      rfl

theorem addToGroup_of_mem {name : String} (file : String) {names : List String}
    (members : String → List String) (hnodup : names.Nodup) (h : name ∈ names) :
    addToGroup name file (names.map fun n => (n, members n))
      = names.map fun n => (n, members n ++ if n == name then [file] else []) := by
  induction names with
  | nil => exact absurd h List.not_mem_nil
  | cons first names ih =>
      obtain ⟨hfirst, hrest⟩ := List.nodup_cons.mp hnodup
      rw [List.map_cons, List.map_cons, addToGroup]
      by_cases heq : first = name
      · subst heq
        rw [beq_self_eq_true, if_pos rfl, if_pos rfl]
        congr 1
        refine List.map_congr_left fun n hn => ?_
        have hne : n ≠ first := fun heq => hfirst (heq ▸ hn)
        rw [beq_eq_false_iff_ne.mpr hne]
        exact congrArg (Prod.mk n) (List.append_nil _).symm
      · have hname : name ∈ names := (List.mem_cons.mp h).resolve_left (Ne.symm heq)
        rw [beq_eq_false_iff_ne.mpr heq, ih hrest hname]
        exact congrArg (fun files => (first, files) :: _) (List.append_nil _).symm

/-! ## All files -/

/-- The files of a service, in their order. -/
def membersOf (workingDirectory : Path) (root : Option Path) (files : List String)
    (name : String) : List String :=
  files.filter fun file => nameOf workingDirectory root file == name

variable {workingDirectory : Path} {root : Option Path}

theorem mem_membersOf {files : List String} {file name : String} :
    file ∈ membersOf workingDirectory root files name
      ↔ file ∈ files ∧ nameOf workingDirectory root file = name := by
  rw [membersOf, List.mem_filter, beq_iff_eq]

theorem membersOf_snoc (workingDirectory : Path) (root : Option Path) (files : List String)
    (file name : String) :
    membersOf workingDirectory root (files ++ [file]) name
      = membersOf workingDirectory root files name
        ++ if name == nameOf workingDirectory root file then [file] else [] := by
  rw [membersOf, membersOf, List.filter_append, List.filter_singleton,
    cond_eq_ite, BEq.comm]

theorem groups_snoc (files : List String) (file : String) :
    groups workingDirectory root (files ++ [file])
      = addToGroup (nameOf workingDirectory root file) file
          (groups workingDirectory root files) := by
  rw [groups, groups, List.foldl_append]
  rfl

/-- **Groups.** One group for each service, in the order in which the services are first met, and in
each the files of the service, in their order. -/
theorem groups_eq (workingDirectory : Path) (root : Option Path) (files : List String) :
    groups workingDirectory root files
      = (files.map (nameOf workingDirectory root)).eraseDups.map fun name =>
          (name, membersOf workingDirectory root files name) := by
  induction files using List.reverseRecOn with
  | nil => rfl
  | append_singleton files file ih =>
      have hmembers := membersOf_snoc workingDirectory root files file
      rw [groups_snoc, ih, List.map_append, List.map_singleton]
      by_cases h : nameOf workingDirectory root file ∈ files.map (nameOf workingDirectory root)
      · rw [eraseDups_snoc_of_mem h,
          addToGroup_of_mem file _ (nodup_eraseDups _) (List.mem_eraseDups.mpr h)]
        exact List.map_congr_left fun name _ => congrArg (Prod.mk name) (hmembers name).symm
      · -- the service is met for the first time, so that it had no files before
        have hnone : membersOf workingDirectory root files (nameOf workingDirectory root file)
            = [] := by
          rw [membersOf, List.filter_eq_nil_iff]
          intro other hother heq
          exact h (beq_iff_eq.mp heq ▸ List.mem_map_of_mem hother)
        have hsame : ∀ name ∈ (files.map (nameOf workingDirectory root)).eraseDups,
            membersOf workingDirectory root (files ++ [file]) name
              = membersOf workingDirectory root files name := by
          intro name hname
          have hne : name ≠ nameOf workingDirectory root file :=
            fun heq => h (heq ▸ List.mem_eraseDups.mp hname)
          rw [hmembers, beq_eq_false_iff_ne.mpr hne]
          exact List.append_nil _
        rw [eraseDups_snoc_of_not_mem h,
          addToGroup_of_not_mem file _ (fun hmem => h (List.mem_eraseDups.mp hmem)),
          List.map_append, List.map_singleton, hmembers, hnone, beq_self_eq_true,
          List.map_congr_left fun name hname => congrArg (Prod.mk name) (hsame name hname)]
        rfl

theorem map_fst_groups (workingDirectory : Path) (root : Option Path) (files : List String) :
    (groups workingDirectory root files).map Prod.fst
      = (files.map (nameOf workingDirectory root)).eraseDups := by
  rw [groups_eq, List.map_map]
  exact List.map_id'' (fun _ => rfl) _

/-- A group holds the files of its service, and is not empty. -/
theorem mem_groups {files : List String} {group : Group}
    (h : group ∈ groups workingDirectory root files) :
    group.2 = membersOf workingDirectory root files group.1 ∧ group.2 ≠ [] := by
  rw [groups_eq] at h
  obtain ⟨name, hname, rfl⟩ := List.mem_map.mp h
  obtain ⟨file, hfile, hservice⟩ := List.mem_map.mp (List.mem_eraseDups.mp hname)
  dsimp only
  have hmem : file ∈ membersOf workingDirectory root files name :=
    mem_membersOf.mpr ⟨hfile, hservice⟩
  exact ⟨rfl, List.ne_nil_of_mem hmem⟩

theorem addToGroup_flatMap_perm (name file : String) (gs : List Group) :
    ((addToGroup name file gs).flatMap Prod.snd).Perm (gs.flatMap Prod.snd ++ [file]) := by
  induction gs with
  | nil => exact List.Perm.refl _
  | cons group gs ih =>
      obtain ⟨other, files⟩ := group
      unfold addToGroup
      split
      · rw [List.flatMap_cons, List.flatMap_cons, List.append_assoc, List.append_assoc]
        exact List.perm_append_comm.append_left files
      · rw [List.flatMap_cons, List.flatMap_cons, List.append_assoc]
        exact ih.append_left files

/-- Every file is in a group, as often as it is listed. -/
theorem groups_perm (workingDirectory : Path) (root : Option Path) (files : List String) :
    ((groups workingDirectory root files).flatMap Prod.snd).Perm files := by
  induction files using List.reverseRecOn with
  | nil => exact List.Perm.refl _
  | append_singleton files file ih =>
      rw [groups_snoc]
      exact (addToGroup_flatMap_perm _ file _).trans (ih.append_right [file])

end Service

/-! ## Tables -/

namespace FileTable

theorem insert_of_not_mem {file : SourceFile} {table : FileTable} (h : file.path ∉ table.paths) :
    insert file table = table ++ [file] := by
  induction table with
  | nil => rfl
  | cons other table ih =>
      rw [paths, List.map_cons, List.mem_cons, not_or] at h
      rw [insert, beq_eq_false_iff_ne.mpr (Ne.symm h.1), ih h.2]
      rfl

/-- A table of files with different paths holds these files, in their order. -/
theorem ofList_eq {files : List SourceFile} (h : (files.map SourceFile.path).Nodup) :
    ofList files = files := by
  induction files using List.reverseRecOn with
  | nil => rfl
  | append_singleton files file ih =>
      rw [List.map_append, List.map_singleton, List.nodup_append'] at h
      obtain ⟨hfiles, -, hdisjoint⟩ := h
      have hnew : file.path ∉ paths files := List.disjoint_singleton.mp hdisjoint
      have hfold : ofList (files ++ [file]) = insert file (ofList files) := by
        rw [ofList, ofList, List.foldl_append]
        rfl
      rw [hfold, ih hfiles, insert_of_not_mem hnew]

theorem find?_of_mem {table : FileTable} {path : String} (h : path ∈ table.paths) :
    ∃ file, table.find? path = some file ∧ file.path = path := by
  obtain ⟨file, hfile, hpath⟩ := List.mem_map.mp h
  rw [FileTable.find?]
  cases hfound : List.find? (fun file => file.path == path) table with
  | none => exact absurd (beq_iff_eq.mpr hpath) (List.find?_eq_none.mp hfound file hfile)
  | some found =>
      have hsame := List.find?_some hfound
      exact ⟨found, rfl, beq_iff_eq.mp hsame⟩

end FileTable

namespace ServiceContext

theorem name_add (c : ServiceContext) (file : SourceFile) (category : Option Service.Category) :
    (c.add file category).name = c.name := by
  match category with
  | none | some .controller | some .service | some .model | some .repository | some .config
  | some .utility | some .test => rfl

theorem memberFiles_eq (c : ServiceContext) :
    c.memberFiles = c.controllers.map SourceFile.path ++ (c.services.map SourceFile.path
      ++ (c.models.map SourceFile.path ++ (c.repositories.map SourceFile.path
      ++ (c.configurations.map SourceFile.path ++ (c.utilities.map SourceFile.path
      ++ c.tests.map SourceFile.path))))) := by
  rw [memberFiles, buckets]
  simp only [List.flatMap_cons, List.flatMap_nil, List.append_nil]

/-- **One more file.** Whatever its category, a file that is added is held once. -/
theorem memberFiles_add (c : ServiceContext) (file : SourceFile)
    (category : Option Service.Category) :
    (c.add file category).memberFiles.Perm (c.memberFiles ++ [file.path]) := by
  -- the file is counted once more in its bucket, and the other buckets stay
  rw [List.perm_iff_count]
  intro path
  match category with
  | none | some .controller | some .service | some .model | some .repository | some .config
  | some .utility | some .test =>
      simp only [add, memberFiles_eq, List.map_append, List.map_singleton, List.count_append]
      omega

end ServiceContext

namespace Service

/-! ## Filling a context -/

theorem fill_snoc (name root : String) (files : List String) (file : String) (table : FileTable) :
    fill name root (files ++ [file]) table
      = match table.find? file with
        | some read => (fill name root files table).add read (Category.ofFile? file)
        | none => fill name root files table := by
  rw [fill, fill, List.foldl_append]
  rfl

theorem name_fill (name root : String) (files : List String) (table : FileTable) :
    (fill name root files table).name = name := by
  induction files using List.reverseRecOn with
  | nil => rfl
  | append_singleton files file ih =>
      rw [fill_snoc]
      split
      · rw [ServiceContext.name_add, ih]
      · exact ih

/-- A context that is filled with files of the table holds each as often as it is listed. -/
theorem memberFiles_fill (name root : String) {files : List String} {table : FileTable}
    (h : ∀ file ∈ files, file ∈ table.paths) :
    (fill name root files table).memberFiles.Perm files := by
  induction files using List.reverseRecOn with
  | nil => exact List.Perm.refl _
  | append_singleton files file ih =>
      have hfiles := ih fun other hother => h other (List.mem_append_left _ hother)
      obtain ⟨read, hread, rfl⟩ :=
        FileTable.find?_of_mem (h file (List.mem_append_right _ (List.mem_singleton_self file)))
      rw [fill_snoc, hread]
      exact (ServiceContext.memberFiles_add _ read _).trans (hfiles.append_right [read.path])

/-! ## Putting contexts together -/

/-- **Contexts of the groups.** If the groups hold all files of the table, there is one context for
each group and none besides. -/
theorem assemble_of_complete {groups : List Group} {table : FileTable}
    (h : ∀ file ∈ table.paths, file ∈ groups.flatMap Prod.snd) (edges : List Edge) (root : String) :
    assemble groups table edges root = groups.map fun group =>
      buildContextBy (indexEdges edges) group.1 root group.2 table edges := by
  have hleft : (table.paths.filter fun file => !(groups.flatMap Prod.snd).contains file) = [] := by
    rw [List.filter_eq_nil_iff]
    intro file hfile
    rw [List.contains_iff_mem.mpr (h file hfile)]
    exact Bool.false_ne_true
  rw [assemble, hleft]
  exact List.append_nil _

/-- The groups of a table's own paths hold all its files. -/
theorem assemble_groups (workingDirectory : Path) (root : Option Path) (table : FileTable)
    (edges : List Edge) (rootText : String) :
    assemble (groups workingDirectory root table.paths) table edges rootText
      = (groups workingDirectory root table.paths).map fun group =>
          buildContextBy (indexEdges edges) group.1 rootText group.2 table edges := by
  refine assemble_of_complete (fun file hfile => ?_) edges rootText
  exact (groups_perm workingDirectory root table.paths).mem_iff.mpr hfile

theorem name_buildContextBy (index : EdgeIndex) (name root : String) (files : List String)
    (table : FileTable) (edges : List Edge) :
    (buildContextBy index name root files table edges).name = name :=
  name_fill name root files table

/-- A context built for files of the table holds these files. -/
theorem memberFiles_buildContextBy (index : EdgeIndex) (name root : String) {files : List String}
    {table : FileTable} (edges : List Edge) (h : ∀ file ∈ files, file ∈ table.paths) :
    (buildContextBy index name root files table edges).memberFiles.Perm files :=
  memberFiles_fill name root h

theorem mem_paths_of_mem_groups {workingDirectory : Path} {root : Option Path}
    {files : List String} {group : Group} (h : group ∈ groups workingDirectory root files) :
    ∀ file ∈ group.2, file ∈ files := by
  intro file hfile
  rw [(mem_groups h).1] at hfile
  exact (mem_membersOf.mp hfile).1

end Service

end ServiceMap
