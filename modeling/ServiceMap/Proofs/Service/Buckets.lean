import ServiceMap.Proofs.Service.Context

/-!
# The buckets of a context

A context is filled from a list of files: each file that is known goes to the end of the bucket of
its category, and brings its facts along. So each bucket holds the listed files of its category in
the order of the list, and the facts are those of the files in the buckets. Nothing here depends on
how the files are looked up.
-/

namespace ServiceMap

namespace ServiceContext

open Service

/-- The files of a category. -/
def bucket (c : ServiceContext) : Category → List SourceFile
  | .controller => c.controllers
  | .service => c.services
  | .model => c.models
  | .repository => c.repositories
  | .config => c.configurations
  | .utility => c.utilities
  | .test => c.tests

/-- A file that shows no category is put among the utilities. -/
theorem bucket_add (c : ServiceContext) (file : SourceFile) (category : Option Category)
    (k : Category) :
    (c.add file category).bucket k
      = c.bucket k ++ if category.getD .utility = k then [file] else [] := by
  rcases category with _ | category
  · cases k <;> simp [add, bucket]
  · cases category <;> cases k <;> simp [add, bucket]

/-- The facts of a context are those of its controllers, services and models. -/
structure HasFacts (c : ServiceContext) : Prop where
  endpoints : c.endpoints = c.controllers.flatMap SourceFile.endpoints
  businessLogic : c.businessLogic = c.services.flatMap SourceFile.types
  dataModels : c.dataModels = c.models.flatMap SourceFile.types

theorem HasFacts.add {c : ServiceContext} (h : c.HasFacts) (file : SourceFile)
    (category : Option Category) : (c.add file category).HasFacts := by
  obtain ⟨hendpoints, hlogic, hmodels⟩ := h
  match category with
  | none | some .controller | some .service | some .model | some .repository | some .config
  | some .utility | some .test =>
      constructor <;> simp [ServiceContext.add, hendpoints, hlogic, hmodels]

/-- **Sorted files.** The context holds the files of this list, as far as they are known, each in
the bucket of its category; what it says of the service, it has from them. -/
structure Sorts (c : ServiceContext) (files : List String)
    (find? : String → Option SourceFile) : Prop extends HasFacts c where
  /-- In the order of the list, each as often as it is listed. -/
  bucket : ∀ k, c.bucket k
    = (files.filter fun file => (Category.ofFile? file).getD .utility = k).filterMap find?

namespace Sorts

variable {c : ServiceContext} {files : List String} {find? : String → Option SourceFile}

theorem empty (name root : String) (find? : String → Option SourceFile) :
    ({ name, root } : ServiceContext).Sorts [] find? where
  endpoints := rfl
  businessLogic := rfl
  dataModels := rfl
  bucket k := by cases k <;> rfl

/-- Edges are kept apart from files. -/
theorem edges (h : c.Sorts files find?) (edges : List Edge) :
    ({ c with edges } : ServiceContext).Sorts files find? where
  endpoints := h.endpoints
  businessLogic := h.businessLogic
  dataModels := h.dataModels
  bucket k := by
    rw [← h.bucket k]
    cases k <;> rfl

/-- One more file that is known. -/
theorem add (h : c.Sorts files find?) {file : String} {read : SourceFile}
    (hread : find? file = some read) :
    (c.add read (Category.ofFile? file)).Sorts (files ++ [file]) find? where
  toHasFacts := h.toHasFacts.add read _
  bucket k := by
    rw [bucket_add, List.filter_append, List.filterMap_append, ← h.bucket k]
    by_cases hcategory : (Category.ofFile? file).getD .utility = k <;> simp [hcategory, hread]

/-- One more file that is not. -/
theorem skip (h : c.Sorts files find?) {file : String} (hread : find? file = none) :
    c.Sorts (files ++ [file]) find? where
  toHasFacts := h.toHasFacts
  bucket k := by
    rw [List.filter_append, List.filterMap_append, ← h.bucket k]
    by_cases hcategory : (Category.ofFile? file).getD .utility = k <;> simp [hcategory, hread]

theorem listed_of_mem_bucket (h : c.Sorts files find?) {k : Category} {read : SourceFile}
    (hread : read ∈ c.bucket k) :
    ∃ file ∈ files, find? file = some read := by
  rw [h.bucket k] at hread
  obtain ⟨file, hfile, hfound⟩ := List.mem_filterMap.mp hread
  exact ⟨file, List.mem_of_mem_filter hfile, hfound⟩

/-- A file that is found under its own path only is in the bucket of its category as often as it is
listed, and in no other. -/
theorem count_bucket (h : c.Sorts files find?) {file : String} {read : SourceFile}
    (hread : find? file = some read) (hown : ∀ other, find? other = some read → other = file)
    (k : Category) :
    (c.bucket k).count read
      = if (Category.ofFile? file).getD .utility = k then files.count file else 0 := by
  have hfound : ∀ other ∈ files, (find? other == some read) = true ↔ (other == file) = true := by
    intro other _
    rw [beq_iff_eq, beq_iff_eq]
    exact ⟨hown other, fun heq => heq ▸ hread⟩
  rw [h.bucket k, List.count_filterMap, List.countP_congr fun other hother =>
    hfound other (List.mem_of_mem_filter hother)]
  split
  case isTrue hcategory => exact List.count_filter (decide_eq_true hcategory)
  case isFalse hcategory =>
      refine List.count_eq_zero.mpr fun hmem => hcategory ?_
      exact of_decide_eq_true (List.mem_filter.mp hmem).2

end Sorts

end ServiceContext

namespace Service

/-! ## Filling the buckets -/

/-- The context of a service with these files, however they are looked up. -/
def fillFrom (find? : String → Option SourceFile) (name root : String) (files : List String) :
    ServiceContext :=
  files.foldl (fun context file =>
    match find? file with
    | some read => context.add read (Category.ofFile? file)
    | none => context) { name, root }

theorem fillFrom_find? (name root : String) (files : List String) (table : FileTable) :
    fillFrom table.find? name root files = fill name root files table := rfl

/-- **Buckets.** Each holds the files of its category, in the order of the group. -/
theorem sorts_fillFrom (find? : String → Option SourceFile) (name root : String)
    (files : List String) : (fillFrom find? name root files).Sorts files find? := by
  -- the invariant of the loop over the files
  induction files using List.reverseRecOn with
  | nil => exact ServiceContext.Sorts.empty name root find?
  | append_singleton files file ih =>
      rw [fillFrom, List.foldl_append, ← fillFrom, List.foldl_cons, List.foldl_nil]
      split
      case h_1 read hread => exact ih.add hread
      case h_2 hread => exact ih.skip hread

theorem path_of_find? {table : FileTable} {path : String} {file : SourceFile}
    (h : table.find? path = some file) : file.path = path := by
  have hfound := List.find?_some h
  exact beq_iff_eq.mp hfound

theorem sorts_buildContextBy (index : EdgeIndex) (name root : String) (files : List String)
    (table : FileTable) (edges : List Edge) :
    (buildContextBy index name root files table edges).Sorts files table.find? := by
  rw [buildContextBy, ← fillFrom_find?]
  exact (sorts_fillFrom table.find? name root files).edges _

theorem bucket_buildContextBy (index : EdgeIndex) (name root : String) (files : List String)
    (table : FileTable) (edges : List Edge) (k : Category) :
    (buildContextBy index name root files table edges).bucket k
      = (files.filter fun file => (Category.ofFile? file).getD .utility = k).filterMap
          table.find? :=
  (sorts_buildContextBy index name root files table edges).bucket k

theorem hasFacts_buildContextBy (index : EdgeIndex) (name root : String) (files : List String)
    (table : FileTable) (edges : List Edge) :
    (buildContextBy index name root files table edges).HasFacts :=
  (sorts_buildContextBy index name root files table edges).toHasFacts

/-- What a context says of the files of a table: it sorts those that are listed, and no others. -/
structure SortsTable (c : ServiceContext) (files : List String) (table : FileTable) : Prop
    extends c.Sorts files table.find? where
  /-- A file is in the bucket of its category as often as it is listed, and in no other. -/
  count : ∀ file read, table.find? file = some read → ∀ k,
    (c.bucket k).count read
      = if (Category.ofFile? file).getD .utility = k then files.count file else 0
  /-- Nothing else is in a bucket. -/
  listed : ∀ k, ∀ read ∈ c.bucket k, read.path ∈ files ∧ table.find? read.path = some read

theorem SortsTable.of_sorts {c : ServiceContext} {files : List String} {table : FileTable}
    (h : c.Sorts files table.find?) : SortsTable c files table where
  toSorts := h
  count file read hread k := by
    refine h.count_bucket hread (fun other hother => ?_) k
    rw [← path_of_find? hother, path_of_find? hread]
  listed k read hread := by
    obtain ⟨file, hfile, hfound⟩ := h.listed_of_mem_bucket hread
    rw [path_of_find? hfound]
    exact ⟨hfile, hfound⟩

/-- **Contexts of a list of files.** Whatever is listed and however it is looked up, the buckets of
the context are the known files of the list, by category and in the order of the list, and its facts
are those of the files in its buckets. In a table, where each file has its own path, a listed file
is in just one bucket, as often as it is listed. -/
theorem buckets_hold_the_listed_files (name root : String) (files : List String)
    (edges : List Edge) :
    (∀ find? : String → Option SourceFile,
        ({ fillFrom find? name root files with edges } : ServiceContext).Sorts files find?)
      ∧ ∀ table : FileTable,
        SortsTable (buildContext name root files table edges) files table
          ∧ ∀ index : EdgeIndex,
            SortsTable (buildContextBy index name root files table edges) files table := by
  refine ⟨fun find? => (sorts_fillFrom find? name root files).edges edges, fun table => ⟨?_, ?_⟩⟩
  · rw [buildContext, ← fillFrom_find?]
    exact .of_sorts ((sorts_fillFrom table.find? name root files).edges _)
  · exact fun index => .of_sorts (sorts_buildContextBy index name root files table edges)

/-- A file that is listed twice, one that shows no category, and one that is not known. -/
example :
    let user : SourceFile := ⟨"models/User.java", .java, [], [], [], none⟩
    let main : SourceFile := ⟨"src/Main.java", .java, [], [], [], none⟩
    let c := buildContext "Shop" "/p" [user.path, main.path, "models/Lost.java", user.path]
      [main, user] []
    c.models = [user, user] ∧ c.utilities = [main] ∧ c.memberFiles.length = 3 := by
  decide +kernel

end Service

end ServiceMap
