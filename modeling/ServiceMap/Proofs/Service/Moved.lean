import ServiceMap.Proofs.Facts.Renamed
import ServiceMap.Proofs.Service.Buckets
import ServiceMap.Proofs.Service.Positions
import ServiceMap.Proofs.Tree.Placed

/-!
# Services under another root

The service of a file below a root does not depend on what the root is called, and neither does its
category, unless the file lies in the root itself and its name shows none: then the name of the root
decides. Contexts are the same up to such files.
-/

namespace ServiceMap

open Text

/-! ## Contexts by their buckets -/

namespace ServiceContext

open Service

theorem root_add (c : ServiceContext) (file : SourceFile) (category : Option Category) :
    (c.add file category).root = c.root := by
  match category with
  | none | some .controller | some .service | some .model | some .repository | some .config
  | some .utility | some .test => rfl

variable {c d : ServiceContext}

/-- A context is told by its name, its root, its buckets and its edges. -/
theorem eq_of_buckets (hc : c.HasFacts) (hd : d.HasFacts) (hname : c.name = d.name)
    (hroot : c.root = d.root) (hbuckets : ∀ k, c.bucket k = d.bucket k)
    (hedges : c.edges = d.edges) : c = d := by
  have hcontrollers : c.controllers = d.controllers := hbuckets .controller
  have hservices : c.services = d.services := hbuckets .service
  have hmodels : c.models = d.models := hbuckets .model
  have hrepositories : c.repositories = d.repositories := hbuckets .repository
  have hconfigurations : c.configurations = d.configurations := hbuckets .config
  have hutilities : c.utilities = d.utilities := hbuckets .utility
  have htests : c.tests = d.tests := hbuckets .test
  have hendpoints : c.endpoints = d.endpoints := by rw [hc.endpoints, hcontrollers, hd.endpoints]
  have hlogic : c.businessLogic = d.businessLogic := by
    rw [hc.businessLogic, hservices, hd.businessLogic]
  have hdata : c.dataModels = d.dataModels := by rw [hc.dataModels, hmodels, hd.dataModels]
  cases c
  cases d
  simp_all

end ServiceContext

namespace Service

theorem root_fill (name root : String) (files : List String) (table : FileTable) :
    (fill name root files table).root = root := by
  induction files using List.reverseRecOn with
  | nil => rfl
  | append_singleton files file ih =>
      rw [fill_snoc]
      split
      · rw [ServiceContext.root_add, ih]
      · exact ih

/-! ## Names and categories below a root -/

namespace Category

/-- The category of the files in a root whose own names show none. -/
def ofRoot (root : Path) : Category :=
  (ofDirectoryName? (lowerString root.name)).getD .utility

/-- Whether the name of the root decides on the category of a file: it lies in the root itself, and
its own name shows none. -/
def isLeftToRoot (root : Path) (file : String) : Bool :=
  (Path.ofString file).parent == root
    && (ofFileName? (lower (Path.ofString file).name.toList)).isNone

theorem ofFile?_of_isLeftToRoot {root : Path} {file : String} (h : isLeftToRoot root file = true) :
    (ofFile? file).getD .utility = ofRoot root := by
  obtain ⟨hparent, hname⟩ := Bool.and_eq_true_iff.mp h
  simp only [ofFile?, ofRoot, Option.isNone_iff_eq_none.mp hname, beq_iff_eq.mp hparent,
    Option.orElse_none]

end Category

variable {root : Path} {names : List String}

theorem name_below_eq (hne : names ≠ []) : (root.below names).name = (Path.mk 0 names).name := by
  rw [Path.name, Path.name, Path.getLast?_below hne]

theorem nameOf_toString (workingDirectory : Path) (root? : Option Path) {p : Path}
    (hp : p.IsPlain) :
    nameOf workingDirectory root? p.toString
      = match nameOfStem? p.stem with
        | some name => String.ofList name
        | none =>
          if p.parent.name == "" then rootService
          else if root?.any fun r =>
              p.parent.resolve workingDirectory == r.resolve workingDirectory then rootService
          else p.parent.name := by
  unfold nameOf
  cases hstem : nameOfStem? p.stem with
  | none => simp only [Path.ofString_toString hp, hstem]
  | some name => simp only [Path.ofString_toString hp, hstem]

/-- **Services.** A file below a root belongs to the service of its path seen from the root. -/
theorem nameOf_below (workingDirectory otherDirectory : Path) (hslashes : root.slashes = 1)
    (hroot : root.IsPlain) (hup : ∀ name ∈ root.names, name ≠ "..") (hne : names ≠ [])
    (hnames : ∀ name ∈ names, Node.IsFileName name) :
    nameOf workingDirectory (some root) (root.below names).toString
      = nameOf otherDirectory none (Path.mk 0 names).toString := by
  have hplain : (root.below names).IsPlain :=
    hroot.below fun name hname => (hnames name hname).toIsPlainName
  have hrelative : (Path.mk 0 names).IsPlain :=
    ⟨Nat.zero_le 2, fun name hname => (hnames name hname).toIsPlainName⟩
  have hstem : (root.below names).stem = (Path.mk 0 names).stem := by
    rw [Path.stem, Path.stem, name_below_eq hne]
  have hresolve : ∀ dirs : List String, (∀ name ∈ dirs, name ≠ "..") →
      (root.below dirs).resolve workingDirectory = root.below dirs := by
    intro dirs hdirs
    refine @Path.resolve_of_not_up (root.below dirs) hslashes (fun name hname => ?_) _
    exact (List.mem_append.mp hname).elim (hup name) (hdirs name)
  have hself : root.resolve workingDirectory = root :=
    Path.resolve_of_not_up hslashes hup workingDirectory
  rw [nameOf_toString _ _ hplain, nameOf_toString _ _ hrelative, hstem]
  cases nameOfStem? (Path.mk 0 names).stem with
  | some name => rfl
  | none =>
      have hparent : (Path.mk 0 names).parent = Path.mk 0 names.dropLast := rfl
      have hdirs : ∀ name ∈ names.dropLast, name ≠ ".." :=
        fun name hname => (hnames name (List.dropLast_subset _ hname)).notUp
      dsimp only
      rw [Path.parent_below hne, hparent, Option.any_some, Option.any_none, hresolve _ hdirs, hself]
      by_cases hnil : names.dropLast = []
      · -- the file lies in the root, which is nothing seen from itself
        rw [hnil, Path.below_nil, beq_self_eq_true]
        exact ite_self _
      · have hlast : (Path.mk 0 names.dropLast).name ≠ "" := hrelative.parent.name_ne_empty hnil
        have hroot : (root.below names.dropLast == root) = false := by
          rw [beq_eq_false_iff_ne]
          intro heq
          exact hnil (Path.below_inj (heq.trans Path.below_nil.symm))
        rw [name_below_eq hnil, hroot]

theorem isLeftToRoot_below (hplain : (root.below names).IsPlain) (hne : names ≠ []) :
    Category.isLeftToRoot root (root.below names).toString
      = (names.dropLast.isEmpty
        && (Category.ofFileName? (lower (Path.mk 0 names).name.toList)).isNone) := by
  have hparent : (root.below names.dropLast == root) = names.dropLast.isEmpty := by
    rw [Bool.eq_iff_iff, beq_iff_eq, List.isEmpty_iff]
    constructor
    · exact fun heq => Path.below_inj (heq.trans Path.below_nil.symm)
    · rintro hnil
      rw [hnil, Path.below_nil]
  rw [Category.isLeftToRoot, Path.ofString_toString hplain, Path.parent_below hne, hparent,
    name_below_eq hne]

/-- The category of a file below a root that is not left to the name of the root. -/
theorem ofFile?_below (hplain : (root.below names).IsPlain) (hne : names ≠ [])
    (h : Category.isLeftToRoot root (root.below names).toString = false) :
    Category.ofFile? (root.below names).toString
      = (Category.ofFileName? (lower (Path.mk 0 names).name.toList)).orElse fun _ =>
          Category.ofDirectoryName? (lowerString (Path.mk 0 names.dropLast).name) := by
  rw [isLeftToRoot_below hplain hne] at h
  rw [Category.ofFile?, Path.ofString_toString hplain, name_below_eq hne]
  cases hname : Category.ofFileName? (lower (Path.mk 0 names).name.toList) with
  | some category => rfl
  | none =>
      rw [hname, Option.isNone_none, Bool.and_true, List.isEmpty_eq_false_iff] at h
      rw [Path.parent_below hne, name_below_eq h]

/-! ## Groups and edges of renamed files -/

section Renamed

variable {f : String → String} {s : Set String}

theorem addToGroup_map (f : String → String) (name file : String) (gs : List Group) :
    addToGroup name (f file) (gs.map fun group => (group.1, group.2.map f))
      = (addToGroup name file gs).map fun group => (group.1, group.2.map f) := by
  induction gs with
  | nil => rfl
  | cons group gs ih =>
      obtain ⟨other, files⟩ := group
      rw [List.map_cons, addToGroup, addToGroup]
      by_cases heq : (other == name) = true
      · rw [if_pos heq, if_pos heq, List.map_cons, List.map_append]
        rfl
      · rw [if_neg heq, if_neg heq, List.map_cons, ih]

/-- Files with other names are grouped as before, if their services are the same. -/
theorem groups_map {workingDirectory otherDirectory : Path} {old new : Option Path}
    {files : List String}
    (h : ∀ file ∈ files, nameOf otherDirectory new (f file) = nameOf workingDirectory old file) :
    groups otherDirectory new (files.map f)
      = (groups workingDirectory old files).map fun group => (group.1, group.2.map f) := by
  induction files using List.reverseRecOn with
  | nil => rfl
  | append_singleton files file ih =>
      rw [List.map_append, List.map_singleton, groups_snoc, groups_snoc,
        ih fun other hother => h other (List.mem_append_left _ hother),
        h file (List.mem_append_right _ List.mem_cons_self), addToGroup_map]

theorem find?_rename (hf : Set.InjOn f s) {table : FileTable}
    (htable : ∀ path ∈ table.paths, path ∈ s) {path : String} (hpath : path ∈ s) :
    FileTable.find? (table.map (SourceFile.rename f)) (f path)
      = (table.find? path).map (SourceFile.rename f) := by
  rw [FileTable.find?, FileTable.find?, List.find?_map]
  refine congrArg (Option.map (SourceFile.rename f)) (List.find?_congr fun file hfile => ?_)
  show (f file.path == f path) = (file.path == path)
  rw [Bool.eq_iff_iff, beq_iff_eq, beq_iff_eq]
  exact hf.eq_iff (htable _ (List.mem_map_of_mem hfile)) hpath

theorem contains_map (hf : Set.InjOn f s) {files : List String} (hfiles : ∀ file ∈ files, file ∈ s)
    {file : String} (hfile : file ∈ s) : (files.map f).contains (f file) = files.contains file := by
  rw [Bool.eq_iff_iff, List.contains_iff_mem, List.contains_iff_mem, List.mem_map]
  constructor
  · rintro ⟨other, hother, heq⟩
    exact hf (hfiles other hother) hfile heq ▸ hother
  · exact fun hmem => ⟨file, hmem, rfl⟩

theorem edgesTouching_rename (hf : Set.InjOn f s) {files : List String} {edges : List Edge}
    (hfiles : ∀ file ∈ files, file ∈ s) (hedges : ∀ e ∈ edges, e.source ∈ s ∧ e.target ∈ s) :
    edgesTouching (files.map f) (edges.map (Edge.rename f))
      = (edgesTouching files edges).map (Edge.rename f) := by
  rw [edgesTouching, edgesTouching, List.filter_map]
  refine congrArg (List.map (Edge.rename f)) (List.filter_congr fun e he => ?_)
  obtain ⟨hsource, htarget⟩ := hedges e he
  show ((files.map f).contains (f e.source) || (files.map f).contains (f e.target)) = _
  rw [contains_map hf hfiles hsource, contains_map hf hfiles htarget]

end Renamed

end Service

/-! ## Contexts -/

namespace ServiceContext

open Service

theorem bucket_rename (f : String → String) (c : ServiceContext) (k : Category) :
    (c.rename f).bucket k = (c.bucket k).map (SourceFile.rename f) := by
  cases k <;> rfl

theorem HasFacts.rename {c : ServiceContext} (h : c.HasFacts) (f : String → String) :
    (c.rename f).HasFacts := by
  obtain ⟨hendpoints, hlogic, hmodels⟩ := h
  constructor
  · simp [ServiceContext.rename, hendpoints, List.map_flatMap, List.flatMap_map, SourceFile.rename]
  · simp [ServiceContext.rename, hlogic, List.flatMap_map, SourceFile.rename]
  · simp [ServiceContext.rename, hmodels, List.flatMap_map, SourceFile.rename]

theorem eq_rename_of_buckets {f : String → String} {c d : ServiceContext} (hc : c.HasFacts)
    (hd : d.HasFacts) (hname : d.name = c.name) (hroot : d.root = f c.root)
    (hbuckets : ∀ k, d.bucket k = (c.bucket k).map (SourceFile.rename f))
    (hedges : d.edges = c.edges.map (Edge.rename f)) : d = c.rename f :=
  eq_of_buckets hd (hc.rename f) hname hroot
    (fun k => (hbuckets k).trans (bucket_rename f c k).symm) hedges

/-- A context below one root and the same context below another. -/
structure Moved (old new : Path) (c c' : ServiceContext) : Prop where
  name : c'.name = c.name
  root : c'.root = Path.moveText old new c.root
  members : c'.memberFiles.Perm (c.memberFiles.map (Path.moveText old new))
  /-- Files stay in their buckets, unless the name of the root decides. -/
  buckets : ∀ k, (c'.bucket k).filter (fun file => !Category.isLeftToRoot new file.path)
    = ((c.bucket k).filter fun file => !Category.isLeftToRoot old file.path).map
        (SourceFile.rename (Path.moveText old new))
  /-- Where it decides, the file is in the bucket that it shows. -/
  left : ∀ k, (∀ file ∈ c.bucket k, Category.isLeftToRoot old file.path = true →
      k = Category.ofRoot old)
    ∧ ∀ file ∈ c'.bucket k, Category.isLeftToRoot new file.path = true → k = Category.ofRoot new
  facts : c.HasFacts ∧ c'.HasFacts
  edges : c'.edges = c.edges.map (Edge.rename (Path.moveText old new))
  /-- If the two roots decide alike, or on no file, nothing else has changed. -/
  same : (∀ file ∈ c.memberFiles, Category.isLeftToRoot old file = true →
      Category.ofRoot old = Category.ofRoot new) →
    c' = c.rename (Path.moveText old new)

end ServiceContext

namespace Service

open Discovery

variable {tree otherTree : Tree} {workingDirectory otherDirectory old new : Path}
  {path otherPath : String} {content : Node} {file : String}

section OneFile

variable (h : Placed tree workingDirectory path old content)
  (h' : Placed otherTree otherDirectory otherPath new content)
  (hfile : file ∈ fileTexts content old)

include h h' hfile

theorem nameOf_moved :
    nameOf otherDirectory (some new) (Path.moveText old new file)
      = nameOf workingDirectory (some old) file := by
  obtain ⟨names, bytes, modified, hbelow, rfl⟩ := hfile
  have hnames := (h.content_isWellFormed.below hbelow).2
  have hold := nameOf_below workingDirectory otherDirectory h.isRoot.slashes h.isPlain
    h.isRoot.noUp (h.ne_nil hbelow) hnames
  have hnew := nameOf_below otherDirectory otherDirectory h'.isRoot.slashes h'.isPlain
    h'.isRoot.noUp (h.ne_nil hbelow) hnames
  rw [h.moveText_below h', hold, hnew]

theorem isLeftToRoot_moved :
    Category.isLeftToRoot new (Path.moveText old new file) = Category.isLeftToRoot old file := by
  obtain ⟨names, bytes, modified, hbelow, rfl⟩ := hfile
  have hne := h.ne_nil hbelow
  rw [h.moveText_below h', isLeftToRoot_below (h.isPlain_below hbelow) hne,
    isLeftToRoot_below (h'.isPlain_below hbelow) hne]

theorem ofFile?_moved (hleft : Category.isLeftToRoot old file = false) :
    Category.ofFile? (Path.moveText old new file) = Category.ofFile? file := by
  have hleft' := (isLeftToRoot_moved h h' hfile).trans hleft
  obtain ⟨names, bytes, modified, hbelow, rfl⟩ := hfile
  have hne := h.ne_nil hbelow
  rw [h.moveText_below h'] at hleft' ⊢
  rw [ofFile?_below (h.isPlain_below hbelow) hne hleft,
    ofFile?_below (h'.isPlain_below hbelow) hne hleft']

end OneFile

/-- Filtering the files of a table by their paths. -/
theorem filter_filterMap_find? (p : String → Bool) (files : List String) (table : FileTable) :
    (files.filterMap table.find?).filter (fun file => p file.path)
      = (files.filter p).filterMap table.find? := by
  rw [List.filter_filterMap, List.filterMap_filter]
  refine List.filterMap_congr fun path _ => ?_
  cases hfound : table.find? path with
  | none => simp
  | some file => rw [Option.filter_some, path_of_find? hfound]

theorem paths_map_rename (f : String → String) (table : FileTable) :
    FileTable.paths (table.map (SourceFile.rename f)) = table.paths.map f := by
  rw [FileTable.paths, FileTable.paths, List.map_map, List.map_map]
  rfl

/-- Looking renamed files up among renamed files. -/
theorem filterMap_find?_rename {f : String → String} {s : Set String} (hf : Set.InjOn f s)
    {table : FileTable} (htable : ∀ path ∈ table.paths, path ∈ s) {files : List String}
    (hfiles : ∀ file ∈ files, file ∈ s) (p : String → Bool) :
    ((files.map f).filter p).filterMap (FileTable.find? (table.map (SourceFile.rename f)))
      = ((files.filter fun file => p (f file)).filterMap table.find?).map
          (SourceFile.rename f) := by
  rw [List.filter_map, List.filterMap_map, List.map_filterMap]
  refine List.filterMap_congr fun file hfile => ?_
  exact find?_rename hf htable (hfiles file (List.mem_of_mem_filter hfile))

theorem root_buildContextBy (index : EdgeIndex) (name root : String) (files : List String)
    (table : FileTable) (edges : List Edge) :
    (buildContextBy index name root files table edges).root = root :=
  root_fill name root files table

theorem eq_ofRoot_of_mem_bucket {root : Path} {index : EdgeIndex} {name text : String}
    {files : List String} {table : FileTable} {edges : List Edge} {k : Category}
    {file : SourceFile}
    (h : file ∈ (buildContextBy index name text files table edges).bucket k)
    (hleft : Category.isLeftToRoot root file.path = true) : k = Category.ofRoot root := by
  rw [bucket_buildContextBy] at h
  obtain ⟨path, hpath, hfound⟩ := List.mem_filterMap.mp h
  have hcategory := of_decide_eq_true (List.mem_filter.mp hpath).2
  rw [path_of_find? hfound] at hleft
  rw [← hcategory, Category.ofFile?_of_isLeftToRoot hleft]

variable {table : FileTable} {files : List String} {edges : List Edge}

section Buckets

variable (h : Placed tree workingDirectory path old content)
  (h' : Placed otherTree otherDirectory otherPath new content)
  (htable : ∀ path ∈ table.paths, path ∈ fileTexts content old)
  (hfiles : ∀ file ∈ files, file ∈ table.paths)

include h htable hfiles

theorem filterMap_find?_moved (new : Path) (p : String → Bool) :
    ((files.map (Path.moveText old new)).filter p).filterMap
        (FileTable.find? (table.map (SourceFile.rename (Path.moveText old new))))
      = ((files.filter fun file => p (Path.moveText old new file)).filterMap table.find?).map
          (SourceFile.rename (Path.moveText old new)) := by
  have hbelow : ∀ path ∈ table.paths, path ∈ old.textsBelow :=
    fun path hpath => fileTexts_subset content old (htable path hpath)
  exact filterMap_find?_rename (Path.injOn_moveText new h.isRoot.slashes h.named) hbelow
    (fun file hfile => hbelow file (hfiles file hfile)) p

include h'

/-- A file stays in its bucket, unless the name of the root decides. -/
theorem bucket_moved (index index' : EdgeIndex) (name text text' : String)
    (edges edges' : List Edge) (k : Category) :
    ((buildContextBy index' name text' (files.map (Path.moveText old new))
        (table.map (SourceFile.rename (Path.moveText old new))) edges').bucket k).filter
          (fun file => !Category.isLeftToRoot new file.path)
      = (((buildContextBy index name text files table edges).bucket k).filter
          fun file => !Category.isLeftToRoot old file.path).map
            (SourceFile.rename (Path.moveText old new)) := by
  rw [bucket_buildContextBy, bucket_buildContextBy,
    filter_filterMap_find? fun file => !Category.isLeftToRoot new file,
    filter_filterMap_find? fun file => !Category.isLeftToRoot old file, List.filter_filter,
    List.filter_filter, filterMap_find?_moved h htable hfiles]
  refine congrArg (fun files => (List.filterMap table.find? files).map
    (SourceFile.rename (Path.moveText old new))) (List.filter_congr fun file hfile => ?_)
  have htext := htable file (hfiles file hfile)
  rewrite [isLeftToRoot_moved h h' htext]
  cases hleft : Category.isLeftToRoot old file with
  | true => simp only [Bool.not_true, Bool.false_and]
  | false => rw [ofFile?_moved h h' htext hleft]

/-- If the names of the two roots decide alike, every file stays in its bucket. -/
theorem bucket_moved_alike
    (halike : ∀ file ∈ files, Category.isLeftToRoot old file = true →
      Category.ofRoot old = Category.ofRoot new)
    (index index' : EdgeIndex) (name text text' : String) (edges edges' : List Edge)
    (k : Category) :
    (buildContextBy index' name text' (files.map (Path.moveText old new))
        (table.map (SourceFile.rename (Path.moveText old new))) edges').bucket k
      = ((buildContextBy index name text files table edges).bucket k).map
          (SourceFile.rename (Path.moveText old new)) := by
  rw [bucket_buildContextBy, bucket_buildContextBy, filterMap_find?_moved h htable hfiles]
  refine congrArg (fun files => (List.filterMap table.find? files).map
    (SourceFile.rename (Path.moveText old new))) (List.filter_congr fun file hfile => ?_)
  have htext := htable file (hfiles file hfile)
  cases hleft : Category.isLeftToRoot old file with
  | false => rw [ofFile?_moved h h' htext hleft]
  | true =>
      rw [Category.ofFile?_of_isLeftToRoot hleft,
        Category.ofFile?_of_isLeftToRoot ((isLeftToRoot_moved h h' htext).trans hleft),
        halike file hfile hleft]

end Buckets

/-- **Contexts.** The context of some files below one root and that of the same files below another
are the same, up to the files that are left to the names of the roots. -/
theorem buildContextBy_moved (h : Placed tree workingDirectory path old content)
    (h' : Placed otherTree otherDirectory otherPath new content) (name : String)
    (htable : ∀ path ∈ table.paths, path ∈ fileTexts content old)
    (hfiles : ∀ file ∈ files, file ∈ table.paths)
    (hedges : ∀ e ∈ edges, e.source ∈ old.textsBelow ∧ e.target ∈ old.textsBelow) :
    ServiceContext.Moved old new
      (buildContextBy (indexEdges edges) name old.toString files table edges)
      (buildContextBy (indexEdges (edges.map (Edge.rename (Path.moveText old new)))) name
        new.toString (files.map (Path.moveText old new))
        (table.map (SourceFile.rename (Path.moveText old new)))
        (edges.map (Edge.rename (Path.moveText old new)))) := by
  have hmembers := memberFiles_buildContextBy (indexEdges edges) name old.toString edges hfiles
  have hnames : (buildContextBy (indexEdges (edges.map (Edge.rename (Path.moveText old new)))) name
        new.toString (files.map (Path.moveText old new))
        (table.map (SourceFile.rename (Path.moveText old new)))
        (edges.map (Edge.rename (Path.moveText old new)))).name
      = (buildContextBy (indexEdges edges) name old.toString files table edges).name := by
    rw [name_buildContextBy, name_buildContextBy]
  have hroots : (buildContextBy (indexEdges (edges.map (Edge.rename (Path.moveText old new)))) name
        new.toString (files.map (Path.moveText old new))
        (table.map (SourceFile.rename (Path.moveText old new)))
        (edges.map (Edge.rename (Path.moveText old new)))).root
      = Path.moveText old new
          (buildContextBy (indexEdges edges) name old.toString files table edges).root := by
    have hmoved := h.moveText_below h' []
    rw [Path.below_nil, Path.below_nil] at hmoved
    rw [root_buildContextBy, root_buildContextBy, hmoved]
  have htouching := edgesTouching_rename (Path.injOn_moveText new h.isRoot.slashes h.named)
    (fun file hfile => fileTexts_subset content old (htable file (hfiles file hfile))) hedges
  rw [← edgesTouchingBy_indexEdges, ← edgesTouchingBy_indexEdges] at htouching
  constructor
  case name => exact hnames
  case root => exact hroots
  case members =>
      refine (memberFiles_buildContextBy _ _ _ _ ?_).trans (hmembers.map _).symm
      rw [paths_map_rename]
      intro moved hmoved
      obtain ⟨file, hfile, rfl⟩ := List.mem_map.mp hmoved
      exact List.mem_map_of_mem (hfiles file hfile)
  case buckets => exact bucket_moved h h' htable hfiles _ _ name _ _ _ _
  case left => exact fun k => ⟨fun _ => eq_ofRoot_of_mem_bucket, fun _ => eq_ofRoot_of_mem_bucket⟩
  case facts => exact ⟨hasFacts_buildContextBy _ _ _ _ _ _, hasFacts_buildContextBy _ _ _ _ _ _⟩
  case edges => exact htouching
  case same =>
      intro hsame
      refine ServiceContext.eq_rename_of_buckets (hasFacts_buildContextBy _ _ _ _ _ _)
        (hasFacts_buildContextBy _ _ _ _ _ _) hnames hroots (fun k => ?_) htouching
      refine bucket_moved_alike h h' htable hfiles (fun file hfile hleft => ?_) _ _ name _ _ _ _ k
      exact hsame file (hmembers.mem_iff.mpr hfile) hleft

end Service

end ServiceMap
