import Mathlib.Data.List.Perm.Basic
import ServiceMap.Proofs.Analysis.Reading
import ServiceMap.Proofs.Link.Pool
import ServiceMap.Proofs.Service.Context

/-!
# Every file is accounted for

An analysis neither loses nor doubles a file: each discovered path stands in one context, the one of
its service, or among the skipped files.
-/

namespace ServiceMap

namespace AnalysisResult

end AnalysisResult

namespace Analyzer

open Service

variable {a : Analyzer} {tree : Tree} {workingDirectory root : Path}

/-- The discovered paths whose files were read, as texts. -/
def readTexts (paths : List Path) (r : AnalysisResult) : List String :=
  (paths.map Path.toString).filter fun file => !r.skippedFiles.contains file

/-- An analysis has a result if there is a root, the files below it are read and the edges between
them found; it is put together from what was read and found. -/
theorem analyzeDirectory_eq_ok_iff {path : String} {r : AnalysisResult} :
    (a.analyzeDirectory tree workingDirectory path).result = .ok r ↔
      ∃ root reading scan, Discovery.resolveRoot tree workingDirectory path = .ok root
        ∧ (readFiles a.registry tree workingDirectory (Discovery.filesBelow tree workingDirectory
            root a.registry.extensions a.registry.excluded)).result = .ok reading
        ∧ (Extractor.ofTable (FileTable.ofList reading.files)).extractAll tree workingDirectory
            a.workers = .ok scan
        ∧ r = resultOf workingDirectory root reading scan.1.edges := by
  constructor
  · intro h
    obtain ⟨root, hroot, h⟩ := Reported.bind_eq_ok h
    obtain ⟨_, -, h⟩ := Reported.bind_eq_ok h
    obtain ⟨_, -, h⟩ := Reported.bind_eq_ok h
    obtain ⟨reading, hreading, h⟩ := Reported.bind_eq_ok h
    obtain ⟨_, -, h⟩ := Reported.bind_eq_ok h
    obtain ⟨scan, hscan, h⟩ := Reported.bind_eq_ok h
    obtain ⟨_, -, h⟩ := Reported.bind_eq_ok h
    obtain ⟨_, -, h⟩ := Reported.bind_eq_ok h
    obtain ⟨_, -, h⟩ := Reported.bind_eq_ok h
    exact ⟨root, reading, scan, Reported.ofExcept_eq_ok hroot, hreading,
      Reported.ofExcept_eq_ok hscan, (Except.ok.inj h).symm⟩
  · rintro ⟨root, reading, scan, hroot, hreading, hscan, rfl⟩
    refine Reported.bind_of_ok (Reported.ofExcept_of_ok hroot) ?_
    refine Reported.bind_of_ok rfl (Reported.bind_of_ok rfl (Reported.bind_of_ok hreading ?_))
    refine Reported.bind_of_ok rfl (Reported.bind_of_ok (Reported.ofExcept_of_ok hscan) ?_)
    exact Reported.bind_of_ok rfl (Reported.bind_of_ok rfl (Reported.bind_of_ok rfl rfl))

/-- What is known of a reading of these paths. -/
structure Divides (paths : List Path) (reading : Reading) : Prop where
  distinct : (paths.map Path.toString).Nodup
  held : (reading.files.map SourceFile.path ++ reading.skipped).Perm (paths.map Path.toString)
  read : reading.files.map SourceFile.path
    = (paths.map Path.toString).filter fun file => !reading.skipped.contains file

/-- Whether a path is among the skipped ones is told by its text. -/
theorem mem_skipped_iff {paths : List Path} {reading : Reading} {isRead : Path → Bool}
    (hdistinct : (paths.map Path.toString).Nodup)
    (hskipped : reading.skipped = (paths.filter fun path => !isRead path).map Path.toString)
    {path : Path} (hpath : path ∈ paths) :
    path.toString ∈ reading.skipped ↔ isRead path = false := by
  rw [hskipped, List.mem_map]
  constructor
  · rintro ⟨other, hother, heq⟩
    obtain ⟨hmem, hread⟩ := List.mem_filter.mp hother
    rw [List.inj_on_of_nodup_map hdistinct hmem hpath heq, Bool.not_eq_true'] at hread
    exact hread
  · intro hread
    exact ⟨path, List.mem_filter.mpr ⟨hpath, by rw [hread]; rfl⟩, rfl⟩

theorem divides_of_filter {paths : List Path} {reading : Reading} {isRead : Path → Bool}
    (hdistinct : (paths.map Path.toString).Nodup)
    (hfiles : reading.files.map SourceFile.path = (paths.filter isRead).map Path.toString)
    (hskipped : reading.skipped = (paths.filter fun path => !isRead path).map Path.toString) :
    Divides paths reading where
  distinct := hdistinct
  held := by
    rw [hfiles, hskipped, ← List.map_append]
    exact (List.filter_append_perm isRead paths).map Path.toString
  read := by
    rw [hfiles, List.filter_map]
    refine congrArg (List.map Path.toString) (List.filter_congr fun path hpath => ?_)
    have hcontains : reading.skipped.contains path.toString = !isRead path := by
      rw [Bool.eq_iff_iff, List.contains_iff_mem, mem_skipped_iff hdistinct hskipped hpath,
        Bool.not_eq_true']
    show isRead path = !reading.skipped.contains path.toString
    rw [hcontains, Bool.not_not]

/-! ## The result -/

variable {paths : List Path} {reading : Reading}

/-- No file is read twice. -/
theorem Divides.nodup (h : Divides paths reading) :
    (reading.files.map SourceFile.path).Nodup := by
  rw [h.read]
  exact h.distinct.filter _

/-- The table of the files that were read holds them as they were read. -/
theorem Divides.ofList_eq (h : Divides paths reading) :
    FileTable.ofList reading.files = reading.files :=
  FileTable.ofList_eq h.nodup

theorem paths_ofList (h : Divides paths reading) :
    (FileTable.ofList reading.files).paths = reading.files.map SourceFile.path := by
  rw [h.ofList_eq, FileTable.paths]

/-- The groups of the files that were read. -/
theorem contexts_resultOf (h : Divides paths reading) (root : Path) (edges : List Edge) :
    (resultOf workingDirectory root reading edges).contexts
      = (groups workingDirectory (some root) (reading.files.map SourceFile.path)).map fun group =>
          buildContextBy (indexEdges edges) group.1 root.toString group.2
            (FileTable.ofList reading.files) edges := by
  rw [← paths_ofList h]
  exact assemble_groups workingDirectory (some root) _ edges root.toString

theorem names_resultOf (h : Divides paths reading) (root : Path) (edges : List Edge) :
    (resultOf workingDirectory root reading edges).contexts.map ServiceContext.name
      = ((reading.files.map SourceFile.path).map
          (nameOf workingDirectory (some root))).eraseDups := by
  rw [contexts_resultOf h, List.map_map, ← map_fst_groups]
  exact List.map_congr_left fun group _ => name_buildContextBy _ _ _ _ _ _

/-- What is read below a root divides the discovered paths. -/
theorem divides_of_readFiles (htree : tree.IsWellFormed)
    (hroot : Discovery.IsRoot tree workingDirectory root)
    (hreading : (readFiles a.registry tree workingDirectory (Discovery.filesBelow tree
      workingDirectory root a.registry.extensions a.registry.excluded)).result = .ok reading) :
    Divides (Discovery.filesBelow tree workingDirectory root a.registry.extensions
      a.registry.excluded) reading := by
  obtain ⟨-, hfiles, hskipped⟩ := readFiles_eq_ok hreading
  exact divides_of_filter (Discovery.nodup_texts _ _ htree hroot) hfiles hskipped

/-- The edges between the files that were read are always found. -/
theorem edges_are_found (htree : tree.IsWellFormed)
    (hroot : Discovery.IsRoot tree workingDirectory root)
    (h : Divides (Discovery.filesBelow tree workingDirectory root a.registry.extensions
      a.registry.excluded) reading) (workers : Nat) :
    ∃ scan, (Extractor.ofTable (FileTable.ofList reading.files)).extractAll tree workingDirectory
      workers = .ok scan := by
  rw [h.ofList_eq]
  refine Extractor.extractAll_isOk tree workingDirectory h.nodup ?_ workers
  intro file hfile
  have hmem : file.path ∈ reading.files.map SourceFile.path := List.mem_map_of_mem hfile
  rw [h.read] at hmem
  obtain ⟨p, hp, hpath⟩ := List.mem_map.mp (List.mem_of_mem_filter hmem)
  have hdiscovered := Discovery.isDiscovered_of_mem htree hroot hp
  rw [← hpath, Path.ofString_toString (hdiscovered.isPlain htree)]
  exact hdiscovered.hasNul htree

/-- The analysis of a directory has a result just when no discovered file makes reading fail. -/
theorem analyzeDirectory_isOk_iff {path : String} (htree : tree.IsWellFormed)
    (hroot : Discovery.resolveRoot tree workingDirectory path = .ok root) :
    (∃ r, (a.analyzeDirectory tree workingDirectory path).result = .ok r) ↔
      ∀ p ∈ Discovery.filesBelow tree workingDirectory root a.registry.extensions
          a.registry.excluded,
        ∃ read, a.registry.readSource tree workingDirectory p = .ok read := by
  constructor
  · rintro ⟨r, hr⟩
    obtain ⟨root', reading, scan, hroot', hreading, -, -⟩ := analyzeDirectory_eq_ok_iff.mp hr
    obtain rfl := Except.ok.inj (hroot.symm.trans hroot')
    exact (readFiles_eq_ok hreading).1
  · intro hreads
    have hisRoot := Discovery.isRoot_of_resolveRoot hroot
    obtain ⟨reading, hreading⟩ := readFiles_isOk hreads
    obtain ⟨scan, hscan⟩ :=
      edges_are_found htree hisRoot (divides_of_readFiles htree hisRoot hreading) a.workers
    exact ⟨_, analyzeDirectory_eq_ok_iff.mpr ⟨root, reading, scan, hroot, hreading, hscan, rfl⟩⟩

/-- The contexts of an analysis are those of the services of the files that were read. -/
theorem names_of_readFiles {path : String} (htree : tree.IsWellFormed)
    (hroot : Discovery.resolveRoot tree workingDirectory path = .ok root)
    (hreading : (readFiles a.registry tree workingDirectory (Discovery.filesBelow tree
      workingDirectory root a.registry.extensions a.registry.excluded)).result = .ok reading) :
    ∃ r, (a.analyzeDirectory tree workingDirectory path).result = .ok r
      ∧ r.contexts.map ServiceContext.name = ((reading.files.map SourceFile.path).map
        (nameOf workingDirectory (some root))).eraseDups := by
  have hdivides := divides_of_readFiles htree (Discovery.isRoot_of_resolveRoot hroot) hreading
  obtain ⟨scan, hscan⟩ :=
    edges_are_found htree (Discovery.isRoot_of_resolveRoot hroot) hdivides a.workers
  exact ⟨_, analyzeDirectory_eq_ok_iff.mpr ⟨root, reading, scan, hroot, hreading, hscan, rfl⟩,
    names_resultOf hdivides root scan.1.edges⟩

end Analyzer

end ServiceMap
