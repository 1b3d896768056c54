import ServiceMap.Link.Pool
import ServiceMap.Proofs.Link.Scan

/-!
# One scan of a pool

At each stage of the scan of a file there is something that holds of it as long as the roots that
the workers share are those of the tree: it is on its way to what the scan of the file alone finds.
A step of the scan keeps this promise, leaves the other scans what they rely on, and brings the scan
nearer to its end.
-/

namespace ServiceMap

open Source Link Extractor

namespace Link.Pool

variable {tree : Tree} {workingDirectory : Path} {table : FileTable}

/-! ## What the scan of a file is on its way to -/

/-- What comes of a scan with these imports still to be resolved, in the tree as it is. -/
def ending (tree : Tree) (workingDirectory : Path) (table : FileTable) (file : SourceFile)
    (specs : List (List Char)) (work : Work) : Except Fault Scan :=
  let root := Project.root? tree workingDirectory (Path.ofString file.path)
  let imports := specs.map
    (importScan tree workingDirectory root file.language file.path)
  (symbolUses file.language work.masked).map fun uses =>
    work.found ++ Scan.concat imports
      ++ ⟨uses.filterMap ((ofTable table).symbolEdge? file.path), []⟩

/-- A scan that was begun, with these imports still to be resolved, ends as the scan of the file
alone does. -/
structure Resolves (tree : Tree) (workingDirectory : Path) (table : FileTable) (file : SourceFile)
    (specs : List (List Char)) (work : Work) : Prop where
  readable : (Path.ofString file.path).hasNul = false
  ending : ending tree workingDirectory table file specs work
    = scanAlone tree workingDirectory table file

/-- What holds of a scan at each stage, given what the workers share. -/
def Promise (tree : Tree) (workingDirectory : Path) (table : FileTable) (shared : Shared)
    (file : SourceFile) : Stage → Prop
  | .waiting => True
  | .asking work => Resolves tree workingDirectory table file work.specs work
  | .searching spec work => Resolves tree workingDirectory table file (spec :: work.specs) work
  | .taking spec work => Resolves tree workingDirectory table file (spec :: work.specs) work
      ∧ (shared.extractor.roots.lookup (Path.ofString file.path).parent).isSome
  | .storing scan => scanAlone tree workingDirectory table file = .ok scan
  | .done => ∃ scan, shared.results.lookup file.path = some scan
      ∧ scanAlone tree workingDirectory table file = .ok scan

/-- The step of a scan fails only as the scan of the file alone does. -/
theorem begin_promise (tree : Tree) (workingDirectory : Path) (table : FileTable)
    (file : SourceFile) (shared : Shared) :
    match begin tree workingDirectory file with
    | .ok stage => Promise tree workingDirectory table shared file stage
    | .error fault => scanAlone tree workingDirectory table file = .error fault := by
  cases hread : tree.read workingDirectory (Path.ofString file.path) with
  | ok read =>
      rw [begin, hread]
      -- all imports are still to be resolved, and nothing is found yet
      refine ⟨hasNul_of_read hread, ?_⟩
      rw [scanAlone, hread]
      show ending _ _ _ _ _ _ = edgesWith _ _ _ _ _ _ _
      rw [ending, edgesWith]
      cases symbolUses file.language (maskComments file.language.rawQuote read.text) with
      | error fault => rfl
      | ok uses => rfl
  | error fault =>
      rw [begin, hread]
      cases fault with
      | nulInPath =>
          show scanAlone _ _ _ _ = _
          rw [scanAlone, hread]
      | missing | tooLong | directory | notUtf8 =>
          show scanAlone _ _ _ _ = .ok _
          rw [scanAlone, hread]

/-- After one more import is resolved the scan still comes to the same. -/
theorem Resolves.resolved {file : SourceFile} {spec : List Char} {work : Work}
    (h : Resolves tree workingDirectory table file (spec :: work.specs) work)
    {root : Option Path} (hroot : needsProject file.language = true →
      root = Project.root? tree workingDirectory (Path.ofString file.path)) :
    Resolves tree workingDirectory table file work.specs
      (Pool.resolved tree workingDirectory root file spec work) where
  readable := h.readable
  ending := by
    have hscan : importScan tree workingDirectory root file.language file.path
        = importScan tree workingDirectory
          (Project.root? tree workingDirectory (Path.ofString file.path)) file.language
          file.path := by
      by_cases hproject : needsProject file.language = true
      · rw [hroot hproject]
      · exact importScan_root (Bool.eq_false_iff.mpr hproject) _ _ _
    rw [← h.ending, Pool.ending, Pool.ending, Pool.resolved, hscan]
    simp only [List.map_cons, Scan.concat_cons, Scan.append_assoc]

/-! ## One step -/

/-- What holds of a computation that fails, if it does, only as the scan of a file of the table
alone does. -/
def Comes {α : Type} (tree : Tree) (workingDirectory : Path) (table : FileTable)
    (holds : α → Prop) : Except Fault α → Prop
  | .ok a => holds a
  | .error fault => ∃ file ∈ table, scanAlone tree workingDirectory table file = .error fault

theorem Comes.bind {α β : Type} {holds : α → Prop} {holds' : β → Prop} {x : Except Fault α}
    {f : α → Except Fault β} (hx : Comes tree workingDirectory table holds x)
    (hf : ∀ a, holds a → Comes tree workingDirectory table holds' (f a)) :
    Comes tree workingDirectory table holds' (x >>= f) := by
  cases x with
  | error fault => exact hx
  | ok a => exact hf a hx

/-- What a step of the scan of a file leaves to the other scans: the shared roots stay, and so do
the results of other files. -/
structure Leaves (file : String) (a b : Shared) : Prop where
  roots : ∀ directory, (a.extractor.roots.lookup directory).isSome →
    (b.extractor.roots.lookup directory).isSome
  results : ∀ path, path ≠ file → b.results.lookup path = a.results.lookup path

theorem Leaves.refl (file : String) (shared : Shared) : Leaves file shared shared :=
  ⟨fun _ h => h, fun _ _ => rfl⟩

theorem Promise.leaves {file other : SourceFile} {a b : Shared} {stage : Stage}
    (h : Promise tree workingDirectory table a other stage) (hne : other.path ≠ file.path)
    (hab : Leaves file.path a b) : Promise tree workingDirectory table b other stage := by
  cases stage with
  | waiting | asking | searching | storing => exact h
  | taking spec work => exact ⟨h.1, hab.roots _ h.2⟩
  | done =>
      obtain ⟨scan, hscan, halone⟩ := h
      exact ⟨scan, (hab.results _ hne).trans hscan, halone⟩

/-- What holds after a step of the scan of a file. -/
structure Stepped (tree : Tree) (workingDirectory : Path) (table : FileTable) (file : SourceFile)
    (before : Shared) (after : Stage × Shared) : Prop where
  promise : Promise tree workingDirectory table after.2 file after.1
  extractor : after.2.extractor.IsFor tree workingDirectory table
  leaves : Leaves file.path before after.2

theorem ask_promise {file : SourceFile} {shared : Shared} {work : Work}
    (hx : shared.extractor.IsFor tree workingDirectory table)
    (h : Resolves tree workingDirectory table file work.specs work) :
    ∃ stage, ask tree workingDirectory shared file work = .ok stage
      ∧ Promise tree workingDirectory table shared file stage := by
  rw [ask]
  cases hspecs : work.specs with
  | nil =>
      obtain ⟨uses, huses⟩ := symbolUses_isOk file.language work.masked
      have hsymbols : shared.extractor.symbolEdge? file.path
          = (ofTable table).symbolEdge? file.path := by
        funext use
        rw [symbolEdge?, symbolEdge?, hx.symbols]
        rfl
      refine ⟨_, by rw [huses]; rfl, ?_⟩
      show scanAlone _ _ _ _ = .ok _
      rw [← h.ending, ending, hspecs, huses, hsymbols, List.map_nil]
      show Except.ok (work.found ++ ({} : Scan) ++ _) = _
      rw [Scan.append_nil]
  | cons spec rest =>
      rw [hspecs] at h
      have hrest : Resolves tree workingDirectory table file (spec :: rest)
          { work with specs := rest } := ⟨h.readable, h.ending⟩
      dsimp only
      by_cases hproject : needsProject file.language = true
      · rw [if_pos hproject]
        cases hroot : shared.extractor.roots.lookup (Path.ofString file.path).parent with
        | none => exact ⟨_, rfl, hrest⟩
        | some root => exact ⟨_, rfl, hrest, by rw [hroot]; rfl⟩
      · rw [if_neg hproject]
        refine ⟨_, rfl, ?_⟩
        exact @Resolves.resolved tree workingDirectory table file spec { work with specs := rest }
          hrest none fun hneeds => absurd hneeds hproject

/-- **One step.** A step of the scan of a file keeps what is promised of it, keeps the shared roots
right, and leaves the other scans what they rely on. -/
theorem step_promise {file : SourceFile} (hfile : file ∈ table) {shared : Shared} {stage : Stage}
    (hx : shared.extractor.IsFor tree workingDirectory table)
    (h : Promise tree workingDirectory table shared file stage) :
    Comes tree workingDirectory table (Stepped tree workingDirectory table file shared)
      (step tree workingDirectory file shared stage) := by
  cases stage with
  | waiting =>
      have hbegin := begin_promise tree workingDirectory table file shared
      rw [step]
      cases hstage : begin tree workingDirectory file with
      | error fault =>
          rw [hstage] at hbegin
          exact ⟨file, hfile, hbegin⟩
      | ok stage =>
          rw [hstage] at hbegin
          exact ⟨hbegin, hx, Leaves.refl _ _⟩
  | asking work =>
      obtain ⟨stage, hstage, hpromise⟩ := ask_promise hx h
      rw [step, hstage]
      exact ⟨hpromise, hx, Leaves.refl _ _⟩
  | searching spec work =>
      -- the root is put where it will be taken from, and hides no other
      rw [step, findRoot_of_hasNul h.readable]
      refine ⟨⟨h, ?_⟩, hx.remember _, ?_, fun _ _ => rfl⟩
      · rw [List.lookup_cons_self]
        rfl
      · intro directory hdirectory
        rw [List.lookup_cons]
        split
        · rfl
        · exact hdirectory
  | taking spec work =>
      obtain ⟨hwork, hroot⟩ := h
      obtain ⟨root, hroot⟩ := Option.isSome_iff_exists.mp hroot
      refine ⟨hwork.resolved fun _ => ?_, hx, Leaves.refl _ _⟩
      rw [hroot]
      exact hx.roots _ root hroot
  | storing scan =>
      -- the result of this file is put before those of the others
      refine ⟨⟨scan, List.lookup_cons_self, h⟩, hx, fun _ hroot => hroot, ?_⟩
      intro path hpath
      show List.lookup path ((file.path, scan) :: shared.results) = _
      rw [List.lookup_cons, beq_eq_false_iff_ne.mpr hpath]
  | done => exact ⟨h, hx, Leaves.refl _ _⟩

/-! ## Steps lead to the end -/

theorem begin_cases {file : SourceFile} {stage : Stage}
    (h : begin tree workingDirectory file = .ok stage) :
    (∃ work, stage = .asking work) ∨ ∃ scan, stage = .storing scan := by
  unfold begin at h
  split at h
  · exact nomatch h
  · exact Or.inr ⟨_, (Except.ok.inj h).symm⟩
  · exact Or.inl ⟨_, (Except.ok.inj h).symm⟩

theorem ask_cases {file : SourceFile} {shared : Shared} {work : Work} {stage : Stage}
    (h : ask tree workingDirectory shared file work = .ok stage) :
    (∃ scan, stage = .storing scan) ∨ ∃ spec work', work'.specs.length < work.specs.length
      ∧ (stage = .taking spec work' ∨ stage = .searching spec work' ∨ stage = .asking work') := by
  rw [ask] at h
  cases hspecs : work.specs with
  | nil =>
      obtain ⟨uses, huses⟩ := symbolUses_isOk file.language work.masked
      rw [hspecs, huses] at h
      exact Or.inl ⟨_, (Except.ok.inj h).symm⟩
  | cons spec rest =>
      rw [hspecs] at h
      dsimp only at h
      right
      split at h
      · split at h
        · exact ⟨spec, _, Nat.lt_succ_self _, Or.inl (Except.ok.inj h).symm⟩
        · exact ⟨spec, _, Nat.lt_succ_self _, Or.inr (Or.inl (Except.ok.inj h).symm)⟩
      · exact ⟨spec, _, Nat.lt_succ_self _, Or.inr (Or.inr (Except.ok.inj h).symm)⟩

/-- **Progress.** A step of a scan that is not done brings it nearer to its end, and never back to
waiting. -/
theorem step_progress {file : SourceFile} {shared shared' : Shared} {stage stage' : Stage}
    (h : step tree workingDirectory file shared stage = .ok (stage', shared'))
    (hstage : stage ≠ .done) :
    stage' ≠ .waiting
      ∧ stepsLeft tree workingDirectory file stage'
        < stepsLeft tree workingDirectory file stage := by
  cases stage with
  | waiting =>
      rw [step] at h
      obtain ⟨begun, hbegin, hstep⟩ := except_map_eq_ok h
      obtain ⟨rfl, -⟩ := Prod.mk.inj hstep
      rcases begin_cases hbegin with ⟨work, rfl⟩ | ⟨scan, rfl⟩
      all_goals
        refine ⟨Stage.noConfusion, ?_⟩
        rw [stepsLeft, stepsLeft, hbegin]
        exact Nat.lt_succ_self _
  | asking work =>
      rw [step] at h
      obtain ⟨asked, hask, hstep⟩ := except_map_eq_ok h
      obtain ⟨rfl, -⟩ := Prod.mk.inj hstep
      rcases ask_cases hask with ⟨scan, rfl⟩ | ⟨spec, work', hfewer, rfl | rfl | rfl⟩
      all_goals
        refine ⟨Stage.noConfusion, ?_⟩
        simp only [stepsLeft]
        omega
  | searching spec work =>
      rw [step] at h
      obtain ⟨root, -, hstep⟩ := except_bind_eq_ok h
      obtain ⟨rfl, -⟩ := Prod.mk.inj (Except.ok.inj hstep)
      exact ⟨Stage.noConfusion, Nat.lt_succ_self _⟩
  | taking spec work =>
      obtain ⟨rfl, -⟩ := Prod.mk.inj (Except.ok.inj h)
      exact ⟨Stage.noConfusion, Nat.lt_succ_self _⟩
  | storing scan =>
      obtain ⟨rfl, -⟩ := Prod.mk.inj (Except.ok.inj h)
      exact ⟨Stage.noConfusion, Nat.lt_succ_self _⟩
  | done => exact absurd rfl hstage

theorem stepsLeft_eq_zero {file : SourceFile} {stage : Stage}
    (h : stepsLeft tree workingDirectory file stage = 0) : stage = .done := by
  cases stage with
  | done => rfl
  | waiting =>
      rw [stepsLeft] at h
      split at h
      · exact nomatch h
      · exact nomatch h
  | asking | searching | taking | storing => exact nomatch h

end Link.Pool

end ServiceMap
