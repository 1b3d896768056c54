import ServiceMap.Proofs.Link.Stage

/-!
# Scanning in any order

However the steps of several workers interleave, each file's scan comes to what the scan of the file
alone finds. What carries this through a run: the roots that the workers share are those of the
tree, every scan under way keeps its promise, and what lies among the results is right.
-/

namespace ServiceMap

open Source Link Extractor

namespace Link.Pool

variable {tree : Tree} {workingDirectory : Path} {table : FileTable} {workers : Nat}

/-! ## All scans -/

/-- What holds of a pool at every moment of a run: its scans are those of the table, the shared
roots are those of the tree, every scan keeps its promise, and those that wait are the last. -/
structure Sound (tree : Tree) (workingDirectory : Path) (table : FileTable) (p : Pool) : Prop where
  files : p.scans.map Prod.fst = table
  extractor : p.shared.extractor.IsFor tree workingDirectory table
  promises : ∀ scan ∈ p.scans, Promise tree workingDirectory table p.shared scan.1 scan.2
  inTurn : p.scans.Pairwise fun a b => a.2 = .waiting → b.2 = .waiting

theorem start_sound (table : FileTable) :
    (start (ofTable table)).Sound tree workingDirectory table where
  files := by
    show (table.map fun file => (file, Stage.waiting)).map Prod.fst = table
    rw [List.map_map]
    exact List.map_id'' (fun _ => rfl) table
  extractor := isFor_ofTable table
  promises := by
    intro scan hscan
    obtain ⟨file, _, rfl⟩ := List.mem_map.mp hscan
    exact trivial
  inTurn := List.pairwise_map.mpr (List.pairwise_of_forall fun _ _ _ => rfl)

/-- The pool with one of its scans put to another stage is sound again, if this scan keeps its
promise and the others are left what they rely on. -/
theorem Sound.set {shared shared' : Shared} {before after : List (SourceFile × Stage)}
    {file : SourceFile} {stage stage' : Stage} (hnodup : table.paths.Nodup)
    (h : Sound tree workingDirectory table ⟨shared, before ++ (file, stage) :: after⟩)
    (hstep : Stepped tree workingDirectory table file shared (stage', shared'))
    (hturn : ∀ scan ∈ before, scan.2 ≠ .waiting) (hstage' : stage' ≠ .waiting) :
    Sound tree workingDirectory table ⟨shared', before ++ (file, stage') :: after⟩ where
  files := by
    rw [← h.files, List.map_append, List.map_append]
    rfl
  extractor := hstep.extractor
  promises := by
    have hpaths : (before.map fun scan => scan.1.path) ++ file.path
        :: (after.map fun scan => scan.1.path) = table.paths := by
      rw [← h.files, FileTable.paths, List.map_map, List.map_append]
      rfl
    rw [← hpaths, List.nodup_append, List.nodup_cons] at hnodup
    obtain ⟨-, ⟨hafter, -⟩, hbefore⟩ := hnodup
    -- the other files have other paths, so that the step has left them what they rely on
    intro scan hscan
    rcases List.mem_append.mp hscan with hin | hin
    · have hne : scan.1.path ≠ file.path :=
        hbefore _ (List.mem_map_of_mem hin) _ List.mem_cons_self
      exact (h.promises scan (List.mem_append_left _ hin)).leaves hne hstep.leaves
    · rcases List.mem_cons.mp hin with rfl | hin
      · exact hstep.promise
      · have hne : scan.1.path ≠ file.path := by
          intro heq
          exact hafter (heq ▸ List.mem_map_of_mem hin)
        exact (h.promises scan (List.mem_append_right _ (List.mem_cons_of_mem _ hin))).leaves hne
          hstep.leaves
  inTurn := by
    have hturns := h.inTurn
    rw [List.pairwise_append, List.pairwise_cons] at hturns ⊢
    obtain ⟨hbefore, ⟨-, hafter⟩, -⟩ := hturns
    exact ⟨hbefore, ⟨fun _ _ hwaits => absurd hwaits hstage', hafter⟩,
      fun scan hscan _ _ hwaits => absurd hwaits (hturn scan hscan)⟩

theorem getElem?_between {α : Type} (before : List α) (a : α) (after : List α) :
    (before ++ a :: after)[before.length]? = some a := by
  rw [List.getElem?_append_right (Nat.le_refl _), Nat.sub_self]
  rfl

theorem exists_between {α : Type} {xs : List α} {position : Nat} {a : α}
    (h : xs[position]? = some a) :
    ∃ before after, xs = before ++ a :: after ∧ before.length = position := by
  obtain ⟨hlt, rfl⟩ := List.getElem?_eq_some_iff.mp h
  refine ⟨xs.take position, xs.drop (position + 1), ?_, List.length_take_of_le (Nat.le_of_lt hlt)⟩
  rw [List.getElem_cons_drop, List.take_append_drop]

theorem advance_between (shared : Shared) (before after : List (SourceFile × Stage))
    (file : SourceFile) (stage : Stage) :
    advance tree workingDirectory ⟨shared, before ++ (file, stage) :: after⟩ before.length
      = (do
        let (stage', shared') ← step tree workingDirectory file shared stage
        return ⟨shared', before ++ (file, stage') :: after⟩) := by
  rw [advance, getElem?_between]
  dsimp only
  congr 1
  funext ⟨stage', shared'⟩
  dsimp only
  rw [List.set_append_right _ _ (Nat.le_refl _), Nat.sub_self]
  rfl

/-- The scan that may make a step is not done, and no scan before it waits. -/
theorem turn_of_mayStep {shared : Shared} {before after : List (SourceFile × Stage)}
    {file : SourceFile} {stage : Stage}
    (h : Sound tree workingDirectory table ⟨shared, before ++ (file, stage) :: after⟩)
    (hmay : mayStep workers ⟨shared, before ++ (file, stage) :: after⟩ before.length = true) :
    stage ≠ .done ∧ ∀ scan ∈ before, scan.2 ≠ .waiting := by
  by_cases hwaits : stage = .waiting
  · subst hwaits
    rw [mayStep, getElem?_between] at hmay
    have hall := (Bool.and_eq_true_iff.mp hmay).1
    rw [List.take_left, List.all_eq_true] at hall
    exact ⟨Stage.noConfusion, fun scan hscan => bne_iff_ne.mp (hall scan hscan)⟩
  · constructor
    · rintro rfl
      rw [mayStep, getElem?_between] at hmay
      exact nomatch hmay
    · intro scan hscan hwaiting
      have hturns := (List.pairwise_append.mp h.inTurn).2.2
      exact hwaits (hturns scan hscan (file, stage) List.mem_cons_self hwaiting)

/-- A step of one scan that may make it takes a sound pool to a sound pool. -/
theorem step_between {shared : Shared} {before after : List (SourceFile × Stage)}
    {file : SourceFile} {stage : Stage} (hnodup : table.paths.Nodup)
    (h : Sound tree workingDirectory table ⟨shared, before ++ (file, stage) :: after⟩)
    (hstage : stage ≠ .done) (hturn : ∀ scan ∈ before, scan.2 ≠ .waiting) :
    Comes tree workingDirectory table
      (fun next => Sound tree workingDirectory table ⟨next.2, before ++ (file, next.1) :: after⟩
        ∧ stepsLeft tree workingDirectory file next.1
          < stepsLeft tree workingDirectory file stage)
      (step tree workingDirectory file shared stage) := by
  have hfile : file ∈ table := by
    rw [← h.files]
    exact List.mem_map_of_mem (List.mem_append_right _ List.mem_cons_self)
  have hpromise := h.promises (file, stage) (List.mem_append_right _ List.mem_cons_self)
  have hstep := step_promise hfile h.extractor hpromise
  cases hnext : step tree workingDirectory file shared stage with
  | error fault =>
      rw [hnext] at hstep
      exact hstep
  | ok next =>
      rw [hnext] at hstep
      obtain ⟨hwaiting, hfewer⟩ := step_progress hnext hstage
      exact ⟨h.set hnodup hstep hturn hwaiting, hfewer⟩

/-- **Every step keeps the pool sound.** -/
theorem advance_sound {p : Pool} (hnodup : table.paths.Nodup)
    (h : p.Sound tree workingDirectory table) {position : Nat}
    (hmay : p.mayStep workers position = true) :
    Comes tree workingDirectory table (Sound tree workingDirectory table)
      (p.advance tree workingDirectory position) := by
  obtain ⟨shared, scans⟩ := p
  cases hscan : scans[position]? with
  | none =>
      rw [advance]
      dsimp only
      rw [hscan]
      exact h
  | some scan =>
      obtain ⟨before, after, rfl, rfl⟩ := exists_between hscan
      obtain ⟨file, stage⟩ := scan
      obtain ⟨hstage, hturn⟩ := turn_of_mayStep h hmay
      rw [advance_between]
      exact (step_between hnodup h hstage hturn).bind fun _ hnext => hnext.1

/-- **Every run keeps the pool sound**, whatever the schedule. -/
theorem run_sound (hnodup : table.paths.Nodup) (schedule : List Nat) :
    ∀ {p : Pool}, p.Sound tree workingDirectory table →
      Comes tree workingDirectory table (Sound tree workingDirectory table)
        (p.run workers tree workingDirectory schedule) := by
  induction schedule with
  | nil =>
      intro p h
      exact h
  | cons position schedule ih =>
      intro p h
      unfold run
      split
      · rename_i hmay
        exact (advance_sound hnodup h hmay).bind fun _ => ih
      · exact ih h

/-! ## A run that is brought to its end -/

theorem run_append (first second : List Nat) :
    ∀ p : Pool, p.run workers tree workingDirectory (first ++ second)
      = (p.run workers tree workingDirectory first).bind
          (run workers tree workingDirectory second) := by
  induction first with
  | nil =>
      intro p
      rfl
  | cons position first ih =>
      intro p
      rw [List.cons_append, run, run]
      split
      · cases hnext : p.advance tree workingDirectory position with
        | error fault => rfl
        | ok next => exact ih next
      · exact ih p

/-- Once all before it are done, a scan that is not may make a step: those after it wait, so that a
worker is free. -/
theorem mayStep_of_done {shared : Shared} {before after : List (SourceFile × Stage)}
    {file : SourceFile} {stage : Stage} (hworkers : 0 < workers)
    (h : Sound tree workingDirectory table ⟨shared, before ++ (file, stage) :: after⟩)
    (hbefore : ∀ scan ∈ before, scan.2 = .done) (hstage : stage ≠ .done) :
    mayStep workers ⟨shared, before ++ (file, stage) :: after⟩ before.length = true := by
  rw [mayStep, getElem?_between]
  cases stage with
  | waiting =>
      have hall : before.all (fun scan => scan.2 != .waiting) = true := by
        rw [List.all_eq_true]
        intro scan hscan
        rw [hbefore scan hscan]
        rfl
      -- those before are done, those after wait because this one does: nobody is busy
      have hturns := (List.pairwise_cons.mp (List.pairwise_append.mp h.inTurn).2.1).1
      have hidle : (before ++ (file, Stage.waiting) :: after).filter
          (fun scan => scan.2.isUnderWay) = [] := by
        rw [List.filter_eq_nil_iff]
        intro scan hscan
        rcases List.mem_append.mp hscan with hin | hin
        · rw [hbefore scan hin]
          exact Bool.false_ne_true
        · rcases List.mem_cons.mp hin with rfl | hin
          · exact Bool.false_ne_true
          · rw [hturns scan hin rfl]
            exact Bool.false_ne_true
      dsimp only
      rw [List.take_left, hall, hidle]
      exact decide_eq_true hworkers
  | done => exact absurd rfl hstage
  | asking | searching | taking | storing => rfl

/-- As many steps as are left bring a scan to its end, once all before it are done. -/
theorem run_to_done {before after : List (SourceFile × Stage)} {file : SourceFile}
    (hnodup : table.paths.Nodup) (hworkers : 0 < workers)
    (hbefore : ∀ scan ∈ before, scan.2 = .done) (n : Nat) :
    ∀ {shared : Shared} {stage : Stage},
      Sound tree workingDirectory table ⟨shared, before ++ (file, stage) :: after⟩ →
        stepsLeft tree workingDirectory file stage ≤ n →
          Comes tree workingDirectory table
            (fun p => ∃ shared', p = ⟨shared', before ++ (file, .done) :: after⟩
              ∧ Sound tree workingDirectory table p)
            (run workers tree workingDirectory (List.replicate n before.length)
              ⟨shared, before ++ (file, stage) :: after⟩) := by
  induction n with
  | zero =>
      intro shared stage h hleft
      obtain rfl := stepsLeft_eq_zero (Nat.le_zero.mp hleft)
      exact ⟨shared, rfl, h⟩
  | succ n ih =>
      intro shared stage h hleft
      rw [List.replicate_succ, run]
      by_cases hstage : stage = .done
      · -- the scan is done already, and the step is passed over
        subst hstage
        rw [mayStep, getElem?_between]
        exact ih h (Nat.zero_le n)
      · rw [if_pos (mayStep_of_done hworkers h hbefore hstage), advance_between]
        have hturn : ∀ scan ∈ before, scan.2 ≠ .waiting := by
          intro scan hscan
          rw [hbefore scan hscan]
          exact Stage.noConfusion
        refine Comes.bind ((step_between hnodup h hstage hturn).bind
          (fun next hnext => ?_ : ∀ next, _ → Comes _ _ _ (fun q => ∃ shared' stage',
            q = ⟨shared', before ++ (file, stage') :: after⟩
              ∧ Sound tree workingDirectory table q
              ∧ stepsLeft tree workingDirectory file stage' ≤ n) _)) ?_
        · exact ⟨next.2, next.1, rfl, hnext.1, Nat.le_of_lt_succ (Nat.lt_of_lt_of_le hnext.2 hleft)⟩
        · rintro q ⟨shared', stage', rfl, hq, hfewer⟩
          exact ih hq hfewer

/-- The scans from a position on are brought to their ends one after the other. -/
theorem run_finishing (hnodup : table.paths.Nodup) (hworkers : 0 < workers)
    (after : List (SourceFile × Stage)) :
    ∀ {before : List (SourceFile × Stage)} {shared : Shared},
      (∀ scan ∈ before, scan.2 = .done) →
        Sound tree workingDirectory table ⟨shared, before ++ after⟩ →
          Comes tree workingDirectory table
            (fun p => Sound tree workingDirectory table p ∧ ∀ scan ∈ p.scans, scan.2 = .done)
            (run workers tree workingDirectory
              ((after.zipIdx before.length).flatMap fun ((file, stage), position) =>
                List.replicate (stepsLeft tree workingDirectory file stage) position)
              ⟨shared, before ++ after⟩) := by
  induction after with
  | nil =>
      intro before shared hbefore h
      rw [List.append_nil] at h ⊢
      exact ⟨h, hbefore⟩
  | cons scan after ih =>
      intro before shared hbefore h
      obtain ⟨file, stage⟩ := scan
      rw [List.zipIdx_cons, List.flatMap_cons, run_append]
      refine Comes.bind (run_to_done hnodup hworkers hbefore _ h (Nat.le_refl _)) ?_
      rintro p ⟨shared', rfl, hp⟩
      have hdone : ∀ scan ∈ before ++ [(file, Stage.done)], scan.2 = .done := by
        intro scan hscan
        rcases List.mem_append.mp hscan with hin | hin
        · exact hbefore scan hin
        · rw [List.mem_singleton.mp hin]
      have hrest := @ih (before ++ [(file, Stage.done)]) shared' hdone
      rw [List.append_assoc, List.singleton_append, List.length_append] at hrest
      exact hrest hp

/-- The results of files that are done are what the scans of these files alone find. -/
theorem mapM_scanAlone {results : List (String × Scan)} {files : List SourceFile}
    (h : ∀ file ∈ files, ∃ scan, results.lookup file.path = some scan
      ∧ scanAlone tree workingDirectory table file = .ok scan) :
    files.mapM (scanAlone tree workingDirectory table)
      = .ok (files.map fun file => (results.lookup file.path).getD {}) := by
  induction files with
  | nil => rfl
  | cons file files ih =>
      obtain ⟨scan, hscan, halone⟩ := h file List.mem_cons_self
      rw [List.mapM_cons, halone, ih fun other hother => h other (List.mem_cons_of_mem _ hother),
        List.map_cons, hscan]
      rfl

theorem collect_of_done {p : Pool} (h : p.Sound tree workingDirectory table)
    (hdone : ∀ scan ∈ p.scans, scan.2 = .done) :
    .ok p.collect = (table.mapM (scanAlone tree workingDirectory table)).map Scan.concat := by
  have hfiles : ∀ file ∈ table, ∃ scan, p.shared.results.lookup file.path = some scan
      ∧ scanAlone tree workingDirectory table file = .ok scan := by
    intro file hfile
    rw [← h.files] at hfile
    obtain ⟨scan, hscan, rfl⟩ := List.mem_map.mp hfile
    have hpromise := h.promises scan hscan
    rw [hdone scan hscan] at hpromise
    exact hpromise
  rw [mapM_scanAlone hfiles, collect]
  show _ = Except.ok (Scan.concat _)
  conv => rhs; rw [← h.files, List.map_map]
  rfl

/-- The pool comes to what the scans of the files alone find, whatever the schedule. -/
theorem extractBySchedule_eq (hnodup : table.paths.Nodup) (hworkers : 0 < workers)
    (schedule : List Nat) :
    ((ofTable table).extractBySchedule tree workingDirectory workers schedule).map Prod.fst
      = (table.mapM (scanAlone tree workingDirectory table)).map Scan.concat := by
  have hrun : Comes tree workingDirectory table
      (fun found => .ok found.1
        = (table.mapM (scanAlone tree workingDirectory table)).map Scan.concat)
      ((ofTable table).extractBySchedule tree workingDirectory workers schedule) := by
    refine (run_sound hnodup schedule (start_sound table)).bind fun p hp => ?_
    have hfinish := @run_finishing tree workingDirectory table workers hnodup hworkers p.scans []
      p.shared (fun _ hscan => absurd hscan List.not_mem_nil) hp
    refine Comes.bind hfinish ?_
    rintro q ⟨hq, hdone⟩
    exact collect_of_done hq hdone
  cases hfound : (ofTable table).extractBySchedule tree workingDirectory workers schedule with
  | ok found =>
      rw [hfound] at hrun
      exact hrun
  | error fault =>
      rw [hfound] at hrun
      obtain ⟨file, hfile, halone⟩ := hrun
      -- the pool may fail at another file than a scan in order does, but for the same cause
      have hone : ∀ other ∈ table, ∀ fault',
          scanAlone tree workingDirectory table other = .error fault' → fault' = fault := by
        intro other _ fault' hother
        rw [scanAlone_eq_error hother, scanAlone_eq_error halone]
      rw [mapM_eq_error hone hfile halone]
      rfl

end Link.Pool

namespace Extractor

open Link.Pool

variable {tree : Tree} {workingDirectory : Path} {table : FileTable}

theorem extractAllBy_eq (tree : Tree) (workingDirectory : Path) (hnodup : table.paths.Nodup)
    (workers : Nat) (schedule : List Nat) :
    ((ofTable table).extractAllBy schedule tree workingDirectory workers).map Prod.fst
      = (table.mapM (scanAlone tree workingDirectory table)).map Scan.concat := by
  unfold extractAllBy
  split
  · exact scanFiles_isFor table (isFor_ofTable table)
  · rename_i hmany
    rw [Bool.or_eq_true, decide_eq_true_eq, not_or, Nat.not_le] at hmany
    exact extractBySchedule_eq hnodup (Nat.lt_of_succ_lt hmany.1) schedule

/-- The files of a table are scanned to the end if their paths are paths. -/
theorem extractAll_isOk (tree : Tree) (workingDirectory : Path) (hnodup : table.paths.Nodup)
    (hpaths : ∀ file ∈ table, (Path.ofString file.path).hasNul = false) (workers : Nat) :
    ∃ scan, (ofTable table).extractAll tree workingDirectory workers = .ok scan := by
  have halone : ∀ file ∈ table, ∃ scan, scanAlone tree workingDirectory table file = .ok scan :=
    fun file hfile => scanAlone_isOk (hpaths file hfile)
  obtain ⟨scans, hscans⟩ := mapM_isOk halone
  have hall := extractAllBy_eq tree workingDirectory hnodup workers (ofTable table).turns
  rw [hscans] at hall
  rw [extractAll]
  cases hfound : (ofTable table).extractAllBy (ofTable table).turns tree workingDirectory
      workers with
  | error fault =>
      rw [hfound] at hall
      exact nomatch hall
  | ok scan => exact ⟨scan, rfl⟩

theorem scanFile_ofTable (file : SourceFile) :
    ((ofTable table).scanFile tree workingDirectory file.path file.language).map Prod.fst
      = scanAlone tree workingDirectory table file := by
  rcases scanFile_isFor (isFor_ofTable table) file with ⟨scan, y, hy, halone, -⟩ | ⟨hx, halone⟩
  · rw [hy, halone]
    rfl
  · rw [hx, halone]
    rfl

/-- The edges that are found, by what the scans of the files alone find. -/
theorem map_edges {found : Except Fault (Scan × Extractor)}
    (h : found.map Prod.fst
      = (table.mapM (scanAlone tree workingDirectory table)).map Scan.concat) :
    found.map (·.1.edges)
      = ((table.mapM (scanAlone tree workingDirectory table)).map (List.map Scan.edges)).map
          List.flatten := by
  have hedges : found.map (·.1.edges) = (found.map Prod.fst).map Scan.edges := by
    cases found with
    | error fault => rfl
    | ok scan => rfl
  rw [hedges, h]
  cases table.mapM (scanAlone tree workingDirectory table) with
  | error fault => rfl
  | ok scans => exact congrArg Except.ok (Scan.edges_concat scans)

/-- **Scanning in any order.** Several workers find the same list of edges as one worker does,
whatever the order in which the steps of their scans are made. It is made of the edges that the scan
of each file finds with a new extractor for the same table, in the order of the table. -/
theorem every_schedule_finds_the_same_edges (tree : Tree) (workingDirectory : Path)
    {table : FileTable} (hnodup : table.paths.Nodup) (workers : Nat) (schedule : List Nat) :
    ((ofTable table).extractAllBy schedule tree workingDirectory workers).map (·.1.edges)
        = ((ofTable table).extractAll tree workingDirectory 1).map (·.1.edges)
      ∧ ((ofTable table).extractAll tree workingDirectory 1).map (·.1.edges)
        = (table.mapM fun file =>
            ((ofTable table).scanFile tree workingDirectory file.path file.language).map
              (·.1.edges)).map List.flatten := by
  have hone := map_edges (extractAllBy_eq tree workingDirectory hnodup 1 (ofTable table).turns)
  have hany := map_edges (extractAllBy_eq tree workingDirectory hnodup workers schedule)
  have halone : (fun file : SourceFile =>
      ((ofTable table).scanFile tree workingDirectory file.path file.language).map (·.1.edges))
        = fun file => (scanAlone tree workingDirectory table file).map Scan.edges := by
    funext file
    rw [← scanFile_ofTable]
    cases (ofTable table).scanFile tree workingDirectory file.path file.language with
    | error fault => rfl
    | ok scan => rfl
  refine ⟨hany.trans hone.symm, hone.trans ?_⟩
  rw [halone, mapM_map]

/-- Two Java files that import each other. -/
def twoFiles : FileTable :=
  [{ path := "/A.java", language := .java }, { path := "/B.java", language := .java }]

/-- A project of these two files. -/
def treeOfTwo : Tree :=
  .dir [("pom.xml", .file "".toUTF8 ⟨0⟩), ("A.java", .file "import B;".toUTF8 ⟨0⟩),
    ("B.java", .file "import A;".toUTF8 ⟨0⟩)]

/-- The second scan finds the root that the first one shares, or the other way round. -/
theorem two_files_under_a_schedule :
    twoFiles.paths.Nodup
      ∧ (((ofTable twoFiles).extractAllBy [0, 1, 0, 1, 1, 0, 1, 1] treeOfTwo ⟨1, []⟩ 2).map
          (·.1.edges)).toOption
        = some [⟨"/A.java", "/B.java", .imports, "B"⟩, ⟨"/B.java", "/A.java", .imports, "A"⟩] := by
  have hnodup : twoFiles.paths.Nodup := by decide
  refine ⟨hnodup, ?_⟩
  rw [(every_schedule_finds_the_same_edges treeOfTwo ⟨1, []⟩ hnodup 2 [0, 1, 0, 1, 1, 0, 1, 1]).1]
  decide +kernel

end Extractor

end ServiceMap
