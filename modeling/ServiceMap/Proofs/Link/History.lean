import ServiceMap.Proofs.Link.Scan
import ServiceMap.Proofs.Tree.NearestRoot

/-!
# Questions one after another

An extractor is asked for roots of projects, for the files that imports stand for and for the edges of
texts. Each question adds at most one root to what it remembers, and this is the one that the tree
has; so after any questions it gives the root that a fresh look at the tree gives: the nearest directory
above the file that holds a marker.
-/

namespace ServiceMap

open Source Link

namespace Extractor

variable {tree : Tree} {workingDirectory source : Path} {x y : Extractor} {α : Type}

/-! ## Questions -/

/-- A question to an extractor. -/
inductive Question where
  /-- The root of the project of a file. -/
  | root (source : Path)
  /-- The file that an import of a file stands for. -/
  | imported (language : Language) (source : Path) (spec : List Char)
  /-- The edges of a file with a text, in a language that may be unknown. -/
  | edges (file : String) (text : List Char) (language : Option Language)

/-- The extractor that an answer leaves; a question without an answer leaves it as it was. -/
def leftBy (x : Extractor) : Except Fault (α × Extractor) → Extractor
  | .ok (_, y) => y
  | .error _ => x

/-- The extractor after a question. -/
def ask (x : Extractor) (tree : Tree) (workingDirectory : Path) : Question → Extractor
  | .root source => x.leftBy (x.projectRoot tree workingDirectory source)
  | .imported language source spec =>
    x.leftBy (x.importedFile tree workingDirectory language source spec)
  | .edges file text language => x.leftBy (x.extractIn tree workingDirectory file text language)

/-- The extractor after several questions. -/
def askAll (x : Extractor) (tree : Tree) (workingDirectory : Path) (questions : List Question) :
    Extractor :=
  questions.foldl (fun x question => x.ask tree workingDirectory question) x

/-! ## What a question adds -/

/-- The extractor with the root that the tree has for a file. -/
def remember (x : Extractor) (tree : Tree) (workingDirectory source : Path) : Extractor :=
  { x with roots := (source.parent, Project.root? tree workingDirectory source) :: x.roots }

/-- The extractor is the same, or remembers the root of one more project. -/
inductive LearnsFrom (tree : Tree) (workingDirectory : Path) (x : Extractor) : Extractor → Prop where
  | nothing : LearnsFrom tree workingDirectory x x
  | root (source : Path) (isPath : source.parent.hasNul = false) :
      LearnsFrom tree workingDirectory x (x.remember tree workingDirectory source)

theorem learnsFrom_projectRoot {root : Option Path}
    (h : x.projectRoot tree workingDirectory source = .ok (root, y)) :
    LearnsFrom tree workingDirectory x y := by
  unfold projectRoot at h
  split at h
  · obtain ⟨-, rfl⟩ := Prod.mk.inj (Except.ok.inj h)
    exact .nothing
  · obtain ⟨found, hfound, heq⟩ := except_map_eq_ok h
    obtain ⟨-, rfl⟩ := Prod.mk.inj heq
    unfold Project.findRoot at hfound
    split at hfound
    · exact nomatch hfound
    · rename_i hnul
      obtain rfl := Except.ok.inj hfound
      exact .root source (Bool.eq_false_iff.mpr hnul)

theorem learnsFrom_leftBy {answer : Except Fault (α × Extractor)}
    (h : ∀ a y, answer = .ok (a, y) → LearnsFrom tree workingDirectory x y) :
    LearnsFrom tree workingDirectory x (x.leftBy answer) := by
  cases answer with
  | error fault => exact .nothing
  | ok found => exact h found.1 found.2 rfl

/-- **A question adds at most one root**, and this is the one that the tree has. -/
theorem learnsFrom_ask (tree : Tree) (workingDirectory : Path) (x : Extractor)
    (question : Question) :
    LearnsFrom tree workingDirectory x (x.ask tree workingDirectory question) := by
  cases question with
  | root source =>
      apply learnsFrom_leftBy
      intro root y h
      exact learnsFrom_projectRoot h
  | imported language source spec =>
      apply learnsFrom_leftBy
      intro found y h
      unfold importedFile at h
      split at h
      · obtain ⟨⟨root, z⟩, hroot, heq⟩ := except_bind_eq_ok h
        obtain ⟨-, rfl⟩ := Prod.mk.inj (Except.ok.inj heq)
        exact learnsFrom_projectRoot hroot
      · obtain ⟨-, rfl⟩ := Prod.mk.inj (Except.ok.inj h)
        exact .nothing
  | edges file text language =>
      apply learnsFrom_leftBy
      intro scan y h
      cases language with
      | none =>
          obtain ⟨-, rfl⟩ := Prod.mk.inj (Except.ok.inj h)
          exact .nothing
      | some language =>
          rw [extractIn] at h
          unfold extract at h
          split at h
          · obtain ⟨⟨root, z⟩, hroot, h⟩ := except_bind_eq_ok h
            obtain ⟨found, -, heq⟩ := except_bind_eq_ok h
            obtain ⟨-, rfl⟩ := Prod.mk.inj (Except.ok.inj heq)
            exact learnsFrom_projectRoot hroot
          · rw [except_ok_bind] at h
            obtain ⟨found, -, heq⟩ := except_bind_eq_ok h
            obtain ⟨-, rfl⟩ := Prod.mk.inj (Except.ok.inj heq)
            exact .nothing

theorem LearnsFrom.symbols (h : LearnsFrom tree workingDirectory x y) : y.symbols = x.symbols := by
  cases h with
  | nothing => rfl
  | root source _ => rfl

/-- The roots that are remembered are those that the tree has. -/
def IsCoherent (tree : Tree) (workingDirectory : Path) (x : Extractor) : Prop :=
  ∀ directory root, x.roots.lookup directory = some root →
    directory.hasNul = false
      ∧ root = directory.upward.find? (Project.hasMarker tree workingDirectory)

theorem isCoherent_ofTable (table : FileTable) : (ofTable table).IsCoherent tree workingDirectory :=
  fun _ _ h => nomatch h

theorem LearnsFrom.isCoherent (h : LearnsFrom tree workingDirectory x y)
    (hx : x.IsCoherent tree workingDirectory) : y.IsCoherent tree workingDirectory := by
  cases h with
  | nothing => exact hx
  | root source isPath =>
      intro directory root hroot
      rw [remember, List.lookup_cons] at hroot
      split at hroot
      · rename_i heq
        obtain rfl := beq_iff_eq.mp heq
        exact ⟨isPath, (Option.some.inj hroot).symm⟩
      · exact hx directory root hroot

/-- After any questions the roots are those of the tree, and types are found as before. -/
theorem isCoherent_askAll (questions : List Question) (hx : x.IsCoherent tree workingDirectory) :
    (x.askAll tree workingDirectory questions).IsCoherent tree workingDirectory
      ∧ (x.askAll tree workingDirectory questions).symbols = x.symbols := by
  induction questions generalizing x with
  | nil => exact ⟨hx, rfl⟩
  | cons question questions ih =>
      have hstep := learnsFrom_ask tree workingDirectory x question
      obtain ⟨hcoherent, hsymbols⟩ := ih (hstep.isCoherent hx)
      exact ⟨hcoherent, hsymbols.trans hstep.symbols⟩

/-! ## Answers -/

/-- What is remembered of a root is what a look at the tree finds. -/
theorem IsCoherent.projectRoot (hx : x.IsCoherent tree workingDirectory) (source : Path) :
    (x.projectRoot tree workingDirectory source).map Prod.fst
      = Project.findRoot tree workingDirectory source := by
  unfold Extractor.projectRoot
  split
  · rename_i root hroot
    obtain ⟨hnul, rfl⟩ := hx _ _ hroot
    rw [Project.findRoot, hnul]
    rfl
  · cases Project.findRoot tree workingDirectory source <;> rfl

/-- The edges of a text are found with the root that a look at the tree finds. -/
theorem IsCoherent.extract (hx : x.IsCoherent tree workingDirectory) (file : String)
    (text : List Char) (language : Language) :
    (x.extract tree workingDirectory file text language).map Prod.fst = (do
      let root ← if needsRoot text language then
          Project.findRoot tree workingDirectory (Path.ofString file)
        else .ok none
      x.edgesWith tree workingDirectory root file text language) := by
  have hfst : ∀ (found : Except Fault Scan) (y : Extractor),
      (do return (← found, y) : Except Fault (Scan × Extractor)).map Prod.fst = found := by
    intro found y
    cases found <;> rfl
  unfold Extractor.extract
  split
  · rw [← hx.projectRoot, except_map_bind, except_bind_map]
    cases hroot : x.projectRoot tree workingDirectory (Path.ofString file) with
    | error fault => rfl
    | ok answer =>
        obtain ⟨root, y⟩ := answer
        have hsymbols := (learnsFrom_projectRoot hroot).symbols
        have hedges := edgesWith_congr tree workingDirectory hsymbols
          (fun _ => rfl : needsRoot text language = true → root = root) file
        rw [except_ok_bind, except_ok_bind]
        dsimp only
        rw [hfst, hedges]
  · rw [except_map_bind, except_ok_bind, except_ok_bind]
    exact hfst _ x

end Extractor

end ServiceMap
