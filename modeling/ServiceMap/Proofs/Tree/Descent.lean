import ServiceMap.Tree.Node
import ServiceMap.Proofs.Text.Lookup
import ServiceMap.Proofs.Tree.Path

/-!
# Going down a tree

A tree is well formed if it can stand on a disk: the names in a directory are names of files, and
they differ. In such a tree a path without two dots leads down from directory to directory, and
every name on it is the name of a file.
-/

namespace ServiceMap

namespace Node

/-! ## Well-formed trees -/

/-- A name that a file can have. -/
structure IsFileName (name : String) : Prop extends Path.IsPlainName name where
  notUp : name ≠ ".."
  noNul : name.toList.any Path.isNul = false
  short : name.utf8ByteSize ≤ Path.longestName

mutual

/-- A tree as it can stand on a disk. -/
def IsWellFormed : Node → Prop
  | .file .. => True
  | .dir entries => (entries.map Prod.fst).Nodup ∧ AreWellFormed entries

/-- Entries of a directory as they can stand on a disk. -/
def AreWellFormed : List (String × Node) → Prop
  | [] => True
  | (name, node) :: entries => IsFileName name ∧ IsWellFormed node ∧ AreWellFormed entries

end

theorem isFileName_iff {name : String} : IsFileName name ↔
    (name.toList ≠ [] ∧ name.toList.all (fun c => !(c == '/')) = true ∧ name.toList ≠ ['.'])
      ∧ name ≠ ".." ∧ name.toList.any Path.isNul = false
      ∧ name.utf8ByteSize ≤ Path.longestName := by
  simp only [List.all_eq_true, Bool.not_eq_true']
  exact ⟨fun ⟨⟨h₁, h₂, h₃⟩, h₄, h₅, h₆⟩ => ⟨⟨h₁, h₂, h₃⟩, h₄, h₅, h₆⟩,
    fun ⟨⟨h₁, h₂, h₃⟩, h₄, h₅, h₆⟩ => ⟨⟨h₁, h₂, h₃⟩, h₄, h₅, h₆⟩⟩

instance (name : String) : Decidable (IsFileName name) :=
  decidable_of_iff' _ isFileName_iff

mutual

instance decidableIsWellFormed : (node : Node) → Decidable node.IsWellFormed
  | .file .. => isTrue trivial
  | .dir entries =>
    have := decidableAreWellFormed entries
    inferInstanceAs (Decidable (_ ∧ AreWellFormed entries))

instance decidableAreWellFormed : (entries : List (String × Node)) →
    Decidable (AreWellFormed entries)
  | [] => isTrue trivial
  | (name, node) :: entries =>
    have := decidableIsWellFormed node
    have := decidableAreWellFormed entries
    inferInstanceAs (Decidable (IsFileName name ∧ IsWellFormed node ∧ AreWellFormed entries))

end

theorem AreWellFormed.of_mem {entries : List (String × Node)} (h : AreWellFormed entries) :
    ∀ {name : String} {node : Node}, (name, node) ∈ entries →
      IsFileName name ∧ IsWellFormed node := by
  induction entries with
  | nil =>
      intro name node hmem
      exact absurd hmem List.not_mem_nil
  | cons entry entries ih =>
      intro name node hmem
      obtain ⟨hname, hnode, hentries⟩ := h
      rcases List.mem_cons.mp hmem with heq | hmem
      · obtain ⟨rfl, rfl⟩ := Prod.mk.inj heq
        exact ⟨hname, hnode⟩
      · exact ih hentries hmem

/-! ## Downward paths -/

/-- What stands at the end of names that each lead one directory down. -/
def below? : Node → List String → Option Node
  | here, [] => some here
  | .file .., _ :: _ => none
  | .dir entries, name :: rest => (entries.lookup name).bind fun node => below? node rest

theorem below?_append (names more : List String) :
    ∀ here : Node, below? here (names ++ more)
      = (below? here names).bind fun node => below? node more := by
  induction names with
  | nil =>
      intro here
      rw [List.nil_append, below?, Option.bind_some]
  | cons name names ih =>
      intro here
      cases here with
      | file content modified => rfl
      | dir entries =>
          rw [List.cons_append, below?, below?]
          cases entries.lookup name with
          | none => rfl
          | some node => exact ih node

theorem descend_down {name : String} (hname : name ≠ "..") (above : List Node)
    (entries : List (String × Node)) (rest : List String) :
    descend above (.dir entries) (name :: rest)
      = if Path.longestName < name.utf8ByteSize then .error .tooLong
        else
          match entries.lookup name with
          | none => .error .missing
          | some node => descend (.dir entries :: above) node rest := by
  rw [descend.eq_def]
  dsimp only
  rw [if_neg fun hup => hname (beq_iff_eq.mp hup)]
  rfl

/-- Without two dots a lookup leads down. -/
theorem below?_of_descend {names : List String} (hnames : ∀ name ∈ names, name ≠ "..") :
    ∀ {above : List Node} {here node : Node}, descend above here names = .ok node →
      below? here names = some node := by
  induction names with
  | nil =>
      intro above here node h
      exact congrArg some (Except.ok.inj h)
  | cons name names ih =>
      intro above here node h
      cases here with
      | file content modified => exact nomatch h
      | dir entries =>
          rw [descend_down (hnames name List.mem_cons_self)] at h
          split at h
          · exact nomatch h
          · rw [below?]
            cases hentry : entries.lookup name with
            | none =>
                rw [hentry] at h
                exact nomatch h
            | some next =>
                rw [hentry] at h
                exact ih (fun other hother => hnames other (List.mem_cons_of_mem _ hother)) h

/-- Names of files are looked up one below the other. -/
theorem descend_of_below? {names : List String} (hnames : ∀ name ∈ names, IsFileName name) :
    ∀ {above : List Node} {here node : Node}, below? here names = some node →
      descend above here names = .ok node := by
  induction names with
  | nil =>
      intro above here node h
      exact congrArg Except.ok (Option.some.inj h)
  | cons name names ih =>
      intro above here node h
      cases here with
      | file content modified => exact nomatch h
      | dir entries =>
          have hname := hnames name List.mem_cons_self
          rw [descend_down hname.notUp, if_neg (Nat.not_lt.mpr hname.short)]
          obtain ⟨next, hentry, h⟩ := Option.bind_eq_some_iff.mp h
          rw [hentry]
          exact ih (fun other hother => hnames other (List.mem_cons_of_mem _ hother)) h

/-- **Downward paths in well-formed trees.** They are made of names of files, and lead to trees that
are well formed again. -/
theorem IsWellFormed.below {names : List String} :
    ∀ {here node : Node}, here.IsWellFormed → below? here names = some node →
      node.IsWellFormed ∧ ∀ name ∈ names, IsFileName name := by
  induction names with
  | nil =>
      intro here node hhere h
      obtain rfl := Option.some.inj h
      exact ⟨hhere, fun name hname => absurd hname List.not_mem_nil⟩
  | cons name names ih =>
      intro here node hhere h
      cases here with
      | file content modified => exact nomatch h
      | dir entries =>
          obtain ⟨next, hentry, h⟩ := Option.bind_eq_some_iff.mp h
          obtain ⟨hname, hnext⟩ := hhere.2.of_mem (mem_of_lookup hentry)
          obtain ⟨hnode, hnames⟩ := ih hnext h
          refine ⟨hnode, ?_⟩
          intro other hother
          rcases List.mem_cons.mp hother with rfl | hother
          · exact hname
          · exact hnames other hother

/-- Wherever a lookup in a well-formed tree leads, up or down, there is a well-formed tree. -/
theorem IsWellFormed.descend {names : List String} :
    ∀ {above : List Node} {here node : Node}, (∀ outer ∈ above, outer.IsWellFormed) →
      here.IsWellFormed → descend above here names = .ok node → node.IsWellFormed := by
  induction names with
  | nil =>
      intro above here node _ hhere h
      exact Except.ok.inj h ▸ hhere
  | cons name names ih =>
      intro above here node habove hhere h
      cases here with
      | file content modified => exact nomatch h
      | dir entries =>
          by_cases hup : name = ".."
          · subst hup
            cases above with
            | nil => exact ih habove hhere h
            | cons outer above =>
                exact ih (fun other hother => habove other (List.mem_cons_of_mem _ hother))
                  (habove outer List.mem_cons_self) h
          · rw [descend_down hup] at h
            split at h
            · exact nomatch h
            · split at h
              · exact nomatch h
              · rename_i hentry
                refine ih ?_ (hhere.2.of_mem (mem_of_lookup hentry)).2 h
                exact List.forall_mem_cons.mpr ⟨hhere, habove⟩

end Node

/-! ## Absolute paths -/

namespace Tree

theorem find_eq_descend {tree : Tree} {workingDirectory path : Path}
    (habsolute : path.isAbsolute = true) (hnul : path.hasNul = false)
    (hlong : path.isTooLong = false) :
    tree.find workingDirectory path = Node.descend [] tree path.names := by
  have happend : workingDirectory ++ path = path := by
    show Path.append workingDirectory path = path
    rw [Path.append, if_pos habsolute]
  rw [find, hnul, hlong, happend]
  rfl

theorem hasNul_of_find {tree : Tree} {workingDirectory path : Path} {node : Node}
    (h : tree.find workingDirectory path = .ok node) : path.hasNul = false := by
  unfold find at h
  split at h
  · exact nomatch h
  · rename_i hnul
    exact Bool.eq_false_iff.mpr hnul

theorem isTooLong_of_find {tree : Tree} {workingDirectory path : Path} {node : Node}
    (h : tree.find workingDirectory path = .ok node) : path.isTooLong = false := by
  rw [find, if_neg (Bool.eq_false_iff.mp (hasNul_of_find h))] at h
  split at h
  · exact nomatch h
  · rename_i hlong
    exact Bool.eq_false_iff.mpr hlong

/-- What is found at an absolute path without two dots stands below the root. -/
theorem below?_of_find {tree : Tree} {workingDirectory path : Path} {node : Node}
    (habsolute : path.isAbsolute = true) (hup : ∀ name ∈ path.names, name ≠ "..")
    (h : tree.find workingDirectory path = .ok node) :
    Node.below? tree path.names = some node := by
  have hnul := hasNul_of_find h
  have hlong := isTooLong_of_find h
  rw [find_eq_descend habsolute hnul hlong] at h
  exact Node.below?_of_descend hup h

/-- A path at which something stands holds no NUL character. -/
theorem hasNul_of_below? {tree : Tree} {path : Path} {node : Node} (htree : tree.IsWellFormed)
    (h : Node.below? tree path.names = some node) : path.hasNul = false := by
  rw [Path.hasNul_eq, List.any_eq_false]
  intro name hname
  exact Bool.eq_false_iff.mp ((htree.below h).2 name hname).noNul

/-- What stands below the root is found at its path, if this is not too long. -/
theorem find_of_below? {tree : Tree} (workingDirectory : Path) {path : Path} {node : Node}
    (htree : tree.IsWellFormed) (habsolute : path.isAbsolute = true)
    (h : Node.below? tree path.names = some node) (hlong : path.isTooLong = false) :
    path.hasNul = false ∧ tree.find workingDirectory path = .ok node := by
  have hnul := hasNul_of_below? htree h
  refine ⟨hnul, ?_⟩
  rw [find_eq_descend habsolute hnul hlong]
  exact Node.descend_of_below? (htree.below h).2 h

end Tree

end ServiceMap
