import Mathlib.Data.List.Find
import Mathlib.Data.Set.Function
import ServiceMap.Proofs.Text.Names
import ServiceMap.Proofs.Tree.Discovered
import ServiceMap.Tree.Project

/-!
# A directory wherever it stands

What is found, read and marked below a directory is told by the directory alone, not by where in a
tree it stands: paths below a root lead where the names behind the root lead in the directory.
-/

namespace ServiceMap

open Text

namespace Path

/-! ## Paths below a root -/

/-- The path some names further down. -/
def below (root : Path) (names : List String) : Path :=
  { root with names := root.names ++ names }

variable {root : Path} {names more : List String} {name : String}

@[simp] theorem names_below : (root.below names).names = root.names ++ names := rfl

@[simp] theorem slashes_below : (root.below names).slashes = root.slashes := rfl

@[simp] theorem below_nil : root.below [] = root := by
  rw [below, List.append_nil]

theorem child_below : (root.below names).child name = root.below (names ++ [name]) := by
  rw [child, below, below, List.append_assoc]

theorem parent_below (h : names ≠ []) : (root.below names).parent = root.below names.dropLast := by
  rw [parent, below, below, List.dropLast_append_of_ne_nil h]

/-- What is taken relative to a path below a root is a path below the root. -/
theorem below_append {p : Path} (h : p.isAbsolute = false) :
    root.below names ++ p = root.below (names ++ p.names) := by
  show (root.below names).append p = _
  rw [append, if_neg (Bool.eq_false_iff.mp h), below, below, List.append_assoc]

theorem getLast?_below (h : names ≠ []) :
    (root.below names).names.getLast? = names.getLast? := by
  rw [names_below, List.getLast?_append, List.getLast?_eq_some_getLast h]
  rfl

theorem below_inj (h : root.below names = root.below more) : names = more :=
  List.append_cancel_left (congrArg Path.names h)

theorem IsPlain.name_ne_empty {p : Path} (h : p.IsPlain) (hne : p.names ≠ []) : p.name ≠ "" := by
  have hlast := List.getLast?_eq_some_getLast hne
  rw [name, hlast, Option.getD_some]
  intro hempty
  refine (h.names _ (List.mem_of_getLast? hlast)).nonempty ?_
  rw [hempty]
  rfl

theorem IsPlain.below (hroot : root.IsPlain) (h : ∀ name ∈ names, IsPlainName name) :
    (root.below names).IsPlain :=
  ⟨hroot.slashes, fun name hname =>
    (List.mem_append.mp hname).elim (hroot.names name) (h name)⟩

/-! ## Texts -/

/-- The text of a path below a root starts with the text of the root. -/
theorem toText_below (hslashes : root.slashes = 1) (hnames : root.names ≠ [])
    (names : List String) :
    (root.below names).toText = root.toText ++ names.flatMap fun name => '/' :: name.toList := by
  have hne : root.names.map String.toList ≠ [] := by simpa using hnames
  have htext : ∀ p : Path, p.slashes = 1 →
      p.toText = '/' :: join ['/'] (p.names.map String.toList) := by
    intro p hp
    rw [toText, hp]
    rfl
  rw [htext (root.below names) hslashes, htext root hslashes, names_below, List.map_append,
    join_append hne, List.flatMap_map]
  rfl

/-- A text with the text of one root in its front replaced by that of another. -/
def moveText (old new : Path) (text : String) : String :=
  String.ofList (new.toText ++ text.toList.drop old.toText.length)

variable {old new : Path}

/-- The texts of the paths below a root. -/
def textsBelow (root : Path) : Set String :=
  {text | ∃ names, (root.below names).toString = text}

theorem moveText_below (hold : old.slashes = 1) (hnew : new.slashes = 1) (hne : old.names ≠ [])
    (hne' : new.names ≠ []) (names : List String) :
    moveText old new (old.below names).toString = (new.below names).toString := by
  rw [moveText, toString, toString, String.toList_ofList, toText_below hold hne,
    toText_below hnew hne', List.drop_left]

/-- Texts of paths below the old root are told apart under the new one. -/
theorem injOn_moveText (new : Path) (hold : old.slashes = 1) (hne : old.names ≠ []) :
    Set.InjOn (moveText old new) old.textsBelow := by
  rintro _ ⟨names, rfl⟩ _ ⟨more, rfl⟩ heq
  have hlist := congrArg String.toList heq
  rw [moveText, moveText, String.toList_ofList, String.toList_ofList] at hlist
  have htail := List.append_cancel_left hlist
  rw [toString, toString, String.toList_ofList, String.toList_ofList, toText_below hold hne,
    toText_below hold hne, List.drop_left, List.drop_left] at htail
  rw [toString, toString, toText_below hold hne, toText_below hold hne, htail]

/-! ## Pairs of dots -/

/-- Whether names, with pairs of dots among them, lead no further up than `depth` directories. -/
def staysBelow : (depth : Nat) → List String → Bool
  | _, [] => true
  | depth, name :: rest =>
    if name == ".." then
      match depth with
      | 0 => false
      | depth + 1 => staysBelow depth rest
    else staysBelow (depth + 1) rest

theorem collapse_append {absolute : Bool} {front : List String} (h : ∀ name ∈ front, name ≠ "..") :
    ∀ done rest, collapse absolute done (front ++ rest)
      = collapse absolute (front.reverse ++ done) rest := by
  induction front with
  | nil => exact fun _ _ => rfl
  | cons name front ih =>
      intro done rest
      obtain ⟨hname, hfront⟩ := List.forall_mem_cons.mp h
      rw [List.cons_append, collapse, ih hfront, List.reverse_cons, List.append_assoc]
      · rfl
      · exact hname

/-- Names that stay below a front leave the front as it is. -/
theorem collapse_below {absolute : Bool} (front : List String) {rest : List String} :
    ∀ {inner : List String}, (∀ name ∈ inner, name ≠ "..") →
      staysBelow inner.length rest = true →
        collapse absolute (inner ++ front) rest = front.reverse ++ collapse true inner rest := by
  induction rest with
  | nil =>
      intro inner _ _
      rw [collapse, collapse, List.reverse_append]
  | cons name rest ih =>
      intro inner hinner hstays
      unfold staysBelow at hstays
      by_cases hup : name = ".."
      · subst hup
        cases inner with
        | nil => exact absurd hstays Bool.false_ne_true
        | cons last inner =>
            obtain ⟨hlast, hinner⟩ := List.forall_mem_cons.mp hinner
            rw [List.cons_append, collapse, collapse]
            · exact ih hinner hstays
            · exact hlast
            · exact hlast
      · rw [if_neg (by simpa using hup)] at hstays
        rw [collapse, collapse]
        · rw [← List.cons_append]
          exact ih (List.forall_mem_cons.mpr ⟨hup, hinner⟩) hstays
        · exact hup
        · exact hup

/-- Names that stay below a root are taken relative to a directory there, and lead below the root
again. -/
theorem normalized_below {dirs : List String} {p : Path} (hp : p.isAbsolute = false)
    (hroot : ∀ name ∈ root.names, name ≠ "..") (hdirs : ∀ name ∈ dirs, name ≠ "..")
    (hstays : staysBelow dirs.length p.names = true) :
    (root.below dirs ++ p).normalized = root.below (collapse true [] (dirs ++ p.names)) := by
  have hinner : ∀ name ∈ dirs.reverse, name ≠ ".." :=
    fun name hname => hdirs name (List.mem_reverse.mp hname)
  rw [← List.length_reverse] at hstays
  rw [below_append hp, normalized, names_below, collapse_append hroot, collapse_append hdirs,
    collapse_append hdirs, List.append_nil, List.append_nil, collapse_below _ hinner hstays,
    List.reverse_reverse]
  rfl

/-! ## Directories above -/

theorem dropLasts_append (inner : List String) (name : String) (outer : List String) :
    dropLasts (inner ++ name :: outer)
      = (dropLasts inner).map ((name :: outer).reverse ++ ·) ++ dropLasts outer := by
  induction inner with
  | nil =>
      rw [List.nil_append, dropLasts, dropLasts, List.map_singleton, List.append_nil]
      rfl
  | cons first inner ih =>
      rw [List.cons_append, dropLasts, dropLasts, ih, List.map_cons, List.cons_append,
        ← List.reverse_append]
      rfl

/-- The directories above a path below a root: first those below the root, then those above it. -/
theorem upward_below (h : root.names ≠ []) (dirs : List String) :
    (root.below dirs).upward = (dropLasts dirs.reverse).map root.below ++ root.parent.upward := by
  obtain ⟨front, last, hroot⟩ := (List.eq_nil_or_concat' root.names).resolve_left h
  have hreverse : (root.names ++ dirs).reverse = dirs.reverse ++ last :: front.reverse := by
    rw [hroot, List.reverse_append, List.reverse_append]
    rfl
  rw [upward, upward, names_below, hreverse, dropLasts_append, List.map_append, List.map_map,
    parent, hroot, List.dropLast_concat, List.reverse_cons, List.reverse_reverse, ← hroot]
  rfl

end Path

/-- Whether what stands somewhere is a directory with a marker. -/
def Project.marks : Option Node → Bool
  | some (.dir entries) => (entries.map Prod.fst).any isMarker
  | _ => false

/-- The nearest directory with a marker on the way down to a directory. -/
def Project.rootWithin? (content : Node) (dirs : List String) : Option (List String) :=
  (Path.dropLasts dirs.reverse).find? fun names => marks (Node.below? content names)

theorem Project.hasMarker_eq (tree : Tree) (workingDirectory directory : Path) :
    hasMarker tree workingDirectory directory
      = marks (tree.find? workingDirectory directory) := by
  rw [hasMarker, Tree.list?]
  cases tree.find? workingDirectory directory with
  | none => rfl
  | some node => cases node <;> rfl

namespace Discovery

/-- A directory that the analysis of a path looks into, and that is in no project by what stands
above it. -/
structure Placed (tree : Tree) (workingDirectory : Path) (path : String) (root : Path)
    (content : Node) : Prop where
  isWellFormed : tree.IsWellFormed
  resolved : resolveRoot tree workingDirectory path = .ok root
  holds : Node.below? tree root.names = some content
  named : root.names ≠ []
  /-- No path below the root is longer than file systems allow. -/
  short : ∀ names node, Node.below? content names = some node →
    (root.below names).isTooLong = false
  /-- No directory above the root holds the marker of a project. -/
  unmarked : ∀ directory ∈ root.parent.upward,
    Project.hasMarker tree workingDirectory directory = false

/-- Such a directory with no Go file of its name beside it. -/
structure Stands (tree : Tree) (workingDirectory : Path) (path : String) (root : Path)
    (content : Node) : Prop extends Placed tree workingDirectory path root content where
  alone : ∀ bytes modified,
    tree.find? workingDirectory (root.parent.child (root.name ++ ".go"))
      ≠ some (.file bytes modified)

variable {tree : Tree} {workingDirectory root : Path} {path : String} {content node : Node}
  {names : List String}

namespace Placed

variable (h : Placed tree workingDirectory path root content)

include h

theorem isRoot : IsRoot tree workingDirectory root :=
  isRoot_of_resolveRoot h.resolved

theorem isPlain : root.IsPlain :=
  h.isRoot.isPlain h.isWellFormed

theorem content_isWellFormed : content.IsWellFormed :=
  (h.isWellFormed.below h.holds).1

theorem below?_below (names : List String) :
    Node.below? tree (root.below names).names = Node.below? content names := by
  rw [Path.names_below, Node.below?_append, h.holds, Option.bind_some]

theorem isAbsolute_below (names : List String) : (root.below names).isAbsolute = true := by
  rw [Path.isAbsolute, Path.slashes_below, h.isRoot.slashes]
  rfl

theorem notUp_below (hnames : ∀ name ∈ names, name ≠ "..") :
    ∀ name ∈ (root.below names).names, name ≠ ".." := by
  intro name hname
  exact (List.mem_append.mp hname).elim (h.isRoot.noUp name) (hnames name)

/-- What the directory holds is found below the root. -/
theorem find_below (hnode : Node.below? content names = some node) :
    (root.below names).hasNul = false
      ∧ tree.find workingDirectory (root.below names) = .ok node :=
  Tree.find_of_below? workingDirectory h.isWellFormed (h.isAbsolute_below names)
    ((h.below?_below names).trans hnode) (h.short names node hnode)

/-- **Lookups** below the root are lookups in the directory. -/
theorem find?_below (hnames : ∀ name ∈ names, name ≠ "..") :
    tree.find? workingDirectory (root.below names) = Node.below? content names := by
  rw [Tree.find?]
  cases hnode : Node.below? content names with
  | some node =>
      rw [(h.find_below hnode).2]
      rfl
  | none =>
      cases hfind : tree.find workingDirectory (root.below names) with
      | error fault => rfl
      | ok node =>
          have hbelow := Tree.below?_of_find (h.isAbsolute_below names) (h.notUp_below hnames) hfind
          rw [h.below?_below, hnode] at hbelow
          cases hbelow

theorem directory : ∃ entries, content = .dir entries := by
  obtain ⟨entries, hfind⟩ := h.isRoot.directory
  have hbelow := Tree.below?_of_find (by simpa using h.isAbsolute_below []) h.isRoot.noUp hfind
  exact ⟨entries, Option.some.inj (h.holds.symm.trans hbelow)⟩

theorem ne_nil {bytes : ByteArray} {modified : Instant}
    (hfile : Node.below? content names = some (.file bytes modified)) : names ≠ [] := by
  rintro rfl
  obtain ⟨entries, rfl⟩ := h.directory
  exact nomatch hfile

/-- A file of the directory is read as its bytes say. -/
theorem read_below {bytes : ByteArray} {modified : Instant}
    (hfile : Node.below? content names = some (.file bytes modified)) :
    tree.read workingDirectory (root.below names) = match decodeUtf8? bytes with
      | none => .error .notUtf8
      | some text => .ok ⟨normalizeNewlines text, modified⟩ := by
  obtain ⟨hnul, hfind⟩ := h.find_below hfile
  rw [Tree.read, hnul, hfind]
  rfl

theorem isPlain_below (hnode : Node.below? content names = some node) :
    (root.below names).IsPlain := by
  refine h.isPlain.below fun name hname => ?_
  exact ((h.content_isWellFormed.below hnode).2 name hname).toIsPlainName

theorem ofString_below (hnode : Node.below? content names = some node) :
    Path.ofString (root.below names).toString = root.below names :=
  Path.ofString_toString (h.isPlain_below hnode)

/-- **Projects.** The project of a file below the root is told by the directory. -/
theorem root?_below (hne : names ≠ []) (hnames : ∀ name ∈ names, name ≠ "..") :
    Project.root? tree workingDirectory (root.below names)
      = (Project.rootWithin? content names.dropLast).map root.below := by
  have habove : root.parent.upward.find? (Project.hasMarker tree workingDirectory) = none := by
    rw [List.find?_eq_none]
    intro directory hdirectory
    exact Bool.eq_false_iff.mp (h.unmarked directory hdirectory)
  rw [Project.root?, Path.parent_below hne, Path.upward_below h.named, List.find?_append, habove,
    Option.or_none, List.find?_map, Project.rootWithin?]
  refine congrArg (Option.map root.below) (List.find?_congr fun dirs hdirs => ?_)
  show Project.hasMarker _ _ _ = _
  rw [Project.hasMarker_eq, h.find?_below]
  intro name hname
  have hmem := List.mem_reverse.mp (Path.mem_of_mem_dropLasts hdirs name hname)
  exact hnames name (List.dropLast_subset _ hmem)

/-- The files below the root are those that a walk of the directory finds. -/
theorem filesBelow_eq (endings excluded : List String) :
    filesBelow tree workingDirectory root endings excluded
      = (walk (skips excluded) (hasEnding endings) content).map root.below := by
  obtain ⟨node, hnode, hfiles⟩ := h.isRoot.filesBelow_eq
  rw [hfiles, Option.some.inj (hnode.symm.trans h.holds)]
  rfl

omit h in
theorem moveText_below {old new : Path} {otherTree : Tree} {otherDirectory : Path}
    {otherPath : String} (h : Placed tree workingDirectory path old content)
    (h' : Placed otherTree otherDirectory otherPath new content) (names : List String) :
    Path.moveText old new (old.below names).toString = (new.below names).toString :=
  Path.moveText_below h.isRoot.slashes h'.isRoot.slashes h.named h'.named names

end Placed

/-- The texts of the files of a directory that stands at a root. -/
def fileTexts (content : Node) (root : Path) : Set String :=
  {text | ∃ names bytes modified, Node.below? content names = some (.file bytes modified)
    ∧ (root.below names).toString = text}

theorem fileTexts_subset (content : Node) (root : Path) :
    fileTexts content root ⊆ root.textsBelow :=
  fun _ ⟨names, _, _, _, htext⟩ => ⟨names, htext⟩

end Discovery

end ServiceMap
