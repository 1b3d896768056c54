import ServiceMap.Text.Case
import ServiceMap.Tree.Node

/-!
# Discovery

The directory that a path stands for, and the source files below it. A relative path whose first
name starts with a tilde is taken from the home directory of an account, which the rest of that name
tells; the tilde alone stands for whoever runs the program. Directories that hold no sources of the
project are passed over. The files of a directory come before those of its directories, each in the
order of their names.
-/

namespace ServiceMap

open Text

/-! ## Home directories -/

namespace Path

/-- The home directories of accounts, that of whoever runs the program first. -/
def homes : List (String × Path) :=
  [("", ⟨1, ["root"]⟩), ("root", ⟨1, ["root"]⟩), ("nobody", ⟨1, ["nonexistent"]⟩)]

/-- The account from whose home directory a path is taken, if it is taken from one. -/
def account? (p : Path) : Option (List Char) :=
  match p.slashes, p.names.map String.toList with
  | 0, ('~' :: account) :: _ => some account
  | _, _ => none

/-- The path with a home directory in place of its first name; none if there is no such account. -/
def expandHome? (p : Path) : Option Path :=
  match p.account? with
  | none => some p
  | some account => (homes.lookup (String.ofList account)).map fun home =>
      { home with names := home.names ++ p.names.drop 1 }

end Path

/-! ## Roots and their files -/

/-- Why a directory cannot be analyzed. -/
inductive RootFault where
  /-- There is nothing at this path. -/
  | notFound (path : String)
  /-- There is a file at this path. -/
  | notDirectory (path : String)
  /-- The path holds the NUL character. -/
  | nulInPath
  /-- The path or one of its names is longer than file systems allow. -/
  | tooLong (path : Path)
  /-- The path is taken from the home directory of an account that there is not. -/
  | noAccount
deriving DecidableEq, Repr

/-- The wording of a fault. -/
def RootFault.message : RootFault → String
  | notFound path => "Analysis root not found: " ++ path
  | notDirectory path => "Analysis root is not a directory: " ++ path
  | nulInPath => Path.nulMessage
  | tooLong path => path.tooLongMessage
  | noAccount => "Could not determine home directory."

/-- Whether a fault is reported to whoever names the path: nothing is there, or no directory. -/
def RootFault.isReported : RootFault → Bool
  | notFound _ => true
  | notDirectory _ => true
  | _ => false

namespace Discovery

/-- Names of directories that are always passed over. -/
def excludedNames : List String :=
  ["node_modules", ".git", "dist", "build", "target", "bin", "obj", ".idea", ".vscode", "coverage",
    "logs", "tmp", "temp"]

/-- Whether a directory is passed over: by its name, because its name starts with a dot, or because
it is excluded by the given names. -/
def skips (excluded : List String) (name : String) : Bool :=
  excludedNames.contains name || name.toList.head? == some '.' || excluded.contains name

/-- Whether a file has one of the endings. Letter case does not matter. -/
def hasEnding (endings : List String) (name : String) : Bool :=
  let ending := String.ofList (lower (Path.ofString name).ending)
  (endings.map lowerString).contains ending

/-- Names in rising order. -/
def sortNames (names : List String) : List String :=
  names.mergeSort fun a b => decide (a ≤ b)

/-- Named things in the order of their names. -/
def sortByName {α : Type} (entries : List (String × α)) : List (String × α) :=
  entries.mergeSort fun a b => decide (a.1 ≤ b.1)

/-- The names of the files among entries. -/
def fileNames (entries : List (String × Node)) : List String :=
  entries.filterMap fun entry =>
    match entry.2 with
    | .file .. => some entry.1
    | .dir _ => none

mutual

/-- The files below a node whose names satisfy `wanted`, as sequences of names, not looking into
directories whose names satisfy `skipped`. -/
def walk (skipped wanted : String → Bool) : Node → List (List String)
  | .file .. => []
  | .dir entries =>
    (sortNames ((fileNames entries).filter wanted)).map ([·])
      ++ (sortByName (walkEntries skipped wanted entries)).flatMap fun (name, found) =>
        found.map (name :: ·)

/-- The files below each directory among entries, with the directory's name. -/
def walkEntries (skipped wanted : String → Bool) :
    List (String × Node) → List (String × List (List String))
  | [] => []
  | (name, node) :: entries =>
    (name, if skipped name then [] else walk skipped wanted node)
      :: walkEntries skipped wanted entries

end

/-- The directory that a path denotes, as an absolute path. -/
def resolveRoot (tree : Tree) (workingDirectory : Path) (path : String) :
    Except RootFault Path :=
  let given := Path.ofString path
  if given.account?.any fun account => account.any Path.isNul then .error .nulInPath
  else
    match given.expandHome? with
    | none => .error .noAccount
    | some expanded =>
      let root := expanded.resolve workingDirectory
      if path.toList.any Path.isNul then .error .nulInPath
      else
        match tree.find workingDirectory root with
        | .error .missing => .error (.notFound path)
        | .error .tooLong => .error (.tooLong root)
        | .ok (.file ..) => .error (.notDirectory path)
        | .ok (.dir _) => .ok root

/-- The source files below a directory. -/
def filesBelow (tree : Tree) (workingDirectory root : Path) (endings excluded : List String) :
    List Path :=
  match tree.find? workingDirectory root with
  | some node => (walk (skips excluded) (hasEnding endings) node).map fun names =>
      { root with names := root.names ++ names }
  | none => []

/-- The source files below the directory that a path denotes. -/
def discover (tree : Tree) (workingDirectory : Path) (path : String)
    (endings excluded : List String) : Except RootFault (List Path) :=
  (resolveRoot tree workingDirectory path).map fun root =>
    filesBelow tree workingDirectory root endings excluded

end Discovery

end ServiceMap
