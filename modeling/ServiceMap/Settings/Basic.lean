import ServiceMap.Facts.Basic
import ServiceMap.Settings.Fault
import ServiceMap.Settings.Value
import ServiceMap.Text.Case
import ServiceMap.Text.Quoted
import ServiceMap.Tree.Path

/-!
# Settings

The settings of a project and how a document states them. Members that are not known, and values of
a kind that is not expected, are passed over; a language that is not supported and a number of
workers that is none are faults.
-/

namespace ServiceMap

open Text Settings

/-- The name of settings files. -/
def Settings.fileName : String := ".contextmap.yml"

/-- The settings of a project. -/
structure Settings where
  /-- The directory of the settings file. -/
  root : Path
  /-- The directories to be analyzed, if not the root. -/
  sourceDirectories : List Path := []
  languages : List Language := Language.all
  /-- Names of directories that are passed over. -/
  excluded : List String := []
  /-- How many files are scanned at the same time. -/
  workers : Nat := 1
  /-- A directory with templates for reports. -/
  templates : Option Path := none
  includeDiagram : Bool := true
deriving DecidableEq, Repr

/-- What is wrong with stated settings. -/
inductive SettingsFault where
  /-- The text is no document. -/
  | malformed
  /-- The document is no mapping. -/
  | notMapping
  /-- Languages that are not supported, in order. -/
  | unsupportedLanguages (names : List String)
  /-- A text where an integer is expected. -/
  | notInteger (text : List Char)
  /-- A number of workers below one. -/
  | workersNotPositive
deriving DecidableEq, Repr

/-- Why settings cannot be loaded. -/
inductive LoadFault where
  /-- They are stated wrongly. -/
  | invalid (fault : SettingsFault)
  /-- A scalar of the document has no value. -/
  | scalar (fault : ScalarFault)
  /-- Parts of the document lie in each other too deep. -/
  | tooDeep
  /-- An integer has too many digits to be written as a text. -/
  | longInteger
  /-- The path of a source directory or of the settings file holds the NUL character. -/
  | nulInPath
  /-- The path of the settings file or one of its names is longer than file systems allow. -/
  | tooLong (path : Path)
  /-- There is a directory where the settings file is expected. -/
  | directory
  /-- The settings file is no text in UTF-8. -/
  | notUtf8
deriving DecidableEq, Repr

/-- The wording of a fault. -/
def SettingsFault.message : SettingsFault → String
  | malformed => "Failed to parse " ++ Settings.fileName
  | notMapping => Settings.fileName ++ " must contain a mapping at the root"
  | unsupportedLanguages names =>
    "Unsupported languages in " ++ Settings.fileName ++ ": " ++ ", ".intercalate names
  | notInteger text => "Expected an integer, got " ++ String.ofList (quote text)
  | workersNotPositive => "analysis.workers must be a positive integer"

/-- The wording of a fault. -/
def LoadFault.message : LoadFault → String
  | invalid fault => fault.message
  | scalar fault => fault.message
  | tooDeep => Settings.fileName ++ " is nested too deep"
  | longInteger => tooLongMessage ""
  | nulInPath => Path.nulMessage
  | tooLong path => path.tooLongMessage
  | directory => Settings.fileName ++ " is a directory"
  | notUtf8 => Settings.fileName ++ " is not UTF-8"

namespace Settings

/-! ## Values as settings -/

namespace Value

/-- Whether a document of this value counts as one without members. -/
def isVoid : Value → Bool
  | null => true
  | bool b => !b
  | int n => n == 0
  | number n => n.isZero
  | text s => s.isEmpty
  | date => false
  | binary bytes => bytes.isEmpty
  | seq items => items.isEmpty
  | map members => members.isEmpty
  | set items => items.isEmpty

/-- Whether a value is the given text. -/
def isText (name : String) : Value → Bool
  | text s => s == name.toList
  | _ => false

/-- The member under a name, the last if there are several; null if there is none. -/
def member (name : String) : Value → Value
  | map members =>
    match members.reverse.find? fun member => member.1.isText name with
    | some (_, value) => value
    | none => null
  | _ => null

/-- An integer as it is written. -/
def writeInteger (n : Int) : Except LoadFault (List Char) :=
  match writeInteger? n with
  | some s => .ok s
  | none => .error .longInteger

/-- A text or a number, as it is written; none for all else. -/
def write? : Value → Except LoadFault (Option (List Char))
  | int n => (writeInteger n).map some
  | number n => .ok (some n.render)
  | text s => .ok (some s)
  | _ => .ok none

/-- An item of a list of texts; truth values are written too. -/
def writeItem? : Value → Except LoadFault (Option (List Char))
  | bool b => .ok (some (if b then "True" else "False").toList)
  | value => value.write?

/-- A text as a list of one, and the items of a sequence that are texts, numbers or truth values.
Bytes are a sequence of numbers. -/
def texts : Value → Except LoadFault (List (List Char))
  | text s => .ok [s]
  | seq items => do return (← items.mapM writeItem?).filterMap id
  | binary bytes => .ok (bytes.map fun byte => Nat.toDigits 10 byte)
  | _ => .ok []

/-- An integer, which may be written as a text. -/
def integer? : Value → Except SettingsFault (Option Int)
  | int n => .ok (some n)
  | text s =>
    match readInteger s with
    | .ok n => .ok (some n)
    | .error _ => .error (.notInteger s)
  | _ => .ok none

/-- Texts that stand for truth values. -/
def truthTexts : List (String × Bool) :=
  [("true", true), ("yes", true), ("1", true), ("false", false), ("no", false), ("0", false)]

/-- A truth value, which may be written as a text in any letter case with blanks around it. -/
def truth? : Value → Option Bool
  | bool b => some b
  | text s => truthTexts.lookup (String.ofList (lower (trim s)))
  | _ => none

end Value

/-! ## Documents as settings -/

/-- The languages that are named, in any letter case. -/
def readLanguages (names : List (List Char)) : Except SettingsFault (List Language) :=
  let names := names.map fun name => String.ofList (lower name)
  let unknown := names.filter fun name => (Language.ofLabel? name).isNone
  if unknown.isEmpty then .ok (names.filterMap Language.ofLabel?)
  else .error (.unsupportedLanguages
    ((unknown.mergeSort fun a b => decide (a ≤ b)).eraseReps))

/-- The number of workers; one unless it is stated. -/
def readWorkers (value : Value) : Except SettingsFault Nat := do
  match ← value.integer? with
  | none => return 1
  | some n => if n < 1 then .error .workersNotPositive else return n.toNat

/-- The directory of templates below the root. -/
def readTemplates (root : Path) (value : Value) : Except LoadFault (Option Path) := do
  match ← value.write? with
  | some text =>
    return if text.isEmpty then none else some (root ++ Path.ofString (String.ofList text))
  | none => return none

/-- The directories that entries denote, relative to the root. -/
def readDirectories (root : Path) (entries : List (List Char)) : Except LoadFault (List Path) :=
  if entries.any fun entry => entry.any Path.isNul then .error .nulInPath
  else .ok (entries.map fun entry => (Path.ofString (String.ofList entry)).resolve root)

/-- The settings that a mapping states for a root directory. -/
def ofMapping (root : Path) (value : Value) : Except LoadFault Settings := do
  let sourceDirectories ← readDirectories root (← (value.member "source_directories").texts)
  let names ← (value.member "languages").texts
  let languages ← (readLanguages names).mapError .invalid
  let workers ← (readWorkers ((value.member "analysis").member "workers")).mapError .invalid
  let render := value.member "render"
  let templates ← readTemplates root (render.member "templates_dir")
  let excluded ← (value.member "exclude_dirs").texts
  return {
    root
    sourceDirectories
    languages := if languages.isEmpty then Language.all else languages
    excluded := excluded.map String.ofList
    workers
    templates
    includeDiagram := (render.member "include_diagram").truth?.getD true }

/-- The settings that a document states for a root directory. -/
def ofValue (root : Path) (value : Value) : Except LoadFault Settings :=
  if value.isVoid then .ok { root }
  else
    match value with
    | .map _ => ofMapping root value
    | _ => .error (.invalid .notMapping)

/-- The directories to be analyzed: those that are stated, or else the root. -/
def analysisRoots (s : Settings) : List Path :=
  if s.sourceDirectories.isEmpty then [s.root] else s.sourceDirectories

end Settings

end ServiceMap
