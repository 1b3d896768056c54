import ServiceMap.Proofs.Service.Buckets
import ServiceMap.Report.Markdown

/-!
# Which file a listed type is shown with

The page of a service lists the types of its services and of its models, each with the base name of a
file. The types come from the files in order, but a row does not remember which file its type came from:
it names the first file that declares a type with the same facts. So the rows name the right files just
when files that declare equal types go by the same base name.
-/

namespace ServiceMap

namespace Report

open Service

/-! ## Rows -/

/-- The types of several files, each with the file that declares it, in order. -/
def declarations (files : List SourceFile) : List (SourceFile × TypeDecl) :=
  files.flatMap fun file => file.types.map fun type => (file, type)

/-- The first line of a row: a type and the base name of a file. -/
def rowHead (file : String) (type : TypeDecl) : String :=
  "- **" ++ type.name ++ "**" ++ (if file.isEmpty then "" else " (" ++ file ++ ")") ++ "\n"

/-- The line of a type's methods. -/
def methodLine (type : TypeDecl) : String :=
  let methods := ", ".intercalate (type.methods.map Function.name)
  "  - Methods: " ++ (if methods.isEmpty then "none" else methods) ++ "\n"

/-- The line of a type's properties. -/
def propertyLine (type : TypeDecl) : String :=
  let properties := type.properties.map fun p => p.name ++ ": " ++ p.type
  "  - Properties: " ++ (if properties.isEmpty then "none" else ", ".intercalate properties) ++ "\n"

/-- The rows that name for each type the file that declares it. -/
def rightRows (files : List SourceFile) (rest : TypeDecl → String) : List String :=
  (declarations files).map fun d => rowHead (Path.baseName d.1.path) d.2 ++ rest d.2

/-- The base name in the row of a type. -/
def shownFile (files : List SourceFile) (type : TypeDecl) : String :=
  ((ownerOf? files type).map fun file => Path.baseName file.path).getD ""

/-- Files that declare equal types go by the same base name. -/
def EqualTypesShareName (files : List SourceFile) : Prop :=
  ∀ a ∈ files, ∀ b ∈ files, ∀ type ∈ a.types, type ∈ b.types →
    Path.baseName a.path = Path.baseName b.path

variable {files : List SourceFile} {type : TypeDecl}

theorem typeItem_eq (files : List SourceFile) (type : TypeDecl) :
    typeItem files type = rowHead (shownFile files type) type := by
  unfold typeItem shownFile
  cases ownerOf? files type <;> rfl

theorem logicItem_eq (files : List SourceFile) (type : TypeDecl) :
    logicItem files type = rowHead (shownFile files type) type ++ methodLine type := by
  rw [← typeItem_eq]
  unfold logicItem methodLine
  rw [String.append_assoc, String.append_assoc, String.append_assoc]

theorem modelItem_eq (files : List SourceFile) (type : TypeDecl) :
    modelItem files type = rowHead (shownFile files type) type ++ propertyLine type := by
  rw [← typeItem_eq]
  unfold modelItem propertyLine
  rw [String.append_assoc, String.append_assoc, String.append_assoc]

/-- A row tells the base name that it holds. -/
theorem rowHead_append_inj {a b rest : String} :
    rowHead a type ++ rest = rowHead b type ++ rest ↔ a = b := by
  refine ⟨fun h => ?_, fun h => h ▸ rfl⟩
  have hchars := congrArg String.toList h
  simp only [rowHead, String.toList_append, List.append_assoc, List.append_cancel_left_eq,
    List.append_cancel_right_eq] at hchars
  by_cases ha : a.isEmpty = true <;> by_cases hb : b.isEmpty = true
  · rw [String.isEmpty_iff.mp ha, String.isEmpty_iff.mp hb]
  · simp [ha, hb] at hchars
  · simp [ha, hb] at hchars
  · exact String.toList_inj.mp (by simpa [ha, hb] using hchars)

theorem map_snd_declarations (files : List SourceFile) :
    (declarations files).map Prod.snd = files.flatMap SourceFile.types := by
  rw [declarations, List.map_flatMap]
  refine congrArg (fun types => files.flatMap types) (funext fun file => ?_)
  rw [List.map_map]
  exact List.map_id _

theorem mem_declarations {d : SourceFile × TypeDecl} :
    d ∈ declarations files ↔ d.1 ∈ files ∧ d.2 ∈ d.1.types := by
  obtain ⟨file, type⟩ := d
  simp [declarations]

/-- A type that is declared is shown with a file that declares an equal one. -/
theorem exists_owner {file : SourceFile} (hfile : file ∈ files) (htype : type ∈ file.types) :
    ∃ owner ∈ files, type ∈ owner.types ∧ shownFile files type = Path.baseName owner.path := by
  have hsome : (ownerOf? files type).isSome = true :=
    List.find?_isSome.mpr ⟨file, hfile, List.contains_iff_mem.mpr htype⟩
  obtain ⟨owner, howner⟩ := Option.isSome_iff_exists.mp hsome
  have hdeclares := List.find?_some howner
  refine ⟨owner, List.mem_of_find?_eq_some howner, List.contains_iff_mem.mp hdeclares, ?_⟩
  rw [shownFile, howner]
  rfl

/-- Every type is shown with its own file just when files with equal types share a name. -/
theorem shownFile_eq_iff :
    (∀ d ∈ declarations files, shownFile files d.2 = Path.baseName d.1.path)
      ↔ EqualTypesShareName files := by
  constructor
  · intro hshown a ha b hb type htype htype'
    rw [← hshown (a, type) (mem_declarations.mpr ⟨ha, htype⟩)]
    exact hshown (b, type) (mem_declarations.mpr ⟨hb, htype'⟩)
  · rintro hshare ⟨file, type⟩ hd
    obtain ⟨hfile, htype⟩ := mem_declarations.mp hd
    obtain ⟨owner, howner, hdeclares, hshown⟩ := exists_owner hfile htype
    exact hshown.trans (hshare owner howner file hfile type hdeclares htype)

/-- A list of rows is right just when files with equal types share a name. -/
theorem rows_eq_rightRows_iff (rest : TypeDecl → String) :
    ((files.flatMap SourceFile.types).map fun type =>
        rowHead (shownFile files type) type ++ rest type) = rightRows files rest
      ↔ EqualTypesShareName files := by
  rw [← map_snd_declarations, List.map_map, rightRows, List.map_inj_left, ← shownFile_eq_iff]
  exact forall₂_congr fun d _ => rowHead_append_inj

/-! ## The lists of a page -/

/-- **Types and their files.** However the files of a service are looked up, the types that its page
lists are those that its services and its models declare, in their order. The rows name the files that
declare them just when among the services, and among the models, files with equal types go by the same
base name. -/
theorem rows_name_declaring_files_iff (find? : String → Option SourceFile) (name root : String)
    (files : List String) (edges : List Edge) :
    let c : ServiceContext := { fillFrom find? name root files with edges }
    (c.businessLogic = (declarations c.services).map Prod.snd
        ∧ c.dataModels = (declarations c.models).map Prod.snd)
      ∧ (c.businessLogic.map (logicItem c.services) = rightRows c.services methodLine
          ↔ EqualTypesShareName c.services)
      ∧ (c.dataModels.map (modelItem c.models) = rightRows c.models propertyLine
          ↔ EqualTypesShareName c.models)
      ∧ ∀ includeDiagram, ∃ front back, servicePage includeDiagram c
          = page (front ++ section? "Business Logic" (c.businessLogic.map (logicItem c.services))
              ++ section? "Data Models" (c.dataModels.map (modelItem c.models)) ++ back) := by
  intro c
  have hfacts : c.HasFacts := ((sorts_fillFrom find? name root files).edges edges).toHasFacts
  refine ⟨⟨?_, ?_⟩, ?_, ?_, fun includeDiagram => ⟨_, _, rfl⟩⟩
  · rw [map_snd_declarations, hfacts.businessLogic]
  · rw [map_snd_declarations, hfacts.dataModels]
  · rw [← rows_eq_rightRows_iff methodLine, hfacts.businessLogic,
      funext (logicItem_eq c.services)]
  · rw [← rows_eq_rightRows_iff propertyLine, hfacts.dataModels, funext (modelItem_eq c.models)]

/-- A type as it is declared in two files. -/
def entryType : TypeDecl where
  name := "Entry"
  description := "Class: Entry"
  lineNumber := 1

/-- Two files of one service, each with a type of its own that looks like the other's. -/
def twinFiles : FileTable :=
  [{ path := "/p/a/UserManager.java", language := .java, types := [entryType] },
    { path := "/p/b/UserService.java", language := .java, types := [entryType] }]

/-- Both rows name the first of the two files. -/
theorem twin_is_shown_with_first_file :
    let c := buildContext "User" "/p" twinFiles.paths twinFiles []
    c.businessLogic.map (logicItem c.services)
        = ["- **Entry** (UserManager.java)\n  - Methods: none\n",
          "- **Entry** (UserManager.java)\n  - Methods: none\n"]
      ∧ rightRows c.services methodLine
        = ["- **Entry** (UserManager.java)\n  - Methods: none\n",
          "- **Entry** (UserService.java)\n  - Methods: none\n"]
      ∧ c.businessLogic.map (logicItem c.services) ≠ rightRows c.services methodLine := by
  decide +kernel

end Report

end ServiceMap
