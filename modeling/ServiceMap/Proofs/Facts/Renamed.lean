import ServiceMap.Analysis.Result
import ServiceMap.Facts.Reading
import ServiceMap.Proofs.Source.Fallible

/-!
# Facts under another name

The name of a file goes into its facts and is not looked at on the way: read under another name, a
text has the same facts with the one name put in place of the other.
-/

namespace ServiceMap

open Text Source Declaration Endpoint

variable (f : String → String)

/-! ## Renamed files -/

def Endpoint.rename (e : ServiceMap.Endpoint) : ServiceMap.Endpoint :=
  { e with fileName := f e.fileName }

def SourceFile.rename (file : SourceFile) : SourceFile :=
  { file with path := f file.path, endpoints := file.endpoints.map (Endpoint.rename f) }

def Edge.rename (e : Edge) : Edge :=
  { e with source := f e.source, target := f e.target }

/-- A context whose root and files have other names. -/
def ServiceContext.rename (c : ServiceContext) : ServiceContext :=
  { c with
    root := f c.root
    controllers := c.controllers.map (SourceFile.rename f)
    services := c.services.map (SourceFile.rename f)
    models := c.models.map (SourceFile.rename f)
    repositories := c.repositories.map (SourceFile.rename f)
    configurations := c.configurations.map (SourceFile.rename f)
    utilities := c.utilities.map (SourceFile.rename f)
    tests := c.tests.map (SourceFile.rename f)
    edges := c.edges.map (Edge.rename f)
    endpoints := c.endpoints.map (Endpoint.rename f) }

/-- A result whose root and files have other names. -/
def AnalysisResult.rename (r : AnalysisResult) : AnalysisResult :=
  { r with
    root := f r.root
    contexts := r.contexts.map (ServiceContext.rename f)
    edges := r.edges.map (Edge.rename f)
    skippedFiles := r.skippedFiles.map f }

/-! ## Reading -/

theorem filterMap_id_map {α β : Type} (g : α → β) (xs : List (Option α)) :
    (xs.map (Option.map g)).filterMap id = (xs.filterMap id).map g := by
  rw [List.filterMap_map, List.map_filterMap]
  rfl

namespace Endpoint

variable (file : String)

theorem goEndpoint_rename (source : SourceText) (index : Nat) (verb : String)
    (path handler : List Char) (router : String) :
    goEndpoint source (f file) index verb path handler router
      = (goEndpoint source file index verb path handler router).map (.rename f) := by
  simp only [goEndpoint, except_map_bind]
  rfl

theorem goEndpoints_rename (source : SourceText) :
    goEndpoints source (f file) = (goEndpoints source file).map (List.map (.rename f)) := by
  simp only [goEndpoints, goEndpoint_rename, mapM_map, except_map_bind, except_bind_map]
  refine bind_congr fun routes => bind_congr fun plain => ?_
  exact congrArg Except.ok List.map_append.symm

theorem javaEndpoint?_rename (owner : TypeDecl) (m : DeclaredMethod) :
    javaEndpoint? (f file) owner m
      = (javaEndpoint? file owner m).map (Option.map (.rename f)) := by
  simp only [javaEndpoint?, except_map_bind]
  refine bind_congr fun route => ?_
  cases route with
  | none => rfl
  | some route =>
      simp only [except_map_bind]
      rfl

theorem javaEndpoints_rename (types : List OpenType) (methods : List (Nat × DeclaredMethod)) :
    javaEndpoints (f file) types methods
      = (javaEndpoints file types methods).map (List.map (.rename f)) := by
  rw [javaEndpoints, javaEndpoints, except_map_bind]
  refine except_bind_of_map (mapM_eq_map (g := Option.map (.rename f)) ?_) fun found => ?_
  · rintro ⟨number, m⟩ -
    dsimp only
    cases types[number]? with
    | none => rfl
    | some type => exact javaEndpoint?_rename f file type.info m
  · exact congrArg Except.ok (filterMap_id_map _ found)

theorem actionEndpoint?_rename (owner : TypeDecl) (base? : Option (List Char))
    (m : DeclaredMethod) :
    actionEndpoint? (f file) owner base? m
      = (actionEndpoint? file owner base? m).map (Option.map (.rename f)) := by
  simp only [actionEndpoint?, except_map_bind]
  refine bind_congr fun route => ?_
  cases route with
  | none => rfl
  | some route =>
      simp only [except_map_bind]
      rfl

theorem typeEndpoints_rename (source : SourceText) (methods : List DeclaredMethod)
    (type : OpenType) :
    typeEndpoints source (f file) methods type
      = (typeEndpoints source file methods type).map (List.map (.rename f)) := by
  have hone : ∀ base?, actionEndpoint? (f file) type.info base?
      = fun m => (actionEndpoint? file type.info base? m).map (Option.map (.rename f)) :=
    fun base? => funext (actionEndpoint?_rename f file type.info base?)
  simp only [typeEndpoints, hone, mapM_map, except_map_bind, except_bind_map]
  refine bind_congr fun base? => bind_congr fun found => ?_
  exact congrArg Except.ok (filterMap_id_map _ found)

theorem actionEndpoints_rename (source : SourceText) (types : List OpenType)
    (methods : List DeclaredMethod) :
    actionEndpoints source (f file) types methods
      = (actionEndpoints source file types methods).map (List.map (.rename f)) := by
  have hone : typeEndpoints source (f file) methods
      = fun type => (typeEndpoints source file methods type).map (List.map (.rename f)) :=
    funext (typeEndpoints_rename f file source methods)
  simp only [actionEndpoints, hone, mapM_map, except_map_bind, except_bind_map]
  exact bind_congr fun found => congrArg Except.ok List.map_flatten.symm

theorem mappedEndpoint_rename (source : SourceText) (groups : Groups) (m : Match) :
    mappedEndpoint source (f file) groups m
      = (mappedEndpoint source file groups m).map (.rename f) := by
  simp only [mappedEndpoint, except_map_bind]
  rfl

theorem mappedEndpoints_rename (source : SourceText) :
    mappedEndpoints source (f file)
      = (mappedEndpoints source file).map (List.map (.rename f)) := by
  have hone : ∀ groups, mappedEndpoint source (f file) groups
      = fun m => (mappedEndpoint source file groups m).map (.rename f) :=
    fun groups => funext (mappedEndpoint_rename f file source groups)
  simp only [mappedEndpoints, hone, mapM_map]

end Endpoint

namespace SourceFile

variable (path : String)

theorem readGo_rename (source : SourceText) :
    readGo (f path) source = (readGo path source).map (.rename f) := by
  simp only [readGo, goEndpoints_rename, except_map_bind, except_bind_map]
  rfl

theorem readJava_rename (source : SourceText) :
    readJava (f path) source = (readJava path source).map (.rename f) := by
  simp only [readJava, javaEndpoints_rename, except_map_bind, except_bind_map]
  rfl

theorem readCSharp_rename (source : SourceText) :
    readCSharp (f path) source = (readCSharp path source).map (.rename f) := by
  simp only [readCSharp, actionEndpoints_rename, mappedEndpoints_rename, except_map_bind,
    except_bind_map]
  refine bind_congr fun types => bind_congr fun methods => ?_
  refine bind_congr fun actions => bind_congr fun mapped => ?_
  exact congrArg Except.ok (congrArg (fun endpoints => ({
    path := f path
    language := .csharp
    endpoints
    types := withMethods types (ownedMethods types source.masked methods)
    functions := (ownedMethods types source.masked methods).map fun entry => entry.2.info }
      : SourceFile)) List.map_append.symm)

/-- **Reading does not look at the name.** -/
theorem read_rename (language : Language) (text : List Char) :
    read language (f path) text = (read language path text).map (.rename f) := by
  cases language with
  | go => exact readGo_rename f path _
  | java => exact readJava_rename f path _
  | csharp => exact readCSharp_rename f path _

end SourceFile

end ServiceMap
