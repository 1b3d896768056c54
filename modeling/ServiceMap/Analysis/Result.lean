import ServiceMap.Service.Graph

/-!
# Results

What the analysis of one root directory yields, and what several results yield together.
-/

namespace ServiceMap

/-- Counts over a result. -/
structure Statistics where
  files : Nat := 0
  services : Nat := 0
  edges : Nat := 0
  skipped : Nat := 0
deriving DecidableEq, Repr

/-- Counts over two results together. -/
def Statistics.add (a b : Statistics) : Statistics :=
  ⟨a.files + b.files, a.services + b.services, a.edges + b.edges, a.skipped + b.skipped⟩

/-- The outcome of the analysis of one root. -/
structure AnalysisResult where
  root : String
  contexts : List ServiceContext
  edges : List Edge
  crossReferences : List CrossReference := []
  skippedFiles : List String := []
deriving DecidableEq, Repr

namespace AnalysisResult

/-- The first context of a service. -/
def context? (r : AnalysisResult) (service : String) : Option ServiceContext :=
  r.contexts.find? fun c => c.name == service

/-- The counts of a result. -/
def statistics (r : AnalysisResult) : Statistics :=
  { files := r.contexts.foldr (fun c count => c.memberFiles.length + count) 0
    services := r.contexts.length
    edges := r.edges.length
    skipped := r.skippedFiles.length }

/-- The counts of several results together. -/
def combinedStatistics (results : List AnalysisResult) : Statistics :=
  (results.map statistics).foldl Statistics.add {}

/-- The dependency graph of a service within one result. -/
def graph (workingDirectory : Path) (r : AnalysisResult) (service : String) : DependencyGraph :=
  DependencyGraph.ofEdges workingDirectory (some (Path.ofString r.root)) service r.edges

/-- The dependency graphs of a service in several results, as one. -/
def combinedGraph (workingDirectory : Path) (results : List AnalysisResult) (service : String) :
    DependencyGraph :=
  (results.map fun r => r.graph workingDirectory service).foldl DependencyGraph.merge {}

/-- The dependency graphs of a service in several results, as one, unless the service of an edge's
end cannot be told. -/
def combinedGraphOf (workingDirectory : Path) (results : List AnalysisResult)
    (service : String) : Except Fault DependencyGraph := do
  let graphs ← results.mapM fun r =>
    DependencyGraph.graphOf workingDirectory (some (Path.ofString r.root)) service r.edges
  return graphs.foldl DependencyGraph.merge {}

end AnalysisResult

end ServiceMap
