import ServiceMap.Service.Context

/-!
# Dependency graphs

The files and edges that touch one service, files by their base names.
-/

namespace ServiceMap

/-- An edge between two base names. -/
structure GraphEdge where
  source : String
  target : String
  kind : EdgeKind
deriving DecidableEq, Repr

/-- The part of the dependencies that touches one service. -/
structure DependencyGraph where
  nodes : List String := []
  edges : List GraphEdge := []
deriving DecidableEq, Repr

namespace DependencyGraph

/-- Texts in rising order and without repetition. -/
def sorted (texts : List String) : List String :=
  (texts.mergeSort fun a b => decide (a ≤ b)).eraseReps

/-- The nodes as they are listed: in rising order and without repetition. -/
def sortedNodes (g : DependencyGraph) : List String :=
  sorted g.nodes

/-- The graph with one more edge between base names. -/
def add (g : DependencyGraph) (e : Edge) : DependencyGraph :=
  let source := Path.baseName e.source
  let target := Path.baseName e.target
  ⟨g.nodes ++ [source, target], g.edges ++ [⟨source, target, e.kind⟩]⟩

/-- Whether an edge starts or ends at a file of the service. -/
def touches (workingDirectory : Path) (root : Option Path) (service : String) (e : Edge) : Bool :=
  Service.nameOf workingDirectory root e.source == service
    || Service.nameOf workingDirectory root e.target == service

/-- The graph of one service. -/
def ofEdges (workingDirectory : Path) (root : Option Path) (service : String)
    (edges : List Edge) : DependencyGraph :=
  (edges.filter (touches workingDirectory root service)).foldl add {}

/-- The graph of one service, unless the service of an edge's end cannot be told. -/
def graphOf (workingDirectory : Path) (root : Option Path) (service : String)
    (edges : List Edge) : Except Fault DependencyGraph :=
  Service.unlessNameless root (edges.flatMap fun e => [e.source, e.target])
    (ofEdges workingDirectory root service edges)

/-- Two graphs as one. -/
def merge (g h : DependencyGraph) : DependencyGraph :=
  ⟨g.nodes ++ h.nodes, g.edges ++ h.edges⟩

end DependencyGraph

end ServiceMap
