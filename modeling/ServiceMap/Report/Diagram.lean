import ServiceMap.Service.Context

/-!
# Dependency diagrams

A service's component files as nodes of a diagram, and the edges between them. A node goes by the
base name of its file without ending.
-/

namespace ServiceMap.Report

open Text

/-- A base name without what follows its last dot; dots in front do not count. -/
def withoutEnding (name : List Char) : List Char :=
  match findLast? '.' name with
  | some i => if (name.take i).all (· == '.') then name else name.take i
  | none => name

/-- The node of a file. -/
def nodeName (file : String) : String :=
  String.ofList (withoutEnding (Path.baseName file).toList)

/-- The files that are nodes: controllers, services, models and repositories. -/
def componentFiles (c : ServiceContext) : List SourceFile :=
  c.controllers ++ c.services ++ c.models ++ c.repositories

/-- The nodes of a context's diagram, each once, in the order of the files. -/
def nodes (c : ServiceContext) : List String :=
  (componentFiles c).foldl (fun found file =>
    let node := nodeName file.path
    if found.contains node then found else found ++ [node]) []

/-- The edge of a diagram, if both of its ends are nodes. -/
def edgeLine? (nodes : List String) (e : Edge) : Option String :=
  let source := nodeName e.source
  let target := nodeName e.target
  if nodes.contains source && nodes.contains target then
    some ("    " ++ source ++ " -->|" ++ e.kind.label ++ "| " ++ target)
  else none

/-- The diagram of a context. -/
def diagram (c : ServiceContext) : String :=
  let nodes := nodes c
  "\n".intercalate
    (["\x60\x60\x60mermaid", "graph TD"]
      ++ nodes.map (fun node => "    " ++ node ++ "[" ++ node ++ "]")
      ++ c.edges.filterMap (edgeLine? nodes)
      ++ ["\x60\x60\x60"])

end ServiceMap.Report
