import ServiceMap.Proofs.Service.Context
import ServiceMap.Report.Diagram

/-!
# What a dependency diagram shows

A diagram is drawn of the component files of a service, but its nodes are names: files of one base
name, in different directories or of different languages, are one node, and an edge is drawn when the
names of its ends are nodes, whichever files these are. So a diagram shows the component files and the
edges between them just when names tell apart what is drawn: no two component files share a node, and no
edge that leads from node to node starts or ends at a file that is no component.
-/

namespace ServiceMap

/-! ## Each thing where it is first met -/

section FirstMet

variable {α β : Type} [BEq β] [LawfulBEq β]

/-- Adding to a list what is not there yet. -/
theorem foldl_firstMet (f : α → β) (xs : List α) :
    xs.foldl (fun found a => if found.contains (f a) then found else found ++ [f a]) []
      = (xs.map f).eraseDups := by
  induction xs using List.reverseRecOn with
  | nil => rfl
  | append_singleton xs a ih =>
      rw [List.foldl_append, ih, List.map_append, List.foldl_cons, List.foldl_nil, List.map_singleton]
      by_cases h : f a ∈ xs.map f
      · rw [eraseDups_snoc_of_mem h, if_pos]
        exact List.contains_iff_mem.mpr (List.mem_eraseDups.mpr h)
      · rw [eraseDups_snoc_of_not_mem h, if_neg]
        rw [List.contains_iff_mem, List.mem_eraseDups]
        exact h

variable [BEq α] [LawfulBEq α]

/-- Repetitions that are left out early would have been left out later. -/
theorem eraseDups_map_eraseDups (f : α → β) (xs : List α) :
    (xs.eraseDups.map f).eraseDups = (xs.map f).eraseDups := by
  induction xs using List.reverseRecOn with
  | nil => rfl
  | append_singleton xs a ih =>
      rw [List.map_append, List.map_singleton]
      by_cases ha : a ∈ xs
      · rw [eraseDups_snoc_of_mem ha, eraseDups_snoc_of_mem (List.mem_map_of_mem ha), ih]
      · rw [eraseDups_snoc_of_not_mem ha, List.map_append, List.map_singleton]
        by_cases hf : f a ∈ xs.map f
        · rw [eraseDups_snoc_of_mem hf, eraseDups_snoc_of_mem, ih]
          obtain ⟨b, hb, hfb⟩ := List.mem_map.mp hf
          exact List.mem_map.mpr ⟨b, List.mem_eraseDups.mpr hb, hfb⟩
        · rw [eraseDups_snoc_of_not_mem hf, eraseDups_snoc_of_not_mem, ih]
          intro hmem
          obtain ⟨b, hb, hfb⟩ := List.mem_map.mp hmem
          exact hf (List.mem_map.mpr ⟨b, List.mem_eraseDups.mp hb, hfb⟩)

theorem eraseDups_eq_self_iff {xs : List α} : xs.eraseDups = xs ↔ xs.Nodup := by
  constructor
  · intro h
    rw [← h]
    exact nodup_eraseDups xs
  · intro h
    induction xs using List.reverseRecOn with
    | nil => rfl
    | append_singleton xs a ih =>
        obtain ⟨hxs, -, hdisjoint⟩ := List.nodup_append.mp h
        have ha : a ∉ xs := fun hmem =>
          hdisjoint a hmem a (List.mem_singleton_self a) rfl
        rw [eraseDups_snoc_of_not_mem ha, ih hxs]

end FirstMet

namespace Report

variable {c : ServiceContext} {e : Edge}

/-! ## What a diagram should show -/

/-- The component files of a service by their paths, each once, in their order. -/
def componentPaths (c : ServiceContext) : List String :=
  ((componentFiles c).map SourceFile.path).eraseDups

/-- Whether an edge starts and ends at component files. -/
def joinsComponents (c : ServiceContext) (e : Edge) : Bool :=
  (componentPaths c).contains e.source && (componentPaths c).contains e.target

/-- Whether the names of both ends of an edge are nodes. -/
def joinsNodes (c : ServiceContext) (e : Edge) : Bool :=
  (nodes c).contains (nodeName e.source) && (nodes c).contains (nodeName e.target)

/-- The line of a node. -/
def nodeLine (node : String) : String :=
  "    " ++ node ++ "[" ++ node ++ "]"

/-- The line of an edge. -/
def edgeLine (e : Edge) : String :=
  "    " ++ nodeName e.source ++ " -->|" ++ e.kind.label ++ "| " ++ nodeName e.target

/-- The edges that are drawn, in their order. -/
def drawnEdges (c : ServiceContext) : List Edge :=
  c.edges.filter (joinsNodes c)

/-- The edges between component files, in their order. -/
def componentEdges (c : ServiceContext) : List Edge :=
  c.edges.filter (joinsComponents c)

/-- **The diagram of component files**: a node of its own for each of them, and the lines of the edges
between them, one for each. -/
structure ShowsComponents (c : ServiceContext) : Prop where
  nodes : nodes c = (componentPaths c).map nodeName
  edges : c.edges.filterMap (edgeLine? (Report.nodes c)) = (componentEdges c).map edgeLine

/-- Names tell apart what is drawn. -/
structure NamesTellApart (c : ServiceContext) : Prop where
  /-- Different component files have different names. -/
  files : (componentPaths c).Pairwise fun a b => nodeName a ≠ nodeName b
  /-- An edge between two nodes is one between component files. -/
  edges : ∀ e ∈ c.edges, joinsNodes c e = true → joinsComponents c e = true

/-! ## What it shows -/

theorem nodes_eq (c : ServiceContext) : nodes c = ((componentPaths c).map nodeName).eraseDups := by
  rw [componentPaths, eraseDups_map_eraseDups, List.map_map]
  exact foldl_firstMet (fun file : SourceFile => nodeName file.path) (componentFiles c)

theorem mem_nodes {node : String} :
    node ∈ nodes c ↔ ∃ file ∈ componentPaths c, nodeName file = node := by
  rw [nodes_eq, List.mem_eraseDups, List.mem_map]

theorem lines_eq (c : ServiceContext) :
    c.edges.filterMap (edgeLine? (nodes c)) = (drawnEdges c).map edgeLine := by
  rw [drawnEdges, ← List.filterMap_eq_map, List.filterMap_filter]
  rfl

/-- The names of component files are nodes. -/
theorem joinsNodes_of_joinsComponents (h : joinsComponents c e = true) : joinsNodes c e = true := by
  rw [joinsComponents, Bool.and_eq_true, List.contains_iff_mem, List.contains_iff_mem] at h
  rw [joinsNodes, Bool.and_eq_true, List.contains_iff_mem, List.contains_iff_mem]
  exact ⟨mem_nodes.mpr ⟨_, h.1, rfl⟩, mem_nodes.mpr ⟨_, h.2, rfl⟩⟩

/-- No edge between component files is missing. -/
theorem componentEdges_sublist (c : ServiceContext) :
    (componentEdges c).Sublist (drawnEdges c) :=
  List.monotone_filter_right c.edges fun _ => joinsNodes_of_joinsComponents

/-- There are as many lines as there are edges between component files only if no other edge is
drawn. -/
theorem drawnEdges_eq_iff :
    c.edges.filterMap (edgeLine? (nodes c)) = (componentEdges c).map edgeLine
      ↔ ∀ e ∈ c.edges, joinsNodes c e = true → joinsComponents c e = true := by
  rw [lines_eq]
  constructor
  · intro hlines
    have hlength := congrArg List.length hlines
    rw [List.length_map, List.length_map] at hlength
    have hdrawn := (componentEdges_sublist c).eq_of_length hlength.symm
    intro e he hnodes
    have hmem : e ∈ componentEdges c := by
      rw [hdrawn]
      exact List.mem_filter.mpr ⟨he, hnodes⟩
    exact (List.mem_filter.mp hmem).2
  · intro honly
    refine congrArg (List.map edgeLine) (List.filter_congr fun e he => ?_)
    exact Bool.eq_iff_iff.mpr ⟨honly e he, joinsNodes_of_joinsComponents⟩

/-- **Diagrams of component files.** The lines of a diagram are those of its nodes and of the edges
drawn between them. The nodes are the names of the component files, each once; every edge between
component files is drawn, in the order of the edges. This is the diagram of the component files just
when names tell apart what is drawn. -/
theorem diagram_shows_components_iff (c : ServiceContext) :
    diagram c = "\n".intercalate (["\x60\x60\x60mermaid", "graph TD"] ++ (nodes c).map nodeLine
        ++ (drawnEdges c).map edgeLine ++ ["\x60\x60\x60"])
      ∧ (nodes c).Nodup
      ∧ (∀ node, node ∈ nodes c ↔ ∃ file ∈ componentPaths c, nodeName file = node)
      ∧ (componentEdges c).Sublist (drawnEdges c)
      ∧ (ShowsComponents c ↔ NamesTellApart c) := by
  refine ⟨?_, ?_, fun _ => mem_nodes, componentEdges_sublist c, ?_⟩
  · rw [← lines_eq]
    rfl
  · rw [nodes_eq]
    exact nodup_eraseDups _
  · have hnodes : nodes c = (componentPaths c).map nodeName
        ↔ (componentPaths c).Pairwise fun a b => nodeName a ≠ nodeName b := by
      rw [nodes_eq, eraseDups_eq_self_iff, List.Nodup, List.pairwise_map]
    constructor
    · intro h
      exact ⟨hnodes.mp h.nodes, drawnEdges_eq_iff.mp h.edges⟩
    · intro h
      exact ⟨hnodes.mpr h.files, drawnEdges_eq_iff.mpr h.edges⟩

/-- A service of one file, which imports a file of the same name in another directory. -/
def importOfNamesake : ServiceContext where
  name := "services"
  root := "/p"
  services := [{ path := "/p/services/store.go", language := .go }]
  edges := [⟨"/p/services/store.go", "/p/util/store.go", .imports, "../util/store"⟩]

/-- The edge to a file that is no component is drawn, as one from the node to itself. -/
theorem import_of_namesake_is_drawn :
    diagram importOfNamesake = "\n".intercalate ["\x60\x60\x60mermaid", "graph TD",
        "    store[store]", "    store -->|import| store", "\x60\x60\x60"]
      ∧ componentEdges importOfNamesake = []
      ∧ ¬ShowsComponents importOfNamesake := by
  have hdrawn : joinsNodes importOfNamesake
      ⟨"/p/services/store.go", "/p/util/store.go", .imports, "../util/store"⟩ = true := by
    decide +kernel
  refine ⟨by decide +kernel, by decide +kernel, fun h => ?_⟩
  have hedges := drawnEdges_eq_iff.mp h.edges _ List.mem_cons_self hdrawn
  exact absurd hedges (by decide +kernel)

end Report

end ServiceMap
