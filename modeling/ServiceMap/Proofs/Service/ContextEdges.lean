import Mathlib.Data.String.Basic
import ServiceMap.Proofs.Service.Positions
import ServiceMap.Report.Export

/-!
# Edges and services

Which contexts an edge stands in, and that the dependency graph of a service shows the edges of its
context. The graph asks for the services of both ends of every edge, the contexts are put together
from the files of each service; for edges between files of the table the two agree.
-/

namespace ServiceMap

namespace Service

variable {workingDirectory : Path} {root : Option Path} {table : FileTable}

/-! ## The context of a service -/

theorem mem_assemble_groups {edges : List Edge} {rootText : String} {c : ServiceContext} :
    c ∈ assemble (groups workingDirectory root table.paths) table edges rootText ↔
      ∃ group ∈ groups workingDirectory root table.paths,
        buildContextBy (indexEdges edges) group.1 rootText group.2 table edges = c := by
  rw [assemble_groups, List.mem_map]

/-- A context holds the files of the table that belong to its service. -/
theorem mem_memberFiles_of_group {group : Group}
    (h : group ∈ groups workingDirectory root table.paths) (index : EdgeIndex) (rootText : String)
    (edges : List Edge) (file : String) :
    file ∈ (buildContextBy index group.1 rootText group.2 table edges).memberFiles ↔
      file ∈ table.paths ∧ nameOf workingDirectory root file = group.1 := by
  have hfiles := mem_paths_of_mem_groups h
  rw [(memberFiles_buildContextBy index group.1 rootText edges hfiles).mem_iff, (mem_groups h).1,
    mem_membersOf]

/-- A context has the edges that touch its files, in their order. -/
theorem edges_of_group {group : Group} (h : group ∈ groups workingDirectory root table.paths)
    (rootText : String) (edges : List Edge) :
    (buildContextBy (indexEdges edges) group.1 rootText group.2 table edges).edges
      = edgesTouching (buildContextBy (indexEdges edges) group.1 rootText group.2 table
          edges).memberFiles edges := by
  have hperm := memberFiles_buildContextBy (indexEdges edges) group.1 rootText edges
    (mem_paths_of_mem_groups h)
  rw [← filterMap_positionsTouching, positionsTouching_congr (fun _ => hperm.mem_iff),
    filterMap_positionsTouching, ← edgesTouchingBy_indexEdges]
  rfl

/-! ## How many contexts an edge stands in -/

/-- The services at the two ends of an edge, as far as these are files of the table. -/
def endServices (workingDirectory : Path) (root : Option Path) (table : FileTable) (e : Edge) :
    List String :=
  (([e.source, e.target].filter table.paths.contains).map (nameOf workingDirectory root)).eraseDups

theorem mem_endServices {e : Edge} {name : String} :
    name ∈ endServices workingDirectory root table e ↔
      ∃ file, (file = e.source ∨ file = e.target) ∧ file ∈ table.paths
        ∧ nameOf workingDirectory root file = name := by
  rw [endServices, List.mem_eraseDups, List.mem_map]
  simp only [List.mem_filter, List.mem_cons, List.not_mem_nil, or_false, List.contains_iff_mem,
    and_assoc]

/-- A context has the position of an edge if its service is one of those at the ends. -/
theorem mem_positions_of_group {group : Group}
    (h : group ∈ groups workingDirectory root table.paths) (rootText : String)
    {edges : List Edge} {i : Nat} {e : Edge} (he : edges[i]? = some e) :
    i ∈ positionsTouching (buildContextBy (indexEdges edges) group.1 rootText group.2 table
        edges).memberFiles edges
      ↔ group.1 ∈ endServices workingDirectory root table e := by
  rw [mem_positionsTouching, mem_endServices]
  simp only [he, Option.some.injEq, exists_eq_left', isTouched_iff, mem_memberFiles_of_group h]
  constructor
  · rintro (hsource | htarget)
    · exact ⟨e.source, Or.inl rfl, hsource⟩
    · exact ⟨e.target, Or.inr rfl, htarget⟩
  · rintro ⟨file, rfl | rfl, hfile⟩
    · exact Or.inl hfile
    · exact Or.inr hfile

/-- Things without repetition among others without repetition are counted once each. -/
theorem countP_contains_of_nodup {α : Type} [BEq α] [LawfulBEq α] {xs ys : List α}
    (hxs : xs.Nodup) (hys : ys.Nodup) (hsub : ∀ a ∈ ys, a ∈ xs) :
    xs.countP ys.contains = ys.length := by
  have hperm : (xs.filter ys.contains).Perm ys := by
    refine (List.perm_ext_iff_of_nodup (hxs.filter _) hys).mpr fun a => ?_
    rw [List.mem_filter, List.contains_iff_mem]
    exact ⟨fun h => h.2, fun h => ⟨hsub a h, h⟩⟩
  rw [List.countP_eq_length_filter, hperm.length_eq]

/-- **Edges are shared out.** Each context of a table's own groups has the edges that start or end
at one of its files, each position once and in rising order; and the position of an edge stands in
as many contexts as there are services at those of its ends that are in the table. -/
theorem contexts_share_out_the_edges (workingDirectory : Path) (root : Option Path)
    (table : FileTable) (edges : List Edge) (rootText : String) :
    (∀ c ∈ assemble (groups workingDirectory root table.paths) table edges rootText,
      c.edges = (positionsTouching c.memberFiles edges).filterMap (edges[·]?)
        ∧ (positionsTouching c.memberFiles edges).Pairwise (· < ·)
        ∧ ∀ i, i ∈ positionsTouching c.memberFiles edges ↔
            ∃ e, edges[i]? = some e ∧ (e.source ∈ c.memberFiles ∨ e.target ∈ c.memberFiles))
      ∧ ∀ i e, edges[i]? = some e →
        (assemble (groups workingDirectory root table.paths) table edges rootText).countP
            (fun c => (positionsTouching c.memberFiles edges).contains i)
          = (endServices workingDirectory root table e).length := by
  constructor
  · intro c hc
    obtain ⟨group, hgroup, rfl⟩ := mem_assemble_groups.mp hc
    refine ⟨?_, positionsTouching_rising _ edges, fun i => ?_⟩
    · rw [filterMap_positionsTouching]
      exact edges_of_group hgroup rootText edges
    · simp only [mem_positionsTouching, isTouched_iff]
  · intro i e he
    have hcount : ∀ group ∈ groups workingDirectory root table.paths,
        (positionsTouching (buildContextBy (indexEdges edges) group.1 rootText group.2 table
            edges).memberFiles edges).contains i = true
          ↔ (endServices workingDirectory root table e).contains group.1 = true := by
      intro group hgroup
      rw [List.contains_iff_mem, List.contains_iff_mem]
      exact mem_positions_of_group hgroup rootText he
    have hnames : ∀ name ∈ endServices workingDirectory root table e,
        name ∈ (table.paths.map (nameOf workingDirectory root)).eraseDups := by
      intro name hname
      obtain ⟨file, -, hfile, hservice⟩ := mem_endServices.mp hname
      exact List.mem_eraseDups.mpr (List.mem_map.mpr ⟨file, hfile, hservice⟩)
    rw [assemble_groups, List.countP_map]
    calc (groups workingDirectory root table.paths).countP _
        = (groups workingDirectory root table.paths).countP
            ((endServices workingDirectory root table e).contains ∘ Prod.fst) :=
          List.countP_congr hcount
      _ = ((table.paths.map (nameOf workingDirectory root)).eraseDups).countP
            (endServices workingDirectory root table e).contains := by
          rw [← map_fst_groups, List.countP_map]
      _ = (endServices workingDirectory root table e).length :=
          countP_contains_of_nodup (nodup_eraseDups _) (nodup_eraseDups _) hnames

end Service

/-! ## Dependency graphs -/

/-- An edge between the base names of its ends. -/
def GraphEdge.ofEdge (e : Edge) : GraphEdge :=
  ⟨Path.baseName e.source, Path.baseName e.target, e.kind⟩

namespace DependencyGraph

open Service

/-- Adding edges one by one to a graph. -/
theorem foldl_add (edges : List Edge) (g : DependencyGraph) :
    edges.foldl add g
      = ⟨g.nodes ++ (edges.map GraphEdge.ofEdge).flatMap (fun e => [e.source, e.target]),
          g.edges ++ edges.map GraphEdge.ofEdge⟩ := by
  induction edges generalizing g with
  | nil => simp
  | cons e edges ih =>
      rw [List.foldl_cons, ih]
      simp [add, GraphEdge.ofEdge, List.append_assoc]

/-- The nodes of a service's graph are the ends of its edges. -/
theorem ofEdges_eq (workingDirectory : Path) (root : Option Path) (service : String)
    (edges : List Edge) :
    ofEdges workingDirectory root service edges
      = ⟨((edges.filter (touches workingDirectory root service)).map GraphEdge.ofEdge).flatMap
            (fun e => [e.source, e.target]),
          (edges.filter (touches workingDirectory root service)).map GraphEdge.ofEdge⟩ := by
  rw [ofEdges, foldl_add]
  rfl

theorem touches_iff {workingDirectory : Path} {root : Option Path} {service : String} {e : Edge} :
    touches workingDirectory root service e = true ↔
      nameOf workingDirectory root e.source = service
        ∨ nameOf workingDirectory root e.target = service := by
  rw [touches, Bool.or_eq_true, beq_iff_eq, beq_iff_eq]

/-- An edge between files of the table touches a service if it touches one of the service's
files. -/
theorem filter_touches {workingDirectory : Path} {root : Option Path} {table : FileTable}
    {edges : List Edge} (hends : ∀ e ∈ edges, e.source ∈ table.paths ∧ e.target ∈ table.paths)
    {group : Group} (h : group ∈ groups workingDirectory root table.paths) (index : EdgeIndex)
    (rootText : String) :
    edges.filter (touches workingDirectory root group.1)
      = edgesTouching (buildContextBy index group.1 rootText group.2 table edges).memberFiles
          edges := by
  rw [edgesTouching_eq]
  refine List.filter_congr fun e he => ?_
  obtain ⟨hsource, htarget⟩ := hends e he
  rw [Bool.eq_iff_iff, touches_iff, isTouched_iff, mem_memberFiles_of_group h,
    mem_memberFiles_of_group h]
  simp only [hsource, htarget, true_and]

/-- If the services of a table's files can be told, so can those of edges between them. -/
theorem graphOf_eq_ok {workingDirectory : Path} {root : Option Path} {table : FileTable}
    {edges : List Edge} (hends : ∀ e ∈ edges, e.source ∈ table.paths ∧ e.target ∈ table.paths)
    {found : List Group} (hgroups : groupsOf workingDirectory root table.paths = .ok found)
    (service : String) :
    found = groups workingDirectory root table.paths
      ∧ graphOf workingDirectory root service edges
        = .ok (ofEdges workingDirectory root service edges) := by
  unfold groupsOf unlessNameless at hgroups
  split at hgroups
  · exact nomatch hgroups
  · rename_i hnamed
    refine ⟨(Except.ok.inj hgroups).symm, ?_⟩
    rw [graphOf, unlessNameless, if_neg]
    intro hnameless
    obtain ⟨file, hfile, hfault⟩ := List.any_eq_true.mp hnameless
    obtain ⟨e, he, hend⟩ := List.mem_flatMap.mp hfile
    have hmem : file ∈ table.paths := by
      rcases List.mem_cons.mp hend with rfl | hend
      · exact (hends e he).1
      · exact List.mem_singleton.mp hend ▸ (hends e he).2
    exact hnamed (List.any_eq_true.mpr ⟨file, hmem, hfault⟩)

/-- **A service's graph shows its context.** For edges between files of a table that can be grouped,
every service has a graph. Its edges are those of the context of that name, between base names, or
none if there is no such context; its nodes are the ends of its edges, and its report lists them in
rising order, each once. -/
theorem graph_shows_the_context {workingDirectory : Path} {root : Option Path} {table : FileTable}
    {edges : List Edge} (hends : ∀ e ∈ edges, e.source ∈ table.paths ∧ e.target ∈ table.paths)
    {found : List Group} (hgroups : groupsOf workingDirectory root table.paths = .ok found)
    (service rootText : String) :
    ∃ graph, graphOf workingDirectory root service edges = .ok graph
      ∧ (∀ c ∈ assemble found table edges rootText, c.name = service →
          graph.edges = c.edges.map GraphEdge.ofEdge)
      ∧ ((∀ c ∈ assemble found table edges rootText, c.name ≠ service) → graph.edges = [])
      ∧ (∀ node, node ∈ graph.nodes ↔ ∃ e ∈ graph.edges, node = e.source ∨ node = e.target)
      ∧ ∃ listed : List String,
          graph.toJson = .obj [("nodes", .arr (listed.map .str)),
            ("edges", .arr (graph.edges.map GraphEdge.toJson))]
          ∧ listed.Pairwise (· < ·) ∧ ∀ node, node ∈ listed ↔ node ∈ graph.nodes := by
  obtain ⟨rfl, hgraph⟩ := graphOf_eq_ok hends hgroups service
  have hnames : ∀ c ∈ assemble (groups workingDirectory root table.paths) table edges rootText,
      c.name = service → (edges.filter (touches workingDirectory root service)) = c.edges := by
    intro c hc hname
    obtain ⟨group, hgroup, rfl⟩ := mem_assemble_groups.mp hc
    rw [name_buildContextBy] at hname
    subst hname
    rw [filter_touches hends hgroup (indexEdges edges) rootText]
    exact (edges_of_group hgroup rootText edges).symm
  refine ⟨_, hgraph, ?_, ?_, ?_, _, rfl, eraseReps_mergeSort _⟩
  · intro c hc hname
    rw [ofEdges_eq, hnames c hc hname]
  · intro hnone
    rw [ofEdges_eq, List.map_eq_nil_iff, List.filter_eq_nil_iff]
    intro e he htouches
    -- an end of the service is a file of the table, so that the service has a group
    obtain ⟨file, hfile, hname⟩ : ∃ file ∈ table.paths,
        nameOf workingDirectory root file = service := by
      rcases touches_iff.mp htouches with hname | hname
      · exact ⟨e.source, (hends e he).1, hname⟩
      · exact ⟨e.target, (hends e he).2, hname⟩
    have hservice : service ∈ (groups workingDirectory root table.paths).map Prod.fst := by
      rw [map_fst_groups, List.mem_eraseDups]
      exact List.mem_map.mpr ⟨file, hfile, hname⟩
    obtain ⟨group, hgroup, rfl⟩ := List.mem_map.mp hservice
    exact hnone _ (mem_assemble_groups.mpr ⟨group, hgroup, rfl⟩) (name_buildContextBy ..)
  · intro node
    rw [ofEdges_eq]
    simp only [List.mem_flatMap, List.mem_cons, List.not_mem_nil, or_false]

/-- Two files of a service and one that lies in the root. -/
def threeFiles : FileTable :=
  [{ path := "/p/UserController.java", language := .java },
    { path := "/p/UserService.java", language := .java },
    { path := "/p/Main.java", language := .java }]

/-- An edge inside the service, one that leads into it, and one that starts and ends outside. -/
def threeEdges : List Edge :=
  [⟨"/p/UserController.java", "/p/UserService.java", .imports, ""⟩,
    ⟨"/p/Main.java", "/p/UserController.java", .imports, ""⟩,
    ⟨"/p/Main.java", "/p/Main.java", .references, ""⟩]

theorem graph_of_three_edges :
    (∀ e ∈ threeEdges, e.source ∈ threeFiles.paths ∧ e.target ∈ threeFiles.paths)
      ∧ ∃ graph, graphOf ⟨1, []⟩ (some ⟨1, ["p"]⟩) "User" threeEdges = .ok graph
        ∧ graph.edges = [⟨"UserController.java", "UserService.java", .imports⟩,
            ⟨"Main.java", "UserController.java", .imports⟩] := by
  have hends : ∀ e ∈ threeEdges, e.source ∈ threeFiles.paths ∧ e.target ∈ threeFiles.paths := by
    decide
  have hgroups : groupsOf ⟨1, []⟩ (some ⟨1, ["p"]⟩) threeFiles.paths
      = .ok [("User", ["/p/UserController.java", "/p/UserService.java"]),
          ("Root", ["/p/Main.java"])] := by
    decide +kernel
  obtain ⟨graph, hgraph, hedges, -⟩ := graph_shows_the_context hends hgroups "User" "/p"
  refine ⟨hends, graph, hgraph, ?_⟩
  -- the context of the service is the first of the two
  have hcontext : buildContextBy (indexEdges threeEdges) "User" "/p"
      ["/p/UserController.java", "/p/UserService.java"] threeFiles threeEdges
        ∈ assemble [("User", ["/p/UserController.java", "/p/UserService.java"]),
          ("Root", ["/p/Main.java"])] threeFiles threeEdges "/p" :=
    List.mem_cons_self
  rw [hedges _ hcontext (name_buildContextBy ..)]
  show (edgesTouchingBy (indexEdges threeEdges) _ threeEdges).map GraphEdge.ofEdge = _
  rw [edgesTouchingBy_indexEdges]
  decide +kernel

end DependencyGraph

end ServiceMap
