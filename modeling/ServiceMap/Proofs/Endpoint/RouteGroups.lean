import Mathlib.Data.List.Forall2
import Mathlib.Data.List.Induction
import Mathlib.Data.List.Pairwise
import ServiceMap.Proofs.Endpoint.Owner
import ServiceMap.Proofs.Pattern.Order

/-!
# Groups of routes

A variable stands for the path of a group from its assignment up to the next one. The groups of a
source are collected before its routes are read, so a route stands below the path that its variable
has at the end of the source. This is the path at the route itself if the variable is not assigned
again.
-/

namespace ServiceMap.Endpoint

open Text Source Declaration Pattern

/-! ## What a variable stands for -/

/-- At a position a variable stands for the path of the nearest assignment before it, below the path
that the parent stands for at the assignment. Without such an assignment it stands for nothing. -/
inductive StandsFor (assignments : List Match) : (index : Nat) → (name path : List Char) → Prop where
  | unassigned {index : Nat} {name : List Char}
      (none_before : ∀ m ∈ assignments, m.start < index → m.group 1 ≠ name) :
      StandsFor assignments index name []
  | assigned {index : Nat} {m : Match} {parent : List Char} (mem : m ∈ assignments)
      (start_lt : m.start < index)
      (nearest : ∀ n ∈ assignments, m.start < n.start → n.start < index → n.group 1 ≠ m.group 1)
      (below : StandsFor assignments m.start (m.group 2) parent) :
      StandsFor assignments index (m.group 1) (joinPaths parent (m.group 3))

/-- No two assignments start at one position, and they are listed in the order of their positions. -/
def InOrder (assignments : List Match) : Prop :=
  assignments.Pairwise fun m n => m.start < n.start

section

variable {assignments : List Match} {index : Nat} {name path : List Char}

theorem InOrder.eq_of_start (h : InOrder assignments) {m n : Match} (hm : m ∈ assignments)
    (hn : n ∈ assignments) (hstart : m.start = n.start) : m = n := by
  by_contra hne
  have hpair : assignments.Pairwise fun m n => m.start ≠ n.start := h.imp Nat.ne_of_lt
  have : Std.Symm fun m n : Match => m.start ≠ n.start := ⟨fun _ _ => Ne.symm⟩
  exact hpair.forall hm hn hne hstart

/-- A variable stands for one path at a position. -/
theorem StandsFor.unique (horder : InOrder assignments) (h : StandsFor assignments index name path) :
    ∀ {other : List Char}, StandsFor assignments index name other → path = other := by
  induction h with
  | unassigned none_before =>
      intro other hother
      cases hother with
      | unassigned => rfl
      | assigned mem start_lt => exact absurd rfl (none_before _ mem start_lt)
  | @assigned index m parent mem start_lt nearest _ ih =>
      intro other hother
      generalize hname : m.group 1 = name at hother
      cases hother with
      | unassigned none_before => exact absurd hname (none_before m mem start_lt)
      | @assigned _ n parent' mem' start_lt' nearest' below' =>
          obtain rfl : m = n := by
            refine horder.eq_of_start mem mem' (Nat.le_antisymm (Nat.le_of_not_lt ?_)
              (Nat.le_of_not_lt ?_))
            · exact fun hlt => nearest' m mem hlt start_lt hname
            · exact fun hlt => nearest n mem' hlt start_lt' hname.symm
          rw [ih below']

/-- Assignments at later positions do not matter. -/
theorem StandsFor.of_filter {bound : Nat}
    (h : StandsFor (assignments.filter fun m => m.start < bound) index name path)
    (hle : index ≤ bound) : StandsFor assignments index name path := by
  have hmem : ∀ {m : Match}, m ∈ assignments → m.start < bound →
      m ∈ assignments.filter fun m => m.start < bound :=
    fun hm hlt => List.mem_filter.mpr ⟨hm, decide_eq_true hlt⟩
  induction h with
  | unassigned none_before =>
      exact .unassigned fun m hm hlt => none_before m (hmem hm (by omega)) hlt
  | assigned mem start_lt nearest _ ih =>
      refine .assigned (List.mem_of_mem_filter mem) start_lt (fun n hn hlt hlt' => ?_) (ih (by omega))
      exact nearest n (hmem hn (by omega)) hlt hlt'

/-- A further assignment at or after a position does not matter. -/
theorem StandsFor.snoc {last : Match} (h : StandsFor assignments index name path)
    (hlast : index ≤ last.start) : StandsFor (assignments ++ [last]) index name path := by
  suffices hbefore : StandsFor ((assignments ++ [last]).filter fun m => m.start < last.start)
      index name path from hbefore.of_filter hlast
  induction h with
  | unassigned none_before =>
      refine .unassigned fun m hm hlt => ?_
      obtain ⟨hm, hbefore⟩ := List.mem_filter.mp hm
      rcases List.mem_append.mp hm with hm | hm
      · exact none_before m hm hlt
      · rw [List.mem_singleton.mp hm] at hbefore
        exact absurd (of_decide_eq_true hbefore) (Nat.lt_irrefl _)
  | assigned mem start_lt nearest _ ih =>
      refine .assigned (List.mem_filter.mpr ⟨List.mem_append_left _ mem, decide_eq_true (by omega)⟩)
        start_lt (fun n hn hlt hlt' => ?_) (ih (by omega))
      obtain ⟨hn, hbefore⟩ := List.mem_filter.mp hn
      rcases List.mem_append.mp hn with hn | hn
      · exact nearest n hn hlt hlt'
      · rw [List.mem_singleton.mp hn] at hbefore
        exact absurd (of_decide_eq_true hbefore) (Nat.lt_irrefl _)

/-- A further assignment to another variable does not matter. -/
theorem StandsFor.snoc_other {last : Match} (h : StandsFor assignments index name path)
    (hlast : ∀ m ∈ assignments, m.start < last.start) (hname : last.group 1 ≠ name) :
    StandsFor (assignments ++ [last]) index name path := by
  cases h with
  | unassigned none_before =>
      refine .unassigned fun m hm hlt => ?_
      rcases List.mem_append.mp hm with hm | hm
      · exact none_before m hm hlt
      · exact List.mem_singleton.mp hm ▸ hname
  | assigned mem start_lt nearest below =>
      refine .assigned (List.mem_append_left _ mem) start_lt (fun n hn hlt hlt' => ?_)
        (below.snoc (Nat.le_of_lt (hlast _ mem)))
      rcases List.mem_append.mp hn with hn | hn
      · exact nearest n hn hlt hlt'
      · exact List.mem_singleton.mp hn ▸ hname

/-- A variable that is not assigned from one position to another stands for one path at both. -/
theorem StandsFor.back {earlier : Nat} (h : StandsFor assignments index name path)
    (hle : earlier ≤ index)
    (hsettled : ∀ m ∈ assignments, earlier ≤ m.start → m.group 1 ≠ name) :
    StandsFor assignments earlier name path := by
  cases h with
  | unassigned none_before => exact .unassigned fun m hm hlt => none_before m hm (by omega)
  | assigned mem start_lt nearest below =>
      have hbefore := Nat.lt_of_not_le fun hle => hsettled _ mem hle rfl
      exact .assigned mem hbefore (fun n hn hlt hlt' => nearest n hn hlt (by omega)) below

end

/-! ## Collecting groups -/

theorem collectGroups_snoc (assignments : List Match) (m : Match) :
    collectGroups (assignments ++ [m])
      = (m.group 1, joinPaths (groupPath (collectGroups assignments) (m.group 2)) (m.group 3))
        :: collectGroups assignments := by
  unfold collectGroups
  rw [List.foldl_append]
  rfl

theorem groupPath_cons (groups : Groups) (latest path name : List Char) :
    groupPath ((latest, path) :: groups) name
      = if name = latest then path else groupPath groups name := by
  unfold groupPath
  rw [List.lookup_cons]
  by_cases h : name = latest
  · rw [if_pos h, beq_iff_eq.mpr h]
    rfl
  · rw [if_neg h, beq_false_of_ne h]

/-- **Collected groups are those at the end.** After all assignments each variable has the path that
it stands for at a position behind them. -/
theorem standsFor_collectGroups {assignments : List Match} (horder : InOrder assignments) :
    ∀ {index : Nat}, (∀ m ∈ assignments, m.start < index) → ∀ name,
      StandsFor assignments index name (groupPath (collectGroups assignments) name) := by
  induction assignments using List.reverseRecOn with
  | nil => exact fun _ name => .unassigned fun m hm => absurd hm List.not_mem_nil
  | append_singleton assignments last ih =>
      intro index hbefore name
      obtain ⟨horder, -, hlast⟩ := List.pairwise_append.mp horder
      have hlast : ∀ m ∈ assignments, m.start < last.start :=
        fun m hm => hlast m hm last (List.mem_singleton.mpr rfl)
      rw [collectGroups_snoc, groupPath_cons]
      split
      · -- the parent has its path of the time before the last assignment
        rename_i hname
        subst hname
        refine .assigned (List.mem_append_right _ (List.mem_singleton.mpr rfl))
          (hbefore last (by simp)) (fun n hn hlt _ => ?_)
          ((ih horder hlast _).snoc (Nat.le_refl _))
        rcases List.mem_append.mp hn with hn | hn
        · exact absurd (hlast n hn) (Nat.lt_asymm hlt)
        · rw [List.mem_singleton.mp hn] at hlt
          exact absurd hlt (Nat.lt_irrefl _)
      · rename_i hname
        exact (ih horder (fun m hm => hbefore m (List.mem_append_left _ hm)) name).snoc_other hlast
          (Ne.symm hname)

/-! ## Routes -/

section

variable {front : Pattern} {slot : Nat} {text : List Char}

/-- A match that ends in a quoted stretch takes some of the text. -/
theorem start_lt_of_quoted {m : Match} (hm : m ∈ (front ++ quoted slot).findAll text) :
    m.start < m.stop ∧ m.start < text.length := by
  obtain ⟨done, more, rfl, hmatch⟩ := split_of_mem_allFrom text hm
  obtain ⟨_, rest, hmore, ⟨s, t, rfl, -, u, _, rfl, -, hquote⟩, hstart, hstop⟩ :=
    takes_of_matchHere? hmatch
  obtain rfl := takes_lit.mp hquote
  dsimp only at hmore hstart hstop
  rw [List.length_append, List.length_append, show "\"".toList.length = 1 from rfl] at hstop
  subst hmore
  simp only [List.length_append, show "\"".toList.length = 1 from rfl]
  omega

theorem inOrder_findAll : InOrder ((front ++ quoted slot).findAll text) :=
  (findAll_inOrder _ text).imp_of_mem fun hm _ hprecedes =>
    Nat.lt_of_lt_of_le (start_lt_of_quoted hm).1 hprecedes.stop_le_start

end

/-- A route stands below the group that its variable stands for at the end of the text. This is the
group that it stands for at the route, if the variable is not assigned again. -/
def IsBelowGroup (assignments : List Match) (stop : Nat) (route : Match) (path : String) : Prop :=
  ∃ atRoute atEnd, StandsFor assignments route.start (route.group 1) atRoute
    ∧ StandsFor assignments stop (route.group 1) atEnd
    ∧ path = String.ofList (joinPaths atEnd (route.group 3))
    ∧ ((∀ m ∈ assignments, route.start ≤ m.start → m.group 1 ≠ route.group 1) →
      path = String.ofList (joinPaths atRoute (route.group 3)))

theorem isBelowGroup {assignments : List Match} (horder : InOrder assignments) {stop : Nat}
    (hstop : ∀ m ∈ assignments, m.start < stop) {route : Match} (hroute : route.start ≤ stop) :
    IsBelowGroup assignments stop route
      (String.ofList (joinPaths (groupPath (collectGroups assignments) (route.group 1))
        (route.group 3))) := by
  have hearlier : InOrder (assignments.filter fun m => m.start < route.start) :=
    horder.sublist List.filter_sublist
  have hatRoute := (standsFor_collectGroups hearlier
    (fun m hm => of_decide_eq_true (List.mem_filter.mp hm).2) (route.group 1)).of_filter
    (Nat.le_refl route.start)
  have hatEnd := standsFor_collectGroups horder hstop (route.group 1)
  refine ⟨_, _, hatRoute, hatEnd, rfl, fun hsettled => ?_⟩
  rw [hatRoute.unique horder (hatEnd.back hroute hsettled)]

/-- The endpoint of a route is on its line, has its verb, and its path is below its group. -/
structure IsRouteOf (source : SourceText) (assignments : List Match) (route : Match)
    (e : ServiceMap.Endpoint) : Prop where
  line : e.lineNumber = source.lineNumber route.start
  verb : e.method = String.ofList (upper (route.group 2))
  path : IsBelowGroup assignments source.masked.length route e.path

section

variable {source : SourceText} {file : String}

theorem isBelowGroup_findAll {front pattern : Pattern} {slot : Nat} {masked : List Char}
    {route : Match} (hroute : route ∈ pattern.findAll masked) :
    IsBelowGroup ((front ++ quoted slot).findAll masked) masked.length route
      (String.ofList (joinPaths
        (groupPath (collectGroups ((front ++ quoted slot).findAll masked)) (route.group 1))
        (route.group 3))) :=
  isBelowGroup inOrder_findAll (fun _ hm => (start_lt_of_quoted hm).2)
    (within_of_mem_findAll hroute).start

theorem isRouteOf_goEndpoint {route : Match} {router : String} {e : ServiceMap.Endpoint}
    (hroute : route ∈ goRoute.findAll source.masked)
    (h : goEndpoint source file route.start (String.ofList (upper (route.group 2)))
      (joinPaths (groupPath (collectGroups (goGroup.findAll source.masked)) (route.group 1))
        (route.group 3)) (route.group 4) router = .ok e) :
    IsRouteOf source (goGroup.findAll source.masked) route e := by
  have hgo := isGoEndpoint_of_goEndpoint h
  refine ⟨hgo.line, hgo.method, ?_⟩
  rw [hgo.path]
  exact isBelowGroup_findAll hroute

theorem isRouteOf_mappedEndpoint {route : Match} {e : ServiceMap.Endpoint}
    (hroute : route ∈ mappedRoute.findAll source.masked)
    (h : mappedEndpoint source file (collectGroups (mappedGroup.findAll source.masked)) route
      = .ok e) : IsRouteOf source (mappedGroup.findAll source.masked) route e := by
  obtain ⟨arguments, parameters, hmapped⟩ := isMappedEndpoint_of_mappedEndpoint h
  refine ⟨hmapped.line, hmapped.method, ?_⟩
  rw [hmapped.path]
  exact isBelowGroup_findAll hroute

/-- The routes that a Go source registers on its routers. -/
def goRoutes (masked : List Char) : List Match :=
  (goRoute.findAll masked).filter fun m => verbs.contains (String.ofList (upper (m.group 2)))

/-- One endpoint for each route of a router, then those of the standard library. -/
theorem isRouteOf_goEndpoints {endpoints : List ServiceMap.Endpoint}
    (h : goEndpoints source file = .ok endpoints) :
    ∃ routes plain, endpoints = routes ++ plain
      ∧ List.Forall₂ (IsRouteOf source (goGroup.findAll source.masked)) (goRoutes source.masked) routes
      ∧ ∀ e ∈ plain, e.tags = ["net/http"] := by
  obtain ⟨routes, hroutes, h⟩ := except_bind_eq_ok h
  obtain ⟨plain, hplain, h⟩ := except_bind_eq_ok h
  refine ⟨routes, plain, (Except.ok.inj h).symm, ?_, fun e he => ?_⟩
  · exact forall₂_of_mapM_eq_ok hroutes fun m hm e he =>
      isRouteOf_goEndpoint (List.mem_of_mem_filter hm) he
  · obtain ⟨m, -, hread⟩ := mem_of_mapM_eq_ok hplain he
    exact (isGoEndpoint_of_goEndpoint hread).tags

end

/-- **Routes are below the groups of their variables.** Each route that a Go source registers, and
each that a C# source maps, has an endpoint. Its path is the route's own path below the path that
the variable stands for at the end of the source. If no later assignment gives the variable another
group, this is the path that it stands for at the route: that of the nearest assignment before it,
below the path that its parent stood for at the assignment. -/
theorem routes_are_below_their_groups (text : List Char) (file : String) :
    (StatusNumeralsFit (maskComments Language.go.rawQuote text) →
      let source := SourceText.ofText Language.go.rawQuote text
      ∃ facts routes plain, SourceFile.read .go file text = .ok facts
        ∧ facts.endpoints = routes ++ plain
        ∧ List.Forall₂ (IsRouteOf source (goGroup.findAll source.masked)) (goRoutes source.masked)
          routes
        ∧ ∀ e ∈ plain, e.tags = ["net/http"])
      ∧ let source := SourceText.ofText Language.csharp.rawQuote text
        ∃ facts actions routes, SourceFile.read .csharp file text = .ok facts
          ∧ facts.endpoints = actions ++ routes
          ∧ List.Forall₂ (IsRouteOf source (mappedGroup.findAll source.masked))
            (mappedRoute.findAll source.masked) routes
          ∧ ∀ e ∈ actions, ∃ owner, e.tags = ["aspnet", owner] := by
  constructor
  · intro hfit source
    obtain ⟨facts, hfacts⟩ := SourceFile.read_isOk (fun _ => hfit) file
    obtain ⟨endpoints, hendpoints, h⟩ := except_bind_eq_ok hfacts
    obtain ⟨types, -, h⟩ := except_bind_eq_ok h
    obtain ⟨functions, -, h⟩ := except_bind_eq_ok h
    obtain ⟨routes, plain, hsplit, hroutes, hplain⟩ := isRouteOf_goEndpoints hendpoints
    refine ⟨facts, routes, plain, hfacts, ?_, hroutes, hplain⟩
    rw [← Except.ok.inj h, hsplit]
  · intro source
    have hfit : Language.csharp = .go →
        StatusNumeralsFit (maskComments Language.csharp.rawQuote text) := fun h => nomatch h
    obtain ⟨facts, hfacts⟩ := SourceFile.read_isOk hfit file
    obtain ⟨types, -, h⟩ := except_bind_eq_ok hfacts
    obtain ⟨methods, -, h⟩ := except_bind_eq_ok h
    obtain ⟨actions, hactions, h⟩ := except_bind_eq_ok h
    obtain ⟨routes, hroutes, h⟩ := except_bind_eq_ok h
    refine ⟨facts, actions, routes, hfacts, by rw [← Except.ok.inj h], ?_,
      tags_of_mem_actionEndpoints hactions⟩
    exact forall₂_of_mapM_eq_ok hroutes fun m hm e he => isRouteOf_mappedEndpoint hm he

/-- A route on a group of a group. -/
def nestedGroups : List Char :=
  ("func a(r *gin.Engine) \x7b\n\tv := r.Group(\"/a\")\n\tw := v.Group(\"/b\")\n"
    ++ "\tw.GET(\"/x\", h)\n\x7d\n").toList

theorem route_on_a_group_of_a_group :
    StatusNumeralsFit (maskComments Language.go.rawQuote nestedGroups)
      ∧ ∃ facts, SourceFile.read .go "a.go" nestedGroups = .ok facts
        ∧ facts.endpoints.head?.map Endpoint.path = some "/a/b/x" := by
  have hfit : StatusNumeralsFit (maskComments Language.go.rawQuote nestedGroups) := by
    rintro digits ⟨-, blanks, -, hinfix⟩
    have hlength := hinfix.length_le
    rw [length_maskComments, List.length_append, List.length_append] at hlength
    have htext : nestedGroups.length ≤ longestNumeral := by decide
    omega
  have hroutes : (goRoutes (maskComments Language.go.rawQuote nestedGroups)).map
      (fun m => (m.start, m.group 1, m.group 3)) = [(65, "w".toList, "/x".toList)] := by
    decide +kernel
  have hgroups : (goGroup.findAll (maskComments Language.go.rawQuote nestedGroups)).map
      (fun m => (m.start, m.group 1, m.group 2, m.group 3))
        = [(25, "v".toList, "r".toList, "/a".toList), (45, "w".toList, "v".toList, "/b".toList)] := by
    decide +kernel
  obtain ⟨facts, routes, plain, hfacts, hendpoints, hall, -⟩ :=
    (routes_are_below_their_groups nestedGroups "a.go").1 hfit
  refine ⟨hfit, facts, hfacts, ?_⟩
  dsimp only [SourceText.ofText] at hall
  obtain ⟨route, _, hone, hroute, hnil⟩ := List.map_eq_cons_iff.mp hroutes
  obtain ⟨v, _, htwo, hv, hmore⟩ := List.map_eq_cons_iff.mp hgroups
  obtain ⟨w, _, hmore', hw, hnil'⟩ := List.map_eq_cons_iff.mp hmore
  rw [List.map_eq_nil_iff.mp hnil'] at hmore'
  rw [hone, List.map_eq_nil_iff.mp hnil, htwo, hmore'] at hall
  simp only [Prod.mk.injEq] at hroute hv hw
  -- the group of the route, from assignment to assignment
  have hgroup : StandsFor [v, w] route.start (route.group 1) "/a/b".toList := by
    have hr : StandsFor [v, w] v.start (v.group 2) [] := .unassigned (by simp; omega)
    have hbase : StandsFor [v, w] w.start (w.group 2) (joinPaths [] (v.group 3)) := by
      rw [show w.group 2 = v.group 1 from hw.2.2.1.trans hv.2.1.symm]
      exact .assigned (by simp) (by omega) (by simp) hr
    have hbelow : StandsFor [v, w] route.start (w.group 1)
        (joinPaths (joinPaths [] (v.group 3)) (w.group 3)) :=
      .assigned (by simp) (by omega) (by simp; omega) hbase
    rwa [hv.2.2.2, hw.2.2.2, hw.2.1, ← hroute.2.1] at hbelow
  cases hall with
  | cons h _ =>
      obtain ⟨-, -, atRoute, atEnd, hatRoute, -, -, hpath⟩ := h
      have horder : InOrder [v, w] := by simp [InOrder]; omega
      rw [hendpoints, List.cons_append, List.head?_cons, Option.map_some, hpath (by simp; omega),
        hatRoute.unique horder hgroup, hroute.2.2]
      decide

/-- Two functions that use one name for two groups. -/
def reusedVariable : List Char :=
  ("package p\n\nfunc a(r *gin.Engine) \x7b\n\tv := r.Group(\"/a\")\n\tv.GET(\"/x\", h)\n\x7d\n\n"
    ++ "func b(r *gin.Engine) \x7b\n\tv := r.Group(\"/b\")\n\tv.GET(\"/y\", h)\n\x7d\n").toList

/-- The route of the first function is reported below the group of the second. -/
theorem later_group_takes_the_route :
    let source := SourceText.ofText Language.go.rawQuote reusedVariable
    ∃ facts, SourceFile.read .go "a.go" reusedVariable = .ok facts
      ∧ ∃ route ∈ goRoutes source.masked, ∃ e ∈ facts.endpoints,
        e.lineNumber = source.lineNumber route.start ∧ e.path = "/b/x"
          ∧ StandsFor (goGroup.findAll source.masked) route.start (route.group 1) "/a".toList
          ∧ joinPaths "/a".toList (route.group 3) = "/a/x".toList := by
  intro source
  have hread : (match SourceFile.read .go "a.go" reusedVariable with
      | .ok facts => facts.endpoints.any fun e => decide (e.lineNumber = 5 ∧ e.path = "/b/x")
      | .error _ => false) = true := by decide +kernel
  have hroutes : (goRoutes source.masked).map
      (fun m => (m.start, m.group 1, m.group 3, source.lineNumber m.start))
        = [(56, "v".toList, "/x".toList, 5), (119, "v".toList, "/y".toList, 10)] := by
    decide +kernel
  have hgroups : (goGroup.findAll source.masked).map
      (fun m => (m.start, m.group 1, m.group 2, m.group 3))
        = [(36, "v".toList, "r".toList, "/a".toList), (99, "v".toList, "r".toList, "/b".toList)] := by
    decide +kernel
  split at hread
  · rename_i facts hfacts
    obtain ⟨e, he, hcase⟩ := List.any_eq_true.mp hread
    obtain ⟨hline, hpath⟩ := of_decide_eq_true hcase
    obtain ⟨route, _, hroutes', hroute, -⟩ := List.map_eq_cons_iff.mp hroutes
    obtain ⟨v, _, hgroups', hv, hmore⟩ := List.map_eq_cons_iff.mp hgroups
    obtain ⟨w, _, hmore', hw, hnil⟩ := List.map_eq_cons_iff.mp hmore
    rw [List.map_eq_nil_iff.mp hnil] at hmore'
    simp only [Prod.mk.injEq] at hroute hv hw
    refine ⟨facts, hfacts, route, by rw [hroutes']; exact List.mem_cons_self, e, he,
      by rw [hline, hroute.2.2.2]; rfl, hpath, ?_, by rw [hroute.2.2.1]; decide⟩
    rw [hgroups', hmore', hroute.2.1, ← hv.2.1]
    have hr : StandsFor [v, w] v.start (v.group 2) [] := .unassigned (by simp; omega)
    have hbelow : StandsFor [v, w] route.start (v.group 1) (joinPaths [] (v.group 3)) :=
      .assigned (by simp) (by omega) (by simp; omega) hr
    rwa [hv.2.2.2] at hbelow
  · exact nomatch hread

end ServiceMap.Endpoint
