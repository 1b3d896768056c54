import ServiceMap.Proofs.Endpoint.RouteGroups
import ServiceMap.Proofs.Text.Blanks

/-!
# Joined paths

What a path contributes to a joined one depends on its place only: slashes at its end do not count where
it is a base, those at its start where it stands below one, and a single slash takes their place. So a
chain of paths gives the same path in whatever order it is joined, and a route on a group inside others
has the path of its chain.
-/

namespace ServiceMap.Endpoint

open Text Pattern

/-! ## The parts of a joined path -/

/-- A path as the base of another: with a slash in front and none at the end, or nothing. -/
def asBase (path : List Char) : List Char :=
  let path := dropRight isSlash path
  if path.isEmpty then [] else if path.head? = some '/' then path else '/' :: path

/-- A path as it stands below a base: with one slash in front, or nothing. -/
def asEnd (path : List Char) : List Char :=
  let path := dropLeft isSlash path
  if path.isEmpty then [] else '/' :: path

/-- A path as it stands between two others. -/
def asMiddle (path : List Char) : List Char :=
  let path := dropRight isSlash (dropLeft isSlash path)
  if path.isEmpty then [] else '/' :: path

/-- A single slash where nothing is left. -/
def rooted (path : List Char) : List Char :=
  if path.isEmpty then ['/'] else path

theorem joinPaths_eq (base path : List Char) :
    joinPaths base path = rooted (asBase base ++ asEnd path) := by
  simp only [joinPaths, asBase, asEnd, rooted, beq_iff_eq]
  by_cases hbase : (dropRight isSlash base).isEmpty = true
  · by_cases hpath : (dropLeft isSlash path).isEmpty = true
    · simp [hbase, List.isEmpty_iff.mp hpath]
    · simp [hbase, hpath]
  · have hne : (if (dropRight isSlash base).head? = some '/' then dropRight isSlash base
        else '/' :: dropRight isSlash base) ≠ [] := by
      split
      · exact fun hnil => hbase (List.isEmpty_iff.mpr hnil)
      · exact List.cons_ne_nil _ _
    by_cases hpath : (dropLeft isSlash path).isEmpty = true <;> simp [hbase, hpath, hne]

variable {s t front back : List Char}

/-- A path that starts with a slash unless it is empty. -/
def LeadsWithSlash (path : List Char) : Prop :=
  path ≠ [] → path.head? = some '/'

theorem leadsWithSlash_cons (s : List Char) : LeadsWithSlash ('/' :: s) :=
  fun _ => rfl

theorem leadsWithSlash_nil : LeadsWithSlash [] :=
  fun h => absurd rfl h

theorem LeadsWithSlash.append (hs : LeadsWithSlash s) (ht : LeadsWithSlash t) :
    LeadsWithSlash (s ++ t) := by
  cases s with
  | nil => exact ht
  | cons c s => exact fun _ => hs (List.cons_ne_nil c s)

theorem LeadsWithSlash.head_rooted (h : LeadsWithSlash s) : (rooted s).head? = some '/' := by
  unfold rooted
  split
  · rfl
  · rename_i hne
    exact h fun hnil => hne (List.isEmpty_iff.mpr hnil)

/-- A path that starts with a slash and does not end in one is the base that is left of it. -/
theorem asBase_append (hhead : LeadsWithSlash s) (hlast : ∀ c ∈ s.getLast?, isSlash c = false)
    (hback : ∀ c ∈ back, isSlash c = true) : asBase (s ++ back) = s := by
  rw [asBase, dropRight_append_of_all hback, dropRight_eq_self hlast]
  cases s with
  | nil => rfl
  | cons c s => exact if_pos (hhead (List.cons_ne_nil c s))

theorem asEnd_append (hfront : ∀ c ∈ front, isSlash c = true)
    (hhead : ∀ c ∈ s.head?, isSlash c = false) :
    asEnd (front ++ s) = if s.isEmpty then [] else '/' :: s := by
  rw [asEnd, dropLeft, List.dropWhile_append_of_pos hfront, dropWhile_eq_self hhead]

theorem leadsWithSlash_asBase (path : List Char) : LeadsWithSlash (asBase path) := by
  unfold asBase
  dsimp only
  split
  · exact leadsWithSlash_nil
  · split
    · exact fun _ => ‹_›
    · exact leadsWithSlash_cons _

theorem leadsWithSlash_asMiddle (path : List Char) : LeadsWithSlash (asMiddle path) := by
  unfold asMiddle
  dsimp only
  split
  · exact leadsWithSlash_nil
  · exact leadsWithSlash_cons _

theorem leadsWithSlash_asEnd (path : List Char) : LeadsWithSlash (asEnd path) := by
  unfold asEnd
  dsimp only
  split
  · exact leadsWithSlash_nil
  · exact leadsWithSlash_cons _

theorem getLast_slash_cons (hne : ¬s.isEmpty = true) : ('/' :: s).getLast? = s.getLast? :=
  List.getLast?_cons_of_ne_nil fun hnil => hne (List.isEmpty_iff.mpr hnil)

theorem getLast_asBase (path : List Char) : ∀ c ∈ (asBase path).getLast?, isSlash c = false := by
  have hlast := getLast_dropRight isSlash path
  unfold asBase
  dsimp only
  split
  · exact fun _ h => nomatch h
  · rename_i hne
    split
    · exact hlast
    · rwa [getLast_slash_cons hne]

theorem getLast_asMiddle (path : List Char) : ∀ c ∈ (asMiddle path).getLast?, isSlash c = false := by
  have hlast := getLast_dropRight isSlash (dropLeft isSlash path)
  unfold asMiddle
  dsimp only
  split
  · exact fun _ h => nomatch h
  · rename_i hne
    rwa [getLast_slash_cons hne]

/-- The core of a path is empty only if nothing but slashes is in it. -/
theorem dropLeft_eq_nil (h : dropRight isSlash (dropLeft isSlash s) = []) :
    dropLeft isSlash s = [] := by
  refine List.head?_eq_none_iff.mp (Option.eq_none_iff_forall_ne_some.mpr fun c hc => ?_)
  have hslash := List.rdropWhile_eq_nil_iff.mp h c (List.mem_of_head? hc)
  exact Bool.false_ne_true ((head_dropLeft isSlash s c hc).symm.trans hslash)

/-- Below a base a path has its middle, and then its slashes at the end. -/
theorem asEnd_eq (path : List Char) :
    ∃ back, asEnd path = asMiddle path ++ back ∧ ∀ c ∈ back, isSlash c = true := by
  refine ⟨(dropLeft isSlash path).rtakeWhile isSlash, ?_, fun c hc => List.mem_rtakeWhile_imp hc⟩
  have hsplit : dropRight isSlash (dropLeft isSlash path)
      ++ (dropLeft isSlash path).rtakeWhile isSlash = dropLeft isSlash path :=
    List.rdropWhile_append_rtakeWhile
  rw [asEnd, asMiddle]
  by_cases hcore : dropRight isSlash (dropLeft isSlash path) = []
  · rw [dropLeft_eq_nil hcore]
    rfl
  · have hne : dropLeft isSlash path ≠ [] := fun hnil => hcore (by rw [hnil]; rfl)
    rw [if_neg (by simpa using hne), if_neg (by simpa using hcore), List.cons_append, hsplit]

/-- As a base a path has slashes and then its core, or it is nothing. -/
theorem asBase_eq (path : List Char) :
    ∃ front, asBase path = front ++ dropRight isSlash (dropLeft isSlash path)
      ∧ (∀ c ∈ front, isSlash c = true)
      ∧ (dropRight isSlash (dropLeft isSlash path) = [] → front = []) := by
  obtain ⟨front, back, hpath, hfront, hback⟩ := exists_ends isSlash path
  have hlast := getLast_dropRight isSlash (dropLeft isSlash path)
  generalize dropRight isSlash (dropLeft isSlash path) = core at hpath hlast
  by_cases hcore : core = []
  · subst hcore
    have hnone : dropRight isSlash path = [] := by
      rw [hpath, List.nil_append]
      exact List.rdropWhile_eq_nil_iff.mpr fun c hc => (List.mem_append.mp hc).elim (hfront c) (hback c)
    exact ⟨[], by rw [asBase, hnone]; rfl, List.forall_mem_nil _, fun _ => rfl⟩
  · have hbase : dropRight isSlash path = front ++ core := by
      rw [hpath, ← List.append_assoc, dropRight_append_of_all hback]
      refine dropRight_eq_self fun c hc => hlast c ?_
      rwa [List.getLast?_append_of_ne_nil _ hcore] at hc
    rw [asBase, hbase, if_neg (by simp [hcore])]
    split
    · exact ⟨front, rfl, hfront, fun h => absurd h hcore⟩
    · refine ⟨'/' :: front, rfl, fun c hc => ?_, fun h => absurd h hcore⟩
      rcases List.mem_cons.mp hc with rfl | hc
      · rfl
      · exact hfront c hc

/-! ## Joining in any order -/

/-- **A joined path as a base.** -/
theorem asBase_joinPaths (a b : List Char) : asBase (joinPaths a b) = asBase a ++ asMiddle b := by
  obtain ⟨back, hend, hback⟩ := asEnd_eq b
  have hlast : ∀ c ∈ (asBase a ++ asMiddle b).getLast?, isSlash c = false :=
    fun c hc => (mem_getLast?_append hc).elim (getLast_asMiddle b c) (getLast_asBase a c)
  rw [joinPaths_eq, hend, ← List.append_assoc, rooted]
  split
  · rename_i hempty
    rw [(List.append_eq_nil_iff.mp (List.isEmpty_iff.mp hempty)).1]
    rfl
  · exact asBase_append ((leadsWithSlash_asBase a).append (leadsWithSlash_asMiddle b)) hlast hback

theorem asEnd_rooted (path : List Char) : asEnd (rooted path) = asEnd path := by
  unfold rooted
  split
  · rename_i hempty
    rw [List.isEmpty_iff.mp hempty]
    rfl
  · rfl

theorem asEnd_asEnd (path : List Char) : asEnd (asEnd path) = asEnd path := by
  have hhead := head_dropLeft isSlash path
  have hself : asEnd path = if (dropLeft isSlash path).isEmpty then []
      else ['/'] ++ dropLeft isSlash path := rfl
  rw [hself]
  split
  · rfl
  · rename_i hne
    rw [asEnd_append (by simp [isSlash]) hhead, if_neg hne]
    rfl

/-- **A joined path below a base.** -/
theorem asEnd_joinPaths (a b : List Char) : asEnd (joinPaths a b) = asMiddle a ++ asEnd b := by
  obtain ⟨front, hbase, hfront, hnone⟩ := asBase_eq a
  have hhead : ∀ c ∈ (dropRight isSlash (dropLeft isSlash a)).head?, isSlash c = false :=
    fun c hc => head_dropLeft isSlash a c (mem_head?_of_dropRight hc)
  rw [joinPaths_eq, asEnd_rooted, hbase, asMiddle, List.append_assoc]
  generalize dropRight isSlash (dropLeft isSlash a) = core at hnone hhead
  cases core with
  | nil =>
      rw [hnone rfl]
      exact asEnd_asEnd b
  | cons c core =>
      rw [asEnd_append (s := c :: core ++ asEnd b) hfront hhead]
      rfl

theorem joinPaths_assoc (a b c : List Char) :
    joinPaths (joinPaths a b) c = joinPaths a (joinPaths b c) :=
  calc joinPaths (joinPaths a b) c
      = rooted (asBase a ++ asMiddle b ++ asEnd c) := by rw [joinPaths_eq, asBase_joinPaths]
    _ = rooted (asBase a ++ (asMiddle b ++ asEnd c)) := by rw [List.append_assoc]
    _ = joinPaths a (joinPaths b c) := by rw [joinPaths_eq, asEnd_joinPaths]

instance : Std.Associative joinPaths := ⟨joinPaths_assoc⟩

/-- A joined path starts with a slash. -/
theorem head_joinPaths (base path : List Char) : (joinPaths base path).head? = some '/' := by
  rw [joinPaths_eq]
  exact ((leadsWithSlash_asBase base).append (leadsWithSlash_asEnd path)).head_rooted

/-- An order in which paths that stand one below the other are joined. -/
inductive Joining where
  | path (text : List Char)
  | join (base below : Joining)

namespace Joining

/-- The paths, the outermost first. -/
def paths : Joining → List (List Char)
  | path text => [text]
  | join base below => base.paths ++ below.paths

/-- The path that they are joined to. -/
def joined : Joining → List Char
  | path text => text
  | join base below => joinPaths base.joined below.joined

theorem paths_ne_nil : ∀ j : Joining, j.paths ≠ []
  | path text => List.cons_ne_nil text []
  | join base below => List.append_ne_nil_of_left_ne_nil base.paths_ne_nil below.paths

/-- Paths are joined as if one by one from the outermost on. -/
theorem joined_eq_foldl (j : Joining) :
    ∀ {first : List Char} {rest : List (List Char)}, j.paths = first :: rest →
      j.joined = rest.foldl joinPaths first := by
  induction j with
  | path text =>
      intro first rest h
      obtain ⟨rfl, rfl⟩ := List.cons.inj h
      rfl
  | join base below ihBase ihBelow =>
      intro first rest h
      obtain ⟨a, s, hbase⟩ := List.exists_cons_of_ne_nil base.paths_ne_nil
      obtain ⟨b, t, hbelow⟩ := List.exists_cons_of_ne_nil below.paths_ne_nil
      rw [paths, hbase, hbelow] at h
      obtain ⟨rfl, rfl⟩ := List.cons.inj h
      calc joinPaths base.joined below.joined
          = joinPaths (s.foldl joinPaths a) (t.foldl joinPaths b) := by
            rw [ihBase hbase, ihBelow hbelow]
        _ = t.foldl joinPaths (joinPaths (s.foldl joinPaths a) b) := List.foldl_assoc.symm
        _ = (s ++ b :: t).foldl joinPaths a := by rw [List.foldl_append, List.foldl_cons]

end Joining

/-! ## Chains of groups -/

/-- Assignments that open groups one inside the other, from the group of one variable to that of
another. -/
inductive Opens : (parent : List Char) → List Match → (name : List Char) → Prop where
  | none (name : List Char) : Opens name [] name
  | more {m : Match} {chain : List Match} {name : List Char} (others : Opens (m.group 1) chain name) :
      Opens (m.group 2) (m :: chain) name

/-- The path of a group at the end of a chain. -/
theorem groupPath_of_opens {parent name : List Char} {chain : List Match}
    (h : Opens parent chain name) (earlier : List Match) :
    groupPath (collectGroups (earlier ++ chain)) name
      = (chain.map (·.group 3)).foldl joinPaths (groupPath (collectGroups earlier) parent) := by
  induction h generalizing earlier with
  | none name => rw [List.append_nil]; rfl
  | @more m chain name others ih =>
      rw [List.append_cons, ih, collectGroups_snoc, groupPath_cons, if_pos rfl]
      rfl

/-- **Prefixes combine in any order.** Joining paths is associative, and what is joined starts with a
slash. So paths one below the other give the same path in whatever order they are joined; in particular
a route on a chain of groups has the path that its group's base, the prefixes and its own path are joined
to in any order. -/
theorem prefixes_combine_in_any_order :
    (∀ a b c, joinPaths (joinPaths a b) c = joinPaths a (joinPaths b c))
      ∧ (∀ base path, (joinPaths base path).head? = some '/')
      ∧ (∀ j k : Joining, j.paths = k.paths → j.joined = k.joined)
      ∧ ∀ (earlier chain : List Match) (parent name path : List Char) (j : Joining),
          Opens parent chain name →
          j.paths = groupPath (collectGroups earlier) parent :: chain.map (·.group 3) ++ [path] →
          joinPaths (groupPath (collectGroups (earlier ++ chain)) name) path = j.joined := by
  refine ⟨joinPaths_assoc, head_joinPaths, fun j k h => ?_, ?_⟩
  · obtain ⟨first, rest, hpaths⟩ := List.exists_cons_of_ne_nil j.paths_ne_nil
    rw [j.joined_eq_foldl hpaths, k.joined_eq_foldl (h ▸ hpaths)]
  · intro earlier chain parent name path j hopens h
    rw [List.cons_append] at h
    rw [j.joined_eq_foldl h, List.foldl_append, groupPath_of_opens hopens]
    rfl

/-- A group inside another one, with more slashes than needed. -/
def slashedGroups : List Char :=
  "api := r.Group(\"/api/\")\nv2 := api.Group(\"//v2/\")\n".toList

theorem route_below_nested_groups :
    Opens "r".toList (goGroup.findAll slashedGroups) "v2".toList
      ∧ joinPaths (groupPath (collectGroups (goGroup.findAll slashedGroups)) "v2".toList)
          "/users".toList
        = joinPaths [] (joinPaths "/api/".toList (joinPaths "//v2/".toList "/users".toList)) := by
  have hgroups : (goGroup.findAll slashedGroups).map (fun m => (m.group 1, m.group 2, m.group 3))
      = [("api".toList, "r".toList, "/api/".toList), ("v2".toList, "api".toList, "//v2/".toList)] := by
    decide +kernel
  obtain ⟨m, _, hchain, hm, hrest⟩ := List.map_eq_cons_iff.mp hgroups
  obtain ⟨n, _, hmore, hn, hnil⟩ := List.map_eq_cons_iff.mp hrest
  rw [List.map_eq_nil_iff.mp hnil] at hmore
  simp only [Prod.mk.injEq] at hm hn
  have hopens : Opens "r".toList [m, n] "v2".toList := by
    rw [← hm.2.1, ← hn.1]
    exact .more (hm.1 ▸ hn.2.1 ▸ .more (.none _))
  rw [hchain, hmore]
  refine ⟨hopens, ?_⟩
  refine prefixes_combine_in_any_order.2.2.2 [] [m, n] _ _ _
    (.join (.path []) (.join (.path _) (.join (.path _) (.path _)))) hopens ?_
  rw [List.map_cons, List.map_singleton, hm.2.2, hn.2.2]
  rfl

end ServiceMap.Endpoint
