import ServiceMap.Proofs.Pattern.Meaning

/-!
# A run finds what its pattern describes

Where a stretch that the pattern describes is followed by a place at which what follows succeeds, a
run succeeds. It need not take that stretch, since an earlier way may succeed too; where only one
stretch is described, it takes this one.
-/

namespace ServiceMap

namespace Pattern

theorem orElse_isSome {first second : Option Place} (h : first.isSome ∨ second.isSome) :
    (first <|> second).isSome := by
  cases first with
  | none => exact h.resolve_left Bool.false_ne_true
  | some p => rfl

theorem mem_stops_of_forall {accepts : Char → Bool} {rest : List Char}
    {captures : List (Nat × Capture)} (s : List Char) :
    ∀ {before : Option Char} {index : Nat}, (∀ c ∈ s, accepts c = true) →
      ⟨lastOr before s, rest, index + s.length, captures⟩
        ∈ Place.stops accepts before index captures (s ++ rest) := by
  induction s with
  | nil =>
      intro before index _
      cases rest with
      | nil => exact List.mem_singleton.mpr rfl
      | cons c rest => exact List.mem_cons_self
  | cons c s ih =>
      intro before index h
      rw [List.cons_append, Place.stops, if_pos (h c List.mem_cons_self), lastOr_cons,
        List.length_cons, Nat.add_comm s.length, ← Nat.add_assoc]
      exact List.mem_cons_of_mem _ (ih fun d hd => h d (List.mem_cons_of_mem c hd))

theorem runRounds_succ_isSome {step : Place → Follow → Option Place} {eager : Bool} {limit : Nat}
    {p : Place} {follow : Follow} (h : (follow p).isSome ∨ (step p fun q =>
      if q.index = p.index then none else runRounds step eager limit q follow).isSome) :
    (runRounds step eager (limit + 1) p follow).isSome := by
  rw [runRounds]
  cases eager with
  | true => exact orElse_isSome h.symm
  | false => exact orElse_isSome h

/-- A pattern that describes the empty stretch may hand over the place where it begins. -/
theorem isSome_of_stay {p : Place} {follow : Follow} {rest : List Char} (hrest : p.rest = rest)
    (hfollow : ∀ new, (follow (p.after [] rest new)).isSome) : (follow p).isSome := by
  subst hrest
  exact hfollow []

/-- Rounds of a step that is complete are complete, if there may be enough of them. -/
theorem runRounds_isSome {step : Place → Follow → Option Place} {body : Pattern} {bound : Nat}
    (hstep : ∀ (p : Place) (follow : Follow) (s r : List Char), p.rest = s ++ r →
      p.rest.length ≤ bound → body.Takes p.before s r →
        (∀ new, (follow (p.after s r new)).isSome) → (step p follow).isSome)
    (eager : Bool) {before : Option Char} {taken rest : List Char}
    (h : Rounds body.Takes before taken rest) :
    ∀ (limit : Nat) (p : Place) (follow : Follow), p.before = before → p.rest = taken ++ rest →
      p.rest.length ≤ bound → taken.length ≤ limit →
        (∀ new, (follow (p.after taken rest new)).isSome) →
          (runRounds step eager limit p follow).isSome := by
  induction h with
  | none before rest =>
      intro limit p follow _ hrest _ _ hfollow
      have hp : (follow p).isSome := isSome_of_stay hrest hfollow
      cases limit with
      | zero => exact hp
      | succ limit => exact runRounds_succ_isSome (Or.inl hp)
  | @more before s t rest nonempty first others ih =>
      intro limit p follow hbefore hrest hbound hlimit hfollow
      have hpos : 0 < s.length := List.length_pos_iff.mpr nonempty
      rw [List.length_append] at hlimit
      obtain ⟨limit, rfl⟩ : ∃ n, limit = n + 1 := ⟨limit - 1, by omega⟩
      rw [List.append_assoc] at hrest
      refine runRounds_succ_isSome (Or.inr ?_)
      refine hstep p _ s (t ++ rest) hrest hbound (hbefore ▸ first) fun new => ?_
      have hindex : (p.after s (t ++ rest) new).index ≠ p.index := by
        show p.index + s.length ≠ p.index
        omega
      rw [if_neg hindex]
      refine ih limit _ follow (congrArg (lastOr · s) hbefore) rfl ?_ (by omega) fun more => ?_
      · rw [hrest, List.length_append] at hbound
        show (t ++ rest).length ≤ bound
        omega
      · rw [Place.after_after]
        exact hfollow _

/-- **Runs are complete.** A run succeeds if its pattern describes a stretch after which what
follows succeeds, whatever is remembered on the way. -/
theorem run_isSome (limit : Nat) (pattern : Pattern) :
    ∀ (p : Place) (follow : Follow) (taken rest : List Char), p.rest = taken ++ rest →
      p.rest.length ≤ limit → pattern.Takes p.before taken rest →
        (∀ new, (follow (p.after taken rest new)).isSome) →
          (pattern.run limit p follow).isSome := by
  induction pattern with
  | empty =>
      intro p follow taken rest hrest _ htakes hfollow
      obtain rfl : taken = [] := htakes
      exact isSome_of_stay hrest hfollow
  | char accepts =>
      rintro p follow taken rest hrest _ ⟨c, hc, htaken⟩ hfollow
      subst htaken
      rw [run, hrest]
      show (if accepts c then follow (p.next c rest) else none).isSome
      rw [if_pos hc]
      exact hfollow []
  | wordEdge =>
      rintro p follow taken rest hrest _ ⟨htaken, hedge⟩ hfollow
      subst htaken
      obtain rfl : p.rest = rest := hrest
      have hhere : p.atWordEdge = true := bne_iff_ne.mpr hedge
      rw [run, if_pos hhere]
      exact isSome_of_stay rfl hfollow
  | lineStart =>
      rintro p follow taken rest hrest _ ⟨htaken, hstart⟩ hfollow
      subst htaken
      obtain rfl : p.rest = rest := hrest
      have hhere : p.atLineStart = true := hstart
      rw [run, if_pos hhere]
      exact isSome_of_stay rfl hfollow
  | textEnd =>
      rintro p follow taken rest hrest _ ⟨htaken, hend⟩ hfollow
      subst htaken
      obtain rfl : p.rest = rest := hrest
      rw [run, if_pos (List.isEmpty_iff.mpr hend)]
      exact isSome_of_stay rfl hfollow
  | seq first second ihFirst ihSecond =>
      rintro p follow taken rest hrest hlimit ⟨s, t, htaken, hfirst, hsecond⟩ hfollow
      subst htaken
      rw [List.append_assoc] at hrest
      refine ihFirst p _ s (t ++ rest) hrest hlimit hfirst fun new => ?_
      refine ihSecond _ follow t rest rfl ?_ hsecond fun more => ?_
      · rw [hrest, List.length_append] at hlimit
        exact Nat.le_trans (Nat.le_add_left _ _) hlimit
      · rw [Place.after_after]
        exact hfollow _
  | either first second ihFirst ihSecond =>
      intro p follow taken rest hrest hlimit htakes hfollow
      rcases htakes with htakes | htakes
      · exact orElse_isSome (Or.inl (ihFirst p follow taken rest hrest hlimit htakes hfollow))
      · exact orElse_isSome (Or.inr (ihSecond p follow taken rest hrest hlimit htakes hfollow))
  | chars accepts eager =>
      intro p follow taken rest hrest _ htakes hfollow
      -- the order in which the places are tried does not matter here
      have hmem : p.after taken rest []
          ∈ Place.stops accepts p.before p.index p.captures p.rest := by
        rw [hrest]
        exact mem_stops_of_forall taken htakes
      rw [run, Place.stopsBack_eq, List.append_nil]
      split
      · exact List.findSome?_isSome_iff.mpr ⟨_, List.mem_reverse.mpr hmem, hfollow []⟩
      · exact List.findSome?_isSome_iff.mpr ⟨_, hmem, hfollow []⟩
  | rounds body eager ih =>
      intro p follow taken rest hrest hlimit htakes hfollow
      refine runRounds_isSome ih eager htakes limit p follow rfl hrest hlimit ?_ hfollow
      rw [hrest, List.length_append] at hlimit
      exact Nat.le_trans (Nat.le_add_right _ _) hlimit
  | capture slot body ih =>
      intro p follow taken rest hrest hlimit htakes hfollow
      exact ih p _ taken rest hrest hlimit htakes fun new => hfollow (_ :: new)
  | ahead body ih =>
      rintro p follow taken rest hrest hlimit ⟨htaken, s, t, hs, htakes⟩ hfollow
      subst htaken
      obtain rfl : p.rest = rest := hrest
      rw [run, if_pos (ih p some s t hs hlimit htakes fun _ => rfl)]
      exact isSome_of_stay rfl hfollow

/-- A pattern has a match where it describes a stretch. -/
theorem matchHere?_isSome {pattern : Pattern} {limit : Nat} {here : Place} {taken rest : List Char}
    (hrest : here.rest = taken ++ rest) (hlimit : here.rest.length ≤ limit)
    (h : pattern.Takes here.before taken rest) : (pattern.matchHere? limit here).isSome := by
  unfold matchHere?
  rw [Option.isSome_map]
  exact run_isSome limit pattern here some taken rest hrest hlimit h fun _ => rfl

/-! ## Greedy ends -/

/-- The farthest place of a repetition is before a character that is not of its class. -/
theorem stops_getLast {accepts : Char → Bool} (rest : List Char) :
    ∀ (before : Option Char) (index : Nat) (captures : List (Nat × Capture)),
      ∃ nearer p, Place.stops accepts before index captures rest = nearer ++ [p]
        ∧ ∀ c ∈ p.rest.head?, accepts c = false := by
  induction rest with
  | nil => exact fun before index captures => ⟨[], _, rfl, fun c hc => nomatch hc⟩
  | cons c rest ih =>
      intro before index captures
      rw [Place.stops]
      split
      · obtain ⟨nearer, p, hstops, hp⟩ := ih (some c) (index + 1) captures
        exact ⟨_ :: nearer, p, by rw [hstops]; rfl, hp⟩
      · rename_i hc
        refine ⟨[], _, rfl, fun d hd => ?_⟩
        obtain rfl := Option.some.inj hd
        exact Bool.eq_false_iff.mpr hc

/-- An eager repetition goes as far as it can if what follows cannot fail. -/
theorem run_chars_of_total {accepts : Char → Bool} {limit : Nat} {q last : Place}
    {f : Place → Place} (h : (chars accepts true).run limit q (fun e => some (f e)) = some last) :
    ∃ t rest, q.rest = t ++ rest ∧ (∀ c ∈ t, accepts c = true)
      ∧ (∀ c ∈ rest.head?, accepts c = false) ∧ last = f (q.after t rest []) := by
  obtain ⟨nearer, p, hstops, hfar⟩ :=
    stops_getLast q.rest q.before q.index q.captures
  have hp : p ∈ Place.stops accepts q.before q.index q.captures q.rest := by
    rw [hstops]
    exact List.mem_append_right _ List.mem_cons_self
  obtain ⟨t, rest, ht, hall, rfl⟩ := mem_stops q.rest hp
  rw [run, if_pos rfl, Place.stopsBack_eq, List.append_nil, hstops, List.reverse_append] at h
  exact ⟨t, rest, ht, hall, hfar, (Option.some.inj h).symm⟩

/-- A match whose last part is an eager repetition goes as far as it can. -/
theorem greedy_of_matchHere? {front : Pattern} {accepts : Char → Bool} {slot limit : Nat}
    {here : Place} {m : Match}
    (h : (front ++ capture slot (many1 accepts)).matchHere? limit here = some m) :
    ∃ s t rest, here.rest = s ++ (t ++ rest)
      ∧ front.Takes here.before s (t ++ rest)
      ∧ t ≠ [] ∧ (∀ c ∈ t, accepts c = true) ∧ (∀ c ∈ rest.head?, accepts c = false)
      ∧ m.group slot = t ∧ m.stop = here.index + (s.length + t.length) := by
  obtain ⟨last, hrun, rfl⟩ := Option.map_eq_some_iff.mp h
  obtain ⟨s, r, old, hs, hfront, -, hrun⟩ := run_passes limit front here _ last hrun
  obtain ⟨_, r', inner, hr, ⟨c, hc, rfl⟩, -, hrun⟩ :=
    run_passes limit (char accepts) (here.after s r old)
      (fun q => (chars accepts true).run limit q fun e =>
        some (e.remember slot (here.after s r old))) last hrun
  obtain rfl : r = c :: r' := hr
  -- nothing can fail after the repetition
  obtain ⟨t, rest, ht, hall, hfar, rfl⟩ := run_chars_of_total hrun
  obtain rfl : r' = t ++ rest := ht
  refine ⟨s, c :: t, rest, hs, hfront, List.cons_ne_nil c t, ?_, hfar, ?_, ?_⟩
  · intro d hd
    rcases List.mem_cons.mp hd with rfl | hd
    · exact hc
    · exact hall d hd
  · refine group_of_lookup (t := c :: t) (r := rest) List.lookup_cons_self ?_
    show here.index + s.length + 1 + t.length = here.index + s.length + (t.length + 1)
    omega
  · show here.index + s.length + 1 + t.length = _
    rw [List.length_cons]
    omega

end Pattern

end ServiceMap
