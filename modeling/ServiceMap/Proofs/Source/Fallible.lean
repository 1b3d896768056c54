import Mathlib.Data.List.Forall2

/-!
# Computations that may fail

How a computation in several steps succeeds, and what comes of one computation for each of several
things.
-/

namespace ServiceMap

section

variable {ε α β γ : Type}

theorem except_ok_bind (a : α) (f : α → Except ε β) : ((Except.ok a : Except ε α) >>= f) = f a :=
  rfl

theorem except_error_bind (e : ε) (f : α → Except ε β) :
    ((Except.error e : Except ε α) >>= f) = .error e :=
  rfl

/-- A computation in two steps succeeds if both do. -/
theorem except_bind_eq_ok {x : Except ε α} {f : α → Except ε β} {b : β} (h : x >>= f = .ok b) :
    ∃ a, x = .ok a ∧ f a = .ok b := by
  cases x with
  | error e => exact nomatch h
  | ok a => exact ⟨a, rfl, h⟩

theorem except_map_eq_ok {x : Except ε α} {f : α → β} {b : β} (h : x.map f = .ok b) :
    ∃ a, x = .ok a ∧ f a = b := by
  cases x with
  | error e => exact nomatch h
  | ok a => exact ⟨a, rfl, Except.ok.inj h⟩

theorem exists_ok_of_toOption {x : Except ε α} {f : α → β} {b : β}
    (h : x.toOption.map f = some b) : ∃ a, x = .ok a ∧ f a = b := by
  cases x with
  | error e => cases h
  | ok a => exact ⟨a, rfl, Option.some.inj h⟩

theorem except_map_bind (x : Except ε α) (f : α → Except ε β) (g : β → γ) :
    (x >>= f).map g = x >>= fun a => (f a).map g := by
  cases x <;> rfl

theorem except_bind_map {δ : Type} (x : Except ε α) (g : α → γ) (f : γ → Except ε δ) :
    x.map g >>= f = x >>= fun a => f (g a) := by
  cases x <;> rfl

/-- The second step does not see whether the first one yields a thing or what the thing is turned
into. -/
theorem except_bind_of_map {δ : Type} {x : Except ε α} {y : Except ε γ} {g : α → γ}
    {k : α → Except ε δ} {l : γ → Except ε δ} (hy : y = x.map g) (hl : ∀ a, l (g a) = k a) :
    y >>= l = x >>= k := by
  rw [hy, except_bind_map]
  exact bind_congr hl

/-- Two computations that look the same fail for the same cause or return what looks the same. -/
theorem except_map_eq_map {x : Except ε α} {y : Except ε β} {f : α → γ} {g : β → γ}
    (h : x.map f = y.map g) :
    (∃ e, x = .error e ∧ y = .error e) ∨ ∃ a b, x = .ok a ∧ y = .ok b ∧ f a = g b := by
  cases x with
  | error e =>
      cases y with
      | error e' => exact Or.inl ⟨e, rfl, congrArg Except.error (Except.error.inj h).symm⟩
      | ok b => exact nomatch h
  | ok a =>
      cases y with
      | error e' => exact nomatch h
      | ok b => exact Or.inr ⟨a, b, rfl, rfl, Except.ok.inj h⟩

/-! ## Each of several things -/

variable {f : α → Except ε β}

theorem mapM_isOk {xs : List α} (h : ∀ a ∈ xs, ∃ b, f a = .ok b) : ∃ bs, xs.mapM f = .ok bs := by
  induction xs with
  | nil => exact ⟨[], rfl⟩
  | cons a xs ih =>
      obtain ⟨b, hb⟩ := h a List.mem_cons_self
      obtain ⟨bs, hbs⟩ := ih fun c hc => h c (List.mem_cons_of_mem a hc)
      exact ⟨b :: bs, by rw [List.mapM_cons, hb, hbs]; rfl⟩

theorem exists_of_forall₂ {r : α → β → Prop} {xs : List α} {bs : List β}
    (h : List.Forall₂ r xs bs) {a : α} (ha : a ∈ xs) : ∃ b ∈ bs, r a b := by
  induction h with
  | nil => exact absurd ha List.not_mem_nil
  | cons hr _ ih =>
      rcases List.mem_cons.mp ha with rfl | ha
      · exact ⟨_, List.mem_cons_self, hr⟩
      · obtain ⟨b, hb, hr⟩ := ih ha
        exact ⟨b, List.mem_cons_of_mem _ hb, hr⟩

/-- What is computed for each of several things stands in one relation to it. -/
theorem forall₂_of_mapM_eq_ok {r : α → β → Prop} {xs : List α} : ∀ {bs : List β},
    xs.mapM f = .ok bs → (∀ a ∈ xs, ∀ b, f a = .ok b → r a b) → List.Forall₂ r xs bs := by
  induction xs with
  | nil =>
      intro bs h _
      obtain rfl := Except.ok.inj h
      exact .nil
  | cons a xs ih =>
      intro bs h hstep
      rw [List.mapM_cons] at h
      obtain ⟨b, hb, h⟩ := except_bind_eq_ok h
      obtain ⟨rest, hrest, h⟩ := except_bind_eq_ok h
      obtain rfl := Except.ok.inj h
      exact .cons (hstep a List.mem_cons_self b hb)
        (ih hrest fun c hc => hstep c (List.mem_cons_of_mem a hc))

theorem forall₂_mapM {xs : List α} {bs : List β} (h : xs.mapM f = .ok bs) :
    List.Forall₂ (fun a b => f a = .ok b) xs bs :=
  forall₂_of_mapM_eq_ok h fun _ _ _ hb => hb

theorem exists_mem_of_mapM_eq_ok {a : α} {xs : List α} {bs : List β} (h : xs.mapM f = .ok bs)
    (ha : a ∈ xs) : ∃ b ∈ bs, f a = .ok b :=
  exists_of_forall₂ (forall₂_mapM h) ha

theorem mem_of_mapM_eq_ok {xs : List α} {bs : List β} {b : β} (h : xs.mapM f = .ok bs)
    (hb : b ∈ bs) : ∃ a ∈ xs, f a = .ok b :=
  exists_of_forall₂ (forall₂_mapM h).flip hb

/-- The results of a computation for each of several things. -/
theorem mem_of_mapM_iff {xs : List α} {bs : List β} {b : β} (h : xs.mapM f = .ok bs) :
    b ∈ bs ↔ ∃ a ∈ xs, f a = .ok b := by
  constructor
  · exact mem_of_mapM_eq_ok h
  · rintro ⟨a, ha, hb⟩
    obtain ⟨b', hb', hfound⟩ := exists_mem_of_mapM_eq_ok h ha
    exact Except.ok.inj (hb.symm.trans hfound) ▸ hb'

/-- The results of a computation that may leave some things out. -/
theorem mem_of_mapM_option_iff {f : α → Except ε (Option β)} {xs : List α} {bs : List (Option β)}
    {b : β} (h : xs.mapM f = .ok bs) : b ∈ bs.filterMap id ↔ ∃ a ∈ xs, f a = .ok (some b) := by
  rw [List.mem_filterMap]
  constructor
  · rintro ⟨found, hfound, rfl⟩
    exact (mem_of_mapM_iff h).mp hfound
  · exact fun hb => ⟨some b, (mem_of_mapM_iff h).mpr hb, rfl⟩

/-- What is computed for each is in order if it is for each two in order. -/
theorem pairwise_of_mapM_eq_ok {r : α → α → Prop} {q : β → β → Prop}
    (hstep : ∀ {a a' b b'}, r a a' → f a = .ok b → f a' = .ok b' → q b b') {xs : List α}
    {bs : List β} (hxs : xs.Pairwise r) (h : xs.mapM f = .ok bs) : bs.Pairwise q := by
  have hall := forall₂_mapM h
  clear h
  induction hall with
  | nil => exact List.Pairwise.nil
  | cons hb hrest ih =>
      obtain ⟨ha, hxs⟩ := List.pairwise_cons.mp hxs
      refine List.pairwise_cons.mpr ⟨fun b' hb' => ?_, ih hxs⟩
      obtain ⟨a', ha', hfound⟩ := exists_of_forall₂ hrest.flip hb'
      exact hstep (ha a' ha') hb hfound

/-- If there is only one way to fail, one failure is the failure of all. -/
theorem mapM_eq_error {xs : List α} {e : ε} (hone : ∀ a ∈ xs, ∀ e', f a = .error e' → e' = e)
    {a : α} (ha : a ∈ xs) (hf : f a = .error e) : xs.mapM f = .error e := by
  induction xs with
  | nil => exact absurd ha List.not_mem_nil
  | cons b xs ih =>
      rw [List.mapM_cons]
      cases hb : f b with
      | error e' =>
          obtain rfl := hone b List.mem_cons_self e' hb
          rfl
      | ok c =>
          have hrest : a ∈ xs := by
            rcases List.mem_cons.mp ha with rfl | h
            · exact nomatch hb.symm.trans hf
            · exact h
          rw [ih (fun d hd => hone d (List.mem_cons_of_mem b hd)) hrest]
          rfl

theorem mapM_eq_map {h : α → Except ε γ} {g : β → γ} {xs : List α}
    (heq : ∀ a ∈ xs, h a = (f a).map g) : xs.mapM h = (xs.mapM f).map (List.map g) := by
  induction xs with
  | nil => rfl
  | cons a xs ih =>
      rw [List.mapM_cons, List.mapM_cons, heq a List.mem_cons_self,
        ih fun b hb => heq b (List.mem_cons_of_mem a hb)]
      cases f a with
      | error e => rfl
      | ok b =>
          cases xs.mapM f with
          | error e => rfl
          | ok bs => rfl

/-- What is computed for each may be turned into something else at the end. -/
theorem mapM_map (g : β → γ) (xs : List α) :
    (xs.mapM fun a => (f a).map g) = (xs.mapM f).map (List.map g) :=
  mapM_eq_map fun _ _ => rfl

/-- Each of several computations succeeds if all that is seen of their results is as expected. -/
theorem exists_mapM_of_map {g : β → γ} {xs : List α} {expected : List γ}
    (h : xs.map (fun a => (f a).map g) = expected.map .ok) :
    ∃ bs, xs.mapM f = .ok bs ∧ bs.map g = expected := by
  induction xs generalizing expected with
  | nil =>
      cases expected with
      | nil => exact ⟨[], rfl, rfl⟩
      | cons c expected => exact nomatch h
  | cons a xs ih =>
      cases expected with
      | nil => exact nomatch h
      | cons c expected =>
          obtain ⟨ha, hxs⟩ : (f a).map g = .ok c ∧ _ := List.cons.inj h
          obtain ⟨bs, hbs, hseen⟩ := ih hxs
          cases hb : f a with
          | error e =>
              rw [hb] at ha
              exact nomatch ha
          | ok b =>
              rw [hb] at ha
              refine ⟨b :: bs, ?_, ?_⟩
              · rw [List.mapM_cons, hb, hbs]
                rfl
              · rw [List.map_cons, hseen, Except.ok.inj ha]

/-- What each step of a run keeps, the run keeps. -/
theorem foldlM_invariant {f : β → α → Except ε β} {P : β → Prop}
    (hstep : ∀ {b a b'}, P b → f b a = .ok b' → P b') {xs : List α} {b b' : β} (hb : P b)
    (h : xs.foldlM f b = .ok b') : P b' := by
  induction xs generalizing b with
  | nil => exact Except.ok.inj h ▸ hb
  | cons a xs ih =>
      rw [List.foldlM_cons] at h
      obtain ⟨next, hnext, h⟩ := except_bind_eq_ok h
      exact ih (hstep hb hnext) h

end

/-! ## Causes of failure -/

/-- A computation that fails, if it does, for a cause of this kind. -/
def FailsOnly {ε α : Type} (cause : ε → Prop) (x : Except ε α) : Prop :=
  ∀ e, x = .error e → cause e

/-- A computation that has a result. -/
abbrev NeverFails {ε α : Type} (x : Except ε α) : Prop :=
  FailsOnly (fun _ => False) x

section Causes

variable {ε α β : Type} {cause : ε → Prop} {x : Except ε α}

theorem neverFails_iff : NeverFails x ↔ ∃ a, x = .ok a := by
  constructor
  · intro h
    cases x with
    | error e => exact absurd rfl (h e)
    | ok a => exact ⟨a, rfl⟩
  · rintro ⟨a, rfl⟩ e h
    exact nomatch h

namespace FailsOnly

theorem ok (a : α) : FailsOnly cause (.ok a : Except ε α) :=
  fun _ h => nomatch h

theorem pure (a : α) : FailsOnly cause (Pure.pure a : Except ε α) :=
  ok a

theorem of_neverFails (h : NeverFails x) : FailsOnly cause x :=
  fun e he => (h e he).elim

theorem map (h : FailsOnly cause x) (f : α → β) : FailsOnly cause (x.map f) := by
  cases x with
  | error e => exact fun e' he => Except.error.inj he ▸ h e rfl
  | ok a => exact ok (f a)

theorem bind {f : α → Except ε β} (h : FailsOnly cause x)
    (hf : ∀ a, x = .ok a → FailsOnly cause (f a)) : FailsOnly cause (x >>= f) := by
  cases x with
  | error e => exact fun e' he => Except.error.inj he ▸ h e rfl
  | ok a => exact hf a rfl

theorem mapM {f : α → Except ε β} {xs : List α} (h : ∀ a ∈ xs, FailsOnly cause (f a)) :
    FailsOnly cause (xs.mapM f) := by
  induction xs with
  | nil => exact ok []
  | cons a xs ih =>
      rw [List.mapM_cons]
      refine bind (h a List.mem_cons_self) fun b _ => ?_
      refine bind (ih fun c hc => h c (List.mem_cons_of_mem a hc)) fun bs _ => ?_
      exact pure (b :: bs)

theorem foldlM {f : β → α → Except ε β} {xs : List α}
    (h : ∀ b, ∀ a ∈ xs, FailsOnly cause (f b a)) (b : β) :
    FailsOnly cause (xs.foldlM f b) := by
  induction xs generalizing b with
  | nil => exact ok b
  | cons a xs ih =>
      rw [List.foldlM_cons]
      refine bind (h b a List.mem_cons_self) fun c _ => ?_
      exact ih (fun d e he => h d e (List.mem_cons_of_mem a he)) c

end FailsOnly

end Causes

end ServiceMap
