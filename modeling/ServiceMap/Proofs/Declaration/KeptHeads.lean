import ServiceMap.Proofs.Declaration.SteadyHeads
import ServiceMap.Proofs.Facts.SameCode

/-!
# Declarations around literals

What is read of a declaration: the stretch before it, with its annotations and comments, its type, its
name and its parameters. These stretches make up its head. Two texts that differ within literals, none
of which stands in a head, declare the same.
-/

namespace ServiceMap

open Text Source Pattern

/-! ## Things that look the same -/

section

variable {ε α β γ κ : Type} {key : α → κ} {key' : β → κ}

theorem map_filter_congr {p : α → Bool} {q : β → Bool} :
    ∀ {xs : List α} {ys : List β}, xs.map key = ys.map key' →
      (∀ a ∈ xs, ∀ b ∈ ys, key a = key' b → p a = q b) →
        (xs.filter p).map key = (ys.filter q).map key'
  | [], [], _, _ => rfl
  | a :: xs, b :: ys, h, hpq => by
      obtain ⟨hab, hrest⟩ := List.cons.inj h
      have ih := map_filter_congr hrest fun c hc d hd =>
        hpq c (List.mem_cons_of_mem a hc) d (List.mem_cons_of_mem b hd)
      rw [List.filter_cons, List.filter_cons, hpq a List.mem_cons_self b List.mem_cons_self hab]
      split
      · rw [List.map_cons, List.map_cons, hab, ih]
      · exact ih

/-- The same computation for each of several things that look the same. -/
theorem AgreeUpTo.mapM_of_mem {δ : Type} {view : γ → δ} {f : α → Except ε γ} {g : β → Except ε γ} :
    ∀ {xs : List α} {ys : List β}, xs.map key = ys.map key' →
      (∀ a ∈ xs, ∀ b ∈ ys, key a = key' b → AgreeUpTo view (f a) (g b)) →
        AgreeUpTo (List.map view) (xs.mapM f) (ys.mapM g)
  | [], [], _, _ => rfl
  | a :: xs, b :: ys, h, hfg => by
      obtain ⟨hab, hrest⟩ := List.cons.inj h
      rw [List.mapM_cons, List.mapM_cons]
      refine (hfg a List.mem_cons_self b List.mem_cons_self hab).bind fun c d hcd => ?_
      refine (mapM_of_mem hrest fun c hc d hd =>
        hfg c (List.mem_cons_of_mem a hc) d (List.mem_cons_of_mem b hd)).bind fun cs ds hcds => ?_
      exact .pure (by rw [List.map_cons, List.map_cons, hcd, hcds])

theorem mapM_congr_of_mem {f : α → Except ε γ} {g : β → Except ε γ} {xs : List α} {ys : List β}
    (h : xs.map key = ys.map key') (hfg : ∀ a ∈ xs, ∀ b ∈ ys, key a = key' b → f a = g b) :
    xs.mapM f = ys.mapM g := by
  have hid : ∀ {δ : Type} (x : Except ε δ), x.map id = x := fun x => by cases x <;> rfl
  have hagree : AgreeUpTo (List.map id) (xs.mapM f) (ys.mapM g) :=
    AgreeUpTo.mapM_of_mem h fun a ha b hb hab => congrArg (Except.map id) (hfg a ha b hb hab)
  rwa [AgreeUpTo, List.map_id_fun, hid, hid] at hagree

end

/-! ## Stretches of heads -/

/-- Where the stretch remembered under `slot` ends. -/
def Match.groupStop (m : Match) (slot : Nat) : Nat :=
  ((m.capture? slot).map Capture.stop).getD m.start

/-- The stretch remembered under `slot`, by its ends. -/
def Match.stretch (m : Match) (slot : Nat) : Nat × Nat :=
  (m.groupStart slot, m.groupStop slot)

theorem Match.stretch_congr {m n : Match} (h : m.outline = n.outline) (slot : Nat) :
    m.stretch slot = n.stretch slot := by
  have hstop : ∀ x : Option Capture, x.map Capture.stop
      = (x.map Capture.outline).map (·.2.1) := by
    intro x
    rw [Option.map_map]
    rfl
  rw [Match.stretch, Match.stretch, Match.groupStop, Match.groupStop, hstop, hstop,
    Match.capture?_congr h, Match.start_congr h, Match.groupStart_congr h]

/-- A place in a text whose remembered stretches are stretches of this text. -/
def Place.RemembersIn (text : List Char) (p : Place) : Prop :=
  p.IsIn text ∧ ∀ entry ∈ p.captures, entry.2.source = text.drop entry.2.start

theorem Place.remembersIn_keptByMoves (text : List Char) : KeptByMoves (RemembersIn text) where
  next := fun p c rest hp hrest => ⟨(isIn_keptByMoves text).next p c rest hp.1 hrest, hp.2⟩
  remember := by
    intro p slot begun hp hbegun
    refine ⟨hp.1, fun entry hentry => ?_⟩
    rcases List.mem_cons.mp hentry with rfl | hentry
    · exact hbegun.1
    · exact hp.2 entry hentry

/-- What a match remembers is a stretch of the text. -/
theorem Pattern.group_eq_slice {pattern : Pattern} {limit resume : Nat} (index : Nat)
    {before : Option Char} (text : List Char) {m : Match}
    (hm : m ∈ pattern.allFrom limit resume before index (text.drop index)) (slot : Nat) :
    m.group slot = slice text (m.stretch slot).1 (m.stretch slot).2 := by
  obtain ⟨done, more, htext, hmatch⟩ := split_of_mem_allFrom _ hm
  have hmore : more = text.drop (index + done.length) := by
    rw [← List.drop_drop, htext, List.drop_left]
  obtain ⟨last, hrun, rfl⟩ := Option.map_eq_some_iff.mp hmatch
  obtain ⟨q, hq, hlast⟩ := run_kept (Place.remembersIn_keptByMoves text) limit pattern _ _ last hrun
    ⟨hmore, fun _ h => absurd h List.not_mem_nil⟩
  obtain rfl := Option.some.inj hlast
  unfold Match.group Match.group? Match.stretch Match.groupStart Match.groupStop Match.capture?
  cases hlookup : q.captures.lookup slot with
  | none =>
      show [] = slice text (index + done.length) (index + done.length)
      rw [slice, List.drop_eq_nil_of_le (List.length_take_le _ _)]
  | some capture =>
      obtain ⟨l₁, l₂, heq, -⟩ := List.lookup_eq_some_iff.mp hlookup
      have hsource := hq.2 (slot, capture) (by rw [heq]; simp)
      show capture.source.take (capture.stop - capture.start)
        = slice text capture.start capture.stop
      rw [hsource, slice, List.drop_take]

namespace Declaration

/-- The stretch that is read before a declaration. -/
def preambleStretch (masked : List Char) (index : Nat) : Nat × Nat :=
  (index - preambleLength 0 (masked.take index).reverse, index)

/-- What is read of a member that starts at `start`, but for its name. -/
def memberStretches (masked : List Char) (m : Match) (start : Nat) : List (Nat × Nat) :=
  [preambleStretch masked start, m.stretch 2]

/-- The inside of the parentheses at `index`. -/
def listStretches (masked : List Char) (index : Nat) : List (Nat × Nat) :=
  match groupEnd masked index with
  | .ok stop => [(index + 1, stop - 1)]
  | .error _ => []

/-- Where the words before the name of a method start. -/
def methodStart (m : Match) : Nat :=
  if (m.group 1).isEmpty then m.groupStart 2 else m.groupStart 1

theorem methodStart_congr {m n : Match} (hmn : m.outline = n.outline) (hwords : '"' ∉ m.group 1) :
    methodStart m = methodStart n := by
  rw [methodStart, methodStart, Match.group_congr hmn hwords, Match.groupStart_congr hmn,
    Match.groupStart_congr hmn]

/-- What is read of the head of a method, but for its name. -/
def methodStretches (masked : List Char) (m : Match) : List (Nat × Nat) :=
  memberStretches masked m (methodStart m) ++ listStretches masked (m.stop - 1)

/-- What is read of the members in a body that opens at `brace`. -/
def bodyStretches (masked : List Char) (members : Span → List Match) (brace : Nat) :
    List (Nat × Nat) :=
  match groupEnd masked brace with
  | .ok stop =>
    (members ⟨brace + 1, stop⟩).flatMap fun m => memberStretches masked m (m.groupStart 1)
  | .error _ => []

end Declaration

/-! ## Texts that differ in no head -/

/-- Two texts are the same in a stretch. -/
def KeptIn (s t : List Char) (stretch : Nat × Nat) : Prop :=
  slice s stretch.1 stretch.2 = slice t stretch.1 stretch.2

instance (s t : List Char) (stretch : Nat × Nat) : Decidable (KeptIn s t stretch) :=
  inferInstanceAs (Decidable (_ = _))

/-- Two sources that differ within literals, with the same comments. -/
structure Source.SourceText.Veiled (s t : SourceText) : Prop where
  masked : ServiceMap.Veiled false s.masked t.masked
  comments : commentsOf s.text s.masked = commentsOf t.text t.masked

theorem commentsOf_slice (text masked : List Char) (start stop : Nat) :
    commentsOf (slice text start stop) (slice masked start stop)
      = slice (commentsOf text masked) start stop := by
  unfold commentsOf slice
  rw [List.zip_eq_zipWith, List.zip_eq_zipWith, ← List.map_take, ← List.map_drop,
    List.take_zipWith, List.drop_zipWith]

namespace KeptIn

variable {s t : List Char}

/-- A stretch of the first texts is the same in both, however far these reach. -/
theorem take {stretch : Nat × Nat} (h : KeptIn s t stretch) (n : Nat) :
    KeptIn (s.take n) (t.take n) stretch := by
  have htake : ∀ u : List Char, slice (u.take n) stretch.1 stretch.2
      = (slice u stretch.1 stretch.2).take (n - stretch.1) := by
    intro u
    rw [slice, slice, List.take_take, Nat.min_comm, ← List.take_take, List.drop_take]
  rw [KeptIn, htake, htake, h]

end KeptIn

section Readers

variable {s t : SourceText}

theorem readPreamble_kept (h : s.Veiled t) (style : PreambleStyle) (index : Nat)
    (hkept : KeptIn s.masked t.masked (Declaration.preambleStretch s.masked index)) :
    readPreamble style s.text s.masked index = readPreamble style t.text t.masked index := by
  have hstart := h.masked.sameMarks.preambleStart index
  rw [readPreamble, readPreamble, ← hstart]
  by_cases hpast : s.masked.length < index
  · rw [preambleStart, if_pos hpast]
    rfl
  · rw [preambleStart, if_neg hpast, except_ok_bind, except_ok_bind, readRegion, readRegion,
      commentsOf_slice, commentsOf_slice, h.comments]
    have hregion : slice s.masked (index - preambleLength 0 (s.masked.take index).reverse) index
        = slice t.masked (index - preambleLength 0 (s.masked.take index).reverse) index := hkept
    rw [hregion]

theorem group_kept {s t : List Char} (h : Veiled false s t) {index : Nat}
    (hkept : ∀ stretch ∈ Declaration.listStretches s index, KeptIn s t stretch) :
    group s index = group t index := by
  unfold group
  rw [← h.sameMarks.groupEnd index]
  unfold Declaration.listStretches at hkept
  cases hend : groupEnd s index with
  | error fault => rfl
  | ok stop =>
      rw [hend] at hkept
      have hinside : insideGroup s index stop = insideGroup t index stop :=
        hkept _ List.mem_cons_self
      rw [Except.map, Except.map, hinside]

end Readers

/-! ## Members -/

namespace Declaration

/-- Words of the language hold no double quote, so that they are told from every type. -/
theorem contains_congr (words : List String) (hwords : words.all (!·.toList.contains '"') = true)
    {type type' : List Char} (h : quoteless? type = quoteless? type') :
    words.contains (String.ofList type) = words.contains (String.ofList type') := by
  by_cases hquote : '"' ∈ type
  · have hquote' : '"' ∈ type' := by
      by_contra hnot
      rw [quoteless?_of_mem hquote, quoteless?_of_not_mem hnot] at h
      exact nomatch h
    have hnone : ∀ {u : List Char}, '"' ∈ u → words.contains (String.ofList u) = false := by
      intro u hu
      refine Bool.eq_false_iff.mpr fun hcontains => ?_
      have hword := List.all_eq_true.mp hwords _ (List.contains_iff_mem.mp hcontains)
      rw [String.toList_ofList] at hword
      simp [hu] at hword
    rw [hnone hquote, hnone hquote']
  · rw [eq_of_quoteless? hquote h]

/-- The field or property that a match has found. -/
def readMember (style : PreambleStyle) (source : SourceText) (m : Match) :
    Except Fault Property := do
  let preamble ← readPreamble style source.text source.masked (m.groupStart 1)
  return {
    name := String.ofList (m.group 3)
    type := String.ofList (m.group 2)
    description := String.ofList preamble.description
    annotations := strings preamble.annotations }

theorem readMember_kept {s t : SourceText} (h : s.Veiled t) (style : PreambleStyle) {m n : Match}
    (hmn : m.outline = n.outline) (hname : '"' ∉ m.group 3) (htype : m.group 2 = n.group 2)
    (hkept : ∀ stretch ∈ memberStretches s.masked m (m.groupStart 1),
      KeptIn s.masked t.masked stretch) :
    readMember style s m = readMember style t n := by
  have hpreamble := readPreamble_kept h style _ (hkept _ List.mem_cons_self)
  rw [readMember, readMember, ← Match.groupStart_congr hmn, ← hpreamble, htype,
    Match.group_congr hmn hname]

/-- A type that stands in a kept stretch is the same in both texts. -/
theorem type_kept {pattern : Pattern} {s t : List Char} {start stop : Nat} {m n : Match}
    (hm : m ∈ pattern.findBetween s start stop) (hn : n ∈ pattern.findBetween t start stop)
    (hmn : m.outline = n.outline) (hkept : KeptIn s t (m.stretch 2)) : m.group 2 = n.group 2 := by
  rw [group_eq_slice _ _ hm, group_eq_slice _ _ hn, ← Match.stretch_congr hmn]
  exact hkept.take stop

theorem type_kept_findAll {pattern : Pattern} {s t : List Char} {m n : Match}
    (hm : m ∈ pattern.findAll s) (hn : n ∈ pattern.findAll t) (hmn : m.outline = n.outline)
    (hkept : KeptIn s t (m.stretch 2)) : m.group 2 = n.group 2 := by
  rw [group_eq_slice 0 s hm, group_eq_slice 0 t hn,
    ← Match.stretch_congr hmn]
  exact hkept

/-- Members that lie alike in both texts are read alike if what is read of their heads is kept. -/
theorem readMembers_kept {s t : SourceText} (h : s.Veiled t) (style : PreambleStyle)
    {pattern : Pattern} {start stop : Nat} {members members' : List Match}
    (hs : ∀ m ∈ members, m ∈ pattern.findBetween s.masked start stop)
    (ht : ∀ n ∈ members', n ∈ pattern.findBetween t.masked start stop)
    (halike : members.map Match.outline = members'.map Match.outline)
    (hname : ∀ m ∈ members, '"' ∉ m.group 3)
    (hkept : ∀ m ∈ members, ∀ stretch ∈ memberStretches s.masked m (m.groupStart 1),
      KeptIn s.masked t.masked stretch) :
    members.mapM (readMember style s) = members'.mapM (readMember style t) := by
  refine mapM_congr_of_mem halike fun m hm n hn hmn => ?_
  have htype := type_kept (hs m hm) (ht n hn) hmn
    (hkept m hm _ (List.mem_cons_of_mem _ List.mem_cons_self))
  exact readMember_kept h style hmn (hname m hm) htype (hkept m hm)

/-! ## Methods and their types -/

/-- All that is read of the head of a method is the same in both texts. -/
structure SameMethodHead (style : PreambleStyle) (s t : SourceText) (m n : Match) : Prop where
  list : group s.masked (m.stop - 1) = group t.masked (n.stop - 1)
  preamble : readPreamble style s.text s.masked (methodStart m)
    = readPreamble style t.text t.masked (methodStart n)
  line : s.lineNumber (m.groupStart 2) = t.lineNumber (n.groupStart 2)
  start : m.start = n.start
  words : m.group 1 = n.group 1
  type : m.group 2 = n.group 2
  name : m.group 3 = n.group 3

theorem sameMethodHead {s t : SourceText} (h : s.Veiled t) (style : PreambleStyle)
    {pattern : Pattern} {m n : Match} (hm : m ∈ pattern.findAll s.masked)
    (hn : n ∈ pattern.findAll t.masked) (hmn : m.outline = n.outline)
    (hgroups : '"' ∉ m.group 1 ∧ '"' ∉ m.group 3)
    (hkept : ∀ stretch ∈ methodStretches s.masked m, KeptIn s.masked t.masked stretch) :
    SameMethodHead style s t m n where
  list := by
    rw [← Match.stop_congr hmn]
    exact group_kept h.masked fun stretch hstretch =>
      hkept stretch (List.mem_append_right _ hstretch)
  preamble := by
    rw [← methodStart_congr hmn hgroups.1]
    exact readPreamble_kept h style _ (hkept _ (List.mem_append_left _ List.mem_cons_self))
  line := by
    rw [← Match.groupStart_congr hmn]
    exact h.masked.sameMarks.lineNumber _
  start := Match.start_congr hmn
  words := Match.group_congr hmn hgroups.1
  type := type_kept_findAll hm hn hmn
    (hkept _ (List.mem_append_left _ (List.mem_cons_of_mem _ List.mem_cons_self)))
  name := Match.group_congr hmn hgroups.2

/-- A method without its body. -/
def DeclaredMethod.bodiless (m : DeclaredMethod) : DeclaredMethod := { m with body := [] }

/-- A method with the number of its type, without its body. -/
def bodilessEntry (entry : Nat × DeclaredMethod) : Nat × DeclaredMethod :=
  (entry.1, entry.2.bodiless)

/-- Which type a method belongs to does not depend on its body. -/
theorem ownedMethods_bodiless (types : List OpenType) (masked : List Char)
    (methods : List DeclaredMethod) :
    (ownedMethods types masked methods).map bodilessEntry
      = ownedMethods types masked (methods.map DeclaredMethod.bodiless) := by
  rw [ownedMethods, ownedMethods, List.map_filterMap, List.filterMap_map]
  congr 1
  funext m
  exact Option.map_map ..

theorem ownedMethods_kept {s t : List Char} (h : SameMarks s t) (types : List OpenType)
    {methods methods' : List DeclaredMethod}
    (hmethods : methods.map DeclaredMethod.bodiless = methods'.map DeclaredMethod.bodiless) :
    (ownedMethods types s methods).map bodilessEntry
      = (ownedMethods types t methods').map bodilessEntry := by
  rw [ownedMethods_bodiless, ownedMethods_bodiless, hmethods, ownedMethods, ownedMethods]
  simp only [h.owner?]

/-- What a type is given of its methods does not hold their bodies. -/
theorem withMethods_bodiless (types : List OpenType) (owned : List (Nat × DeclaredMethod)) :
    withMethods types (owned.map bodilessEntry) = withMethods types owned := by
  rw [withMethods, withMethods]
  congr 1
  funext entry
  simp only [List.filter_map, List.map_map]
  rfl

theorem infos_bodiless (owned : List (Nat × DeclaredMethod)) :
    (owned.map bodilessEntry).map (fun entry => entry.2.info)
      = owned.map fun entry => entry.2.info := by
  rw [List.map_map]
  rfl

section

variable {owned owned' : List (Nat × DeclaredMethod)}
  (h : owned.map bodilessEntry = owned'.map bodilessEntry)
include h

theorem withMethods_of_bodiless (types : List OpenType) :
    withMethods types owned = withMethods types owned' := by
  rw [← withMethods_bodiless types owned, h, withMethods_bodiless]

theorem infos_of_bodiless :
    owned.map (fun entry => entry.2.info) = owned'.map fun entry => entry.2.info := by
  rw [← infos_bodiless owned, h, infos_bodiless]

end

/-- A group is read in both texts, whatever it holds. -/
theorem group_agrees {s t : List Char} (h : SameMarks s t) (index : Nat) :
    AgreeUpTo (fun _ => ()) ((group s index).map Prod.fst) ((group t index).map Prod.fst) := by
  rw [group, group, h.groupEnd]
  cases groupEnd t index <;> rfl

end Declaration

end ServiceMap
