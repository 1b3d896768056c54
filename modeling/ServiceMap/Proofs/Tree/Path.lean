import ServiceMap.Tree.Path

/-!
# Texts of paths

A path of plain names is read back from its text, so that different paths have different texts. The
names that a path is read with are always plain, and a path holds the NUL character just when one
of its names does.
-/

namespace ServiceMap

namespace Text

/-! ## Splitting what was joined -/

theorem splitOn_of_all_not {p : Char → Bool} {s : List Char} (h : ∀ c ∈ s, p c = false) :
    splitOn p s = [s] := by
  induction s with
  | nil => rfl
  | cons c s ih =>
      have hc : p c = false := h c List.mem_cons_self
      rw [splitOn, ih fun d hd => h d (List.mem_cons_of_mem c hd)]
      simp only [hc, Bool.false_eq_true, if_false]

theorem splitOn_append_cons {p : Char → Bool} {s : List Char} (h : ∀ c ∈ s, p c = false)
    {c : Char} (hc : p c = true) (rest : List Char) :
    splitOn p (s ++ c :: rest) = s :: splitOn p rest := by
  induction s with
  | nil =>
      rw [List.nil_append, splitOn]
      split
      · rename_i hnil
        exact absurd hnil (splitOn_ne_nil p rest)
      · rename_i piece pieces hsplit
        rw [if_pos hc, hsplit]
  | cons d s ih =>
      have hd : p d = false := h d List.mem_cons_self
      rw [List.cons_append, splitOn, ih fun e he => h e (List.mem_cons_of_mem d he)]
      simp only [hd, Bool.false_eq_true, if_false]

/-- Pieces without the separator are found again in what they were joined to. -/
theorem splitOn_join {p : Char → Bool} {c : Char} (hc : p c = true) :
    ∀ {pieces : List (List Char)}, pieces ≠ [] → (∀ s ∈ pieces, ∀ d ∈ s, p d = false) →
      splitOn p (join [c] pieces) = pieces
  | [], hne, _ => absurd rfl hne
  | [s], _, h => splitOn_of_all_not (h s List.mem_cons_self)
  | s :: t :: rest, _, h => by
      have hs := h s List.mem_cons_self
      have htail := splitOn_join hc (List.cons_ne_nil t rest)
        fun u hu => h u (List.mem_cons_of_mem s hu)
      rw [join, List.append_assoc, List.singleton_append, splitOn_append_cons hs hc, htail]
      exact List.cons_ne_nil t rest

theorem splitOn_replicate_append {p : Char → Bool} {c : Char} (hc : p c = true) (n : Nat)
    (s : List Char) : splitOn p (List.replicate n c ++ s) = List.replicate n [] ++ splitOn p s := by
  induction n with
  | zero => rfl
  | succ n ih =>
      rw [List.replicate_succ, List.replicate_succ, List.cons_append, List.cons_append, ← ih]
      exact splitOn_append_cons (s := []) (fun d hd => absurd hd List.not_mem_nil) hc _

theorem not_mem_of_mem_splitOn {p : Char → Bool} {s piece : List Char}
    (h : piece ∈ splitOn p s) : ∀ c ∈ piece, p c = false := by
  induction s generalizing piece with
  | nil =>
      rw [splitOn, List.mem_singleton] at h
      subst h
      exact fun c hc => absurd hc List.not_mem_nil
  | cons d s ih =>
      unfold splitOn at h
      split at h
      · rename_i hnil
        exact absurd hnil (splitOn_ne_nil p s)
      · rename_i first others hsplit
        rw [hsplit] at ih
        split at h
        · rcases List.mem_cons.mp h with rfl | h
          · exact fun c hc => absurd hc List.not_mem_nil
          · exact ih h
        · rename_i hd
          rcases List.mem_cons.mp h with rfl | h
          · intro c hc
            rcases List.mem_cons.mp hc with rfl | hc
            · exact Bool.eq_false_iff.mpr hd
            · exact ih List.mem_cons_self c hc
          · exact ih (List.mem_cons_of_mem first h)

theorem mem_of_mem_splitOn {p : Char → Bool} {s piece : List Char}
    (h : piece ∈ splitOn p s) : ∀ c ∈ piece, c ∈ s := by
  induction s generalizing piece with
  | nil =>
      rw [splitOn, List.mem_singleton] at h
      subst h
      exact fun c hc => hc
  | cons d s ih =>
      unfold splitOn at h
      split at h
      · rename_i hnil
        exact absurd hnil (splitOn_ne_nil p s)
      · rename_i first others hsplit
        rw [hsplit] at ih
        have other : piece ∈ first :: others → ∀ c ∈ piece, c ∈ d :: s :=
          fun h c hc => List.mem_cons_of_mem d (ih h c hc)
        split at h
        · rcases List.mem_cons.mp h with rfl | h
          · exact fun c hc => absurd hc List.not_mem_nil
          · exact other h
        · rcases List.mem_cons.mp h with rfl | h
          · intro c hc
            rcases List.mem_cons.mp hc with rfl | hc
            · exact List.mem_cons_self
            · exact List.mem_cons_of_mem d (ih List.mem_cons_self c hc)
          · exact other (List.mem_cons_of_mem first h)

theorem any_join {p : Char → Bool} {c : Char} (hc : p c = false) :
    ∀ pieces : List (List Char), (join [c] pieces).any p = pieces.any fun s => s.any p
  | [] => rfl
  | [s] => by simp only [join, List.any_cons, List.any_nil, Bool.or_false]
  | s :: t :: rest => by
      have hjoin : join [c] (s :: t :: rest) = s ++ [c] ++ join [c] (t :: rest) := rfl
      rw [hjoin, List.any_append, List.any_append, any_join hc (t :: rest), List.any_cons]
      simp only [List.any_cons, List.any_nil, hc, Bool.or_false]

end Text

namespace Path

open Text

deriving instance ReflBEq, LawfulBEq for Path

/-! ## Plain paths -/

/-- A name that a path is read with: not empty, without slashes, and no single dot. -/
structure IsPlainName (name : String) : Prop where
  nonempty : name.toList ≠ []
  noSlash : ∀ c ∈ name.toList, (c == '/') = false
  noDot : name.toList ≠ ['.']

/-- A path as it is read from a text. -/
structure IsPlain (p : Path) : Prop where
  slashes : p.slashes ≤ 2
  names : ∀ name ∈ p.names, IsPlainName name

/-- What is read from a text is plain. -/
theorem isPlain_ofString (text : String) : (ofString text).IsPlain where
  slashes := by
    show (if _ then 0 else if _ then 2 else 1) ≤ 2
    split
    · exact Nat.zero_le 2
    · split
      · exact Nat.le_refl 2
      · exact Nat.le_succ 1
  names := by
    intro name hname
    obtain ⟨piece, hpiece, rfl⟩ := List.mem_map.mp hname
    obtain ⟨hsplit, hkept⟩ := List.mem_filter.mp hpiece
    simp only [Bool.and_eq_true, Bool.not_eq_true', List.isEmpty_eq_false_iff, bne_iff_ne] at hkept
    rw [← String.toList_ofList (l := piece)] at hkept
    exact ⟨hkept.1, by rw [String.toList_ofList]; exact not_mem_of_mem_splitOn hsplit, hkept.2⟩

/-- The pieces that count are the names again. -/
theorem filter_pieces {names : List String} (h : ∀ name ∈ names, IsPlainName name) :
    ((names.map String.toList).filter fun name => !name.isEmpty && name != ['.'])
      = names.map String.toList := by
  rw [List.filter_eq_self]
  intro piece hpiece
  obtain ⟨name, hname, rfl⟩ := List.mem_map.mp hpiece
  simp only [Bool.and_eq_true, Bool.not_eq_true', List.isEmpty_eq_false_iff, bne_iff_ne]
  exact ⟨(h name hname).nonempty, (h name hname).noDot⟩

theorem toList_map_ofList (names : List String) :
    (names.map String.toList).map String.ofList = names := by
  rw [List.map_map]
  exact List.map_id'' (fun name => String.ofList_toList) names

/-- Names joined with slashes do not start with one. -/
theorem takeWhile_join {names : List String} (h : ∀ name ∈ names, IsPlainName name) :
    (join ['/'] (names.map String.toList)).takeWhile (· == '/') = [] := by
  cases names with
  | nil => rfl
  | cons name rest =>
      have hname := h name List.mem_cons_self
      -- the first character of the text is the first of the first name
      obtain ⟨c, cs, hcs⟩ := List.exists_cons_of_ne_nil hname.nonempty
      have hc : (c == '/') = false := hname.noSlash c (hcs ▸ List.mem_cons_self)
      cases rest with
      | nil => simp only [List.map_cons, List.map_nil, join, hcs, List.takeWhile_cons, hc,
          Bool.false_eq_true, if_false]
      | cons other rest => simp only [List.map_cons, join, hcs, List.cons_append,
          List.takeWhile_cons, hc, Bool.false_eq_true, if_false]

/-- The names of a plain path are found in its text. -/
theorem names_ofString_join {names : List String} (h : ∀ name ∈ names, IsPlainName name) :
    ((splitOn (· == '/') (join ['/'] (names.map String.toList))).filter
      fun name => !name.isEmpty && name != ['.']).map String.ofList = names := by
  cases names with
  | nil => rfl
  | cons name rest =>
      have hne : (name :: rest).map String.toList ≠ [] := List.cons_ne_nil _ _
      have hslash : ∀ s ∈ (name :: rest).map String.toList, ∀ c ∈ s, (c == '/') = false := by
        intro s hs
        obtain ⟨other, hother, rfl⟩ := List.mem_map.mp hs
        exact (h other hother).noSlash
      rw [splitOn_join rfl hne hslash, filter_pieces h, toList_map_ofList]

/-- **Texts of paths.** A plain path is read back from its text. -/
theorem ofString_toString {p : Path} (h : p.IsPlain) : ofString p.toString = p := by
  obtain ⟨slashes, names⟩ := p
  have hslashes : slashes ≤ 2 := h.slashes
  have hnames : ∀ name ∈ names, IsPlainName name := h.names
  rw [toString, ofString, String.toList_ofList, toText]
  show (Path.mk _ _) = _
  by_cases hdot : (slashes == 0 && (join ['/'] (names.map String.toList)).isEmpty) = true
  · -- the empty relative path is written as a dot, which does not count as a name
    obtain ⟨hzero, hempty⟩ := Bool.and_eq_true_iff.mp hdot
    have hnil : names = [] := by
      have hback := names_ofString_join hnames
      rw [List.isEmpty_iff.mp hempty] at hback
      exact hback.symm
    rw [if_pos hdot, beq_iff_eq.mp hzero, hnil]
    rfl
  · have hfront : ((List.replicate slashes '/' ++ join ['/'] (names.map String.toList)).takeWhile
        (· == '/')).length = slashes := by
      rw [List.takeWhile_append_of_pos fun c hc => beq_iff_eq.mpr (List.eq_of_mem_replicate hc),
        takeWhile_join hnames, List.append_nil, List.length_replicate]
    rw [if_neg hdot]
    simp only [hfront]
    congr 1
    · -- the number of slashes
      match slashes, hslashes with
      | 0, _ => rfl
      | 1, _ => rfl
      | 2, _ => rfl
    · rw [splitOn_replicate_append rfl, List.filter_append, List.filter_replicate,
        if_neg (by decide), List.nil_append]
      exact names_ofString_join hnames

theorem toString_injective {p q : Path} (hp : p.IsPlain) (hq : q.IsPlain)
    (h : p.toString = q.toString) : p = q := by
  rw [← ofString_toString hp, ← ofString_toString hq, h]

/-! ## The NUL character -/

/-- A path holds the NUL character if one of its names does. -/
theorem hasNul_eq (p : Path) : p.hasNul = p.names.any fun name => name.toList.any isNul := by
  have hnames : (join ['/'] (p.names.map String.toList)).any isNul
      = p.names.any fun name => name.toList.any isNul := by
    rw [any_join (by decide), List.any_map]
    rfl
  rw [hasNul, toText, ← hnames]
  split
  · rename_i hdot
    rw [List.isEmpty_iff.mp (Bool.and_eq_true_iff.mp hdot).2]
    rfl
  · rw [List.any_append, List.any_replicate]
    simp only [show isNul '/' = false by decide, ite_self, Bool.false_or]

/-- A text without the NUL character is that of a path without it. -/
theorem hasNul_ofString {text : String} (h : ∀ c ∈ text.toList, isNul c = false) :
    (ofString text).hasNul = false := by
  rw [hasNul_eq, List.any_eq_false]
  intro name hname
  obtain ⟨piece, hpiece, rfl⟩ := List.mem_map.mp hname
  have hsplit := (List.mem_filter.mp hpiece).1
  rw [String.toList_ofList, List.any_eq_true]
  rintro ⟨c, hc, hnul⟩
  exact Bool.false_ne_true ((h c (mem_of_mem_splitOn hsplit c hc)).symm.trans hnul)

theorem hasNul_parent {p : Path} (h : p.hasNul = false) : p.parent.hasNul = false := by
  rw [hasNul_eq] at h ⊢
  rw [List.any_eq_false] at h ⊢
  exact fun name hname => h name (List.dropLast_subset _ hname)

/-! ## Plain paths -/

variable {p q : Path}

theorem IsPlain.parent (h : p.IsPlain) : p.parent.IsPlain :=
  ⟨h.slashes, fun name hname => h.names name (List.dropLast_subset _ hname)⟩

theorem IsPlain.child (h : p.IsPlain) {name : String} (hname : IsPlainName name) :
    (p.child name).IsPlain := by
  refine ⟨h.slashes, fun other hother => ?_⟩
  rcases List.mem_append.mp hother with hother | hother
  · exact h.names other hother
  · exact List.mem_singleton.mp hother ▸ hname

theorem IsPlain.append (hp : p.IsPlain) (hq : q.IsPlain) : (p ++ q).IsPlain := by
  show (Path.append p q).IsPlain
  unfold Path.append
  split
  · exact hq
  · refine ⟨hp.slashes, fun name hname => ?_⟩
    exact (List.mem_append.mp hname).elim (hp.names name) (hq.names name)

theorem collapse_of_not_up {absolute : Bool} {names : List String} (h : ∀ name ∈ names, name ≠ "..") :
    ∀ done, collapse absolute done names = done.reverse ++ names := by
  induction names with
  | nil => simp [collapse]
  | cons name names ih =>
      intro done
      obtain ⟨hname, hnames⟩ := List.forall_mem_cons.mp h
      rw [collapse]
      · rw [ih hnames]
        simp
      · exact hname

/-- An absolute path without two dots is what it denotes. -/
theorem resolve_of_not_up {p : Path} (hslashes : p.slashes = 1)
    (h : ∀ name ∈ p.names, name ≠ "..") (workingDirectory : Path) :
    p.resolve workingDirectory = p := by
  have happend : workingDirectory ++ p = p := by
    show Path.append workingDirectory p = p
    rw [Path.append, if_pos (by rw [Path.isAbsolute, hslashes]; rfl)]
  rw [resolve, happend, collapse_of_not_up h, ← hslashes]
  rfl

theorem mem_of_mem_collapse {absolute : Bool} {names done : List String} {name : String}
    (h : name ∈ collapse absolute done names) : name ∈ done ∨ name ∈ names := by
  fun_induction collapse absolute done names with
  | case1 done => exact Or.inl (List.mem_reverse.mp h)
  | case2 rest _ ih => exact (ih h).imp_right (List.mem_cons_of_mem _)
  | case3 rest _ ih =>
      refine Or.inr ((ih h).elim (fun hdone => ?_) (List.mem_cons_of_mem _))
      exact List.mem_singleton.mp hdone ▸ List.mem_cons_self
  | case4 rest done ih =>
      rcases ih h with hdone | hrest
      · rcases List.mem_cons.mp hdone with rfl | hdone
        · exact Or.inr List.mem_cons_self
        · exact Or.inl hdone
      · exact Or.inr (List.mem_cons_of_mem _ hrest)
  | case5 rest outer done _ ih =>
      exact (ih h).imp (List.mem_cons_of_mem _) (List.mem_cons_of_mem _)
  | case6 done other rest _ ih =>
      rcases ih h with hdone | hrest
      · rcases List.mem_cons.mp hdone with rfl | hdone
        · exact Or.inr List.mem_cons_self
        · exact Or.inl hdone
      · exact Or.inr (List.mem_cons_of_mem _ hrest)

theorem IsPlain.normalized (h : p.IsPlain) : p.normalized.IsPlain := by
  refine ⟨h.slashes, fun name hname => ?_⟩
  exact h.names name ((mem_of_mem_collapse hname).resolve_left List.not_mem_nil)

theorem mem_of_mem_dropLasts {reversed names : List String} (h : names ∈ dropLasts reversed) :
    ∀ name ∈ names, name ∈ reversed := by
  induction reversed with
  | nil => simp_all [dropLasts]
  | cons first reversed ih =>
      rcases List.mem_cons.mp h with rfl | h
      · exact fun name hname => List.mem_reverse.mp hname
      · exact fun name hname => List.mem_cons_of_mem first (ih h name hname)

end Path

end ServiceMap
