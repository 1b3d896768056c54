import Mathlib.Data.List.TakeWhile
import ServiceMap.Proofs.Tree.Path
import ServiceMap.Text.Find
import ServiceMap.Text.Word

/-!
# Names and words in a text

The names in a text are its maximal runs of name characters, the words its maximal runs without
blanks. Where a text is cut at a character between two runs, its runs are those of the two parts.
-/

namespace ServiceMap.Text

/-- What holds of all characters of a text, decided one by one. -/
theorem forall_mem_of_all {p : Char → Prop} [DecidablePred p] {s : List Char}
    (h : s.all (fun c => decide (p c)) = true) : ∀ c ∈ s, p c :=
  fun c hc => of_decide_eq_true (List.all_eq_true.mp h c hc)

/-! ## Leading stretches -/

/-- The leading stretch of characters of a class is determined by the text. -/
theorem append_inj_of_span {p : Char → Bool} {a b : List Char}
    (ha : ∀ c ∈ a.head?, p c = false) (hb : ∀ c ∈ b.head?, p c = false) (x : List Char) :
    ∀ {y : List Char}, (∀ c ∈ x, p c = true) → (∀ c ∈ y, p c = true) → x ++ a = y ++ b →
      x = y ∧ a = b := by
  induction x with
  | nil =>
      intro y _ hy h
      cases y with
      | nil => exact ⟨rfl, h⟩
      | cons d y =>
          obtain rfl : a = d :: (y ++ b) := h
          exact absurd ((ha d rfl).symm.trans (hy d List.mem_cons_self)) Bool.false_ne_true
  | cons c x ih =>
      intro y hx hy h
      cases y with
      | nil =>
          obtain rfl : c :: (x ++ a) = b := h
          exact absurd ((hb c rfl).symm.trans (hx c List.mem_cons_self)) Bool.false_ne_true
      | cons d y =>
          obtain ⟨hcd, hrest⟩ := List.cons.inj h
          subst hcd
          obtain ⟨rfl, rfl⟩ := ih (fun e he => hx e (List.mem_cons_of_mem _ he))
            (fun e he => hy e (List.mem_cons_of_mem _ he)) hrest
          exact ⟨rfl, rfl⟩

/-- A character that is not in the first part stands in the second one. -/
theorem split_of_not_mem {c : Char} {p s x y : List Char} (hc : c ∉ p) (h : p ++ s = x ++ c :: y) :
    ∃ z, x = p ++ z ∧ s = z ++ c :: y := by
  rcases List.append_eq_append_iff.mp h with ⟨z, hx, hs⟩ | ⟨z, hp, hs⟩
  · exact ⟨z, hx, hs⟩
  · cases z with
    | nil => exact ⟨[], by rw [hp, List.append_nil, List.append_nil], hs.symm⟩
    | cons d z =>
        obtain ⟨rfl, -⟩ := List.cons.inj hs
        exact absurd (hp ▸ List.mem_append_right x List.mem_cons_self) hc

/-- A character other than the last one stands before it. -/
theorem split_of_ne_last {c d : Char} {s x y : List Char} (hne : c ≠ d)
    (h : s ++ [d] = x ++ c :: y) : ∃ z, s = x ++ c :: z ∧ y = z ++ [d] := by
  rcases List.eq_nil_or_concat y with rfl | ⟨z, e, rfl⟩
  · exact absurd (List.append_inj' h rfl).2 (by simpa using hne.symm)
  · rw [List.concat_eq_append, ← List.cons_append, ← List.append_assoc] at h
    obtain ⟨hs, he⟩ := List.append_inj' h rfl
    exact ⟨z, hs, by rw [List.concat_eq_append, he]⟩

theorem span_append {p : Char → Bool} {x y : List Char} (hx : ∀ c ∈ x, p c = true)
    (hy : ∀ c ∈ y.head?, p c = false) :
    (x ++ y).takeWhile p = x ∧ (x ++ y).dropWhile p = y := by
  rw [List.takeWhile_append_of_pos hx, List.dropWhile_append_of_pos hx]
  cases y with
  | nil => exact ⟨List.append_nil x, rfl⟩
  | cons c y =>
      have hc : ¬p c = true := Bool.eq_false_iff.mp (hy c rfl)
      rw [List.takeWhile_cons_of_neg hc, List.dropWhile_cons_of_neg hc]
      exact ⟨List.append_nil x, rfl⟩

theorem forall_head?_append {p : Char → Prop} {s : List Char} (hne : s ≠ []) (h : ∀ c ∈ s, p c)
    (t : List Char) : ∀ c ∈ (s ++ t).head?, p c := by
  obtain ⟨d, s, rfl⟩ := List.exists_cons_of_ne_nil hne
  intro c hc
  exact Option.some.inj hc ▸ h d List.mem_cons_self

theorem mem_getLast?_append {s t : List Char} {c : Char} (h : c ∈ (s ++ t).getLast?) :
    c ∈ t.getLast? ∨ c ∈ s.getLast? := by
  rw [List.getLast?_append] at h
  rcases Option.or_eq_some_iff.mp h with h | ⟨-, h⟩
  · exact Or.inl h
  · exact Or.inr h

/-! ## First occurrences -/

section Occurrence

variable {c : Char} {s t : List Char}

theorem find?_append_cons (hc : c ∉ s) (t : List Char) : find? [c] (s ++ c :: t) = some s.length := by
  induction s with
  | nil => rw [List.nil_append, find?, if_pos (by simp)]; rfl
  | cons d s ih =>
      have hne : c ≠ d := fun heq => hc (heq ▸ List.mem_cons_self)
      rw [List.cons_append, find?, if_neg (by simp [hne]), ih fun hs => hc (List.mem_cons_of_mem d hs)]
      rfl

/-- The first occurrence behind a text is looked for in what follows. -/
theorem findFrom?_append_cons (hc : c ∉ s) (front t : List Char) :
    findFrom? [c] (front ++ (s ++ c :: t)) front.length = some (front ++ s).length := by
  rw [findFrom?, List.drop_left, find?_append_cons hc, List.length_append, Option.map_some, Nat.add_comm]

theorem before_append_cons (c : Char) (s t : List Char) : before c (s ++ c :: t) = before c s := by
  induction s with
  | nil => rw [List.nil_append, before, List.takeWhile_cons_of_neg (by simp)]; rfl
  | cons d s ih =>
      rw [before, before, List.cons_append, List.takeWhile_cons, List.takeWhile_cons]
      split
      · exact congrArg (d :: ·) ih
      · rfl

theorem before_of_not_mem (h : c ∉ s) : before c s = s :=
  List.takeWhile_eq_self_iff.mpr fun _ hd => bne_iff_ne.mpr fun heq => h (heq ▸ hd)

theorem not_mem_before (c : Char) (s : List Char) : c ∉ before c s :=
  fun hmem => bne_iff_ne.mp (List.mem_takeWhile_imp (p := (· != c)) hmem) rfl

end Occurrence

/-! ## Runs -/

/-- The non-empty stretches between characters that satisfy `p`. -/
def runs (p : Char → Bool) (s : List Char) : List (List Char) :=
  (splitOn p s).filter fun w => !w.isEmpty

/-- The names in a text. -/
def names (s : List Char) : List (List Char) :=
  runs (fun c => !isWord c) s

theorem words_eq_runs (s : List Char) : words s = runs isBlank s := rfl

section

variable {p : Char → Bool}

theorem splitOn_append_separator {c : Char} (hc : p c = true) (t : List Char) (s : List Char) :
    splitOn p (s ++ c :: t) = splitOn p s ++ splitOn p t := by
  induction s with
  | nil => exact splitOn_append_cons (fun _ h => absurd h List.not_mem_nil) hc t
  | cons d s ih =>
      rw [List.cons_append, splitOn, splitOn, ih]
      cases hs : splitOn p s with
      | nil => exact absurd hs (splitOn_ne_nil p s)
      | cons piece pieces =>
          dsimp only [List.cons_append]
          split <;> rfl

theorem runs_append_cons {c : Char} (hc : p c = true) (s t : List Char) :
    runs p (s ++ c :: t) = runs p s ++ runs p t := by
  rw [runs, splitOn_append_separator hc, List.filter_append]
  rfl

theorem runs_cons {c : Char} (hc : p c = true) (s : List Char) : runs p (c :: s) = runs p s :=
  runs_append_cons hc [] s

theorem runs_of_all_not {w : List Char} (hne : w ≠ []) (h : ∀ c ∈ w, p c = false) :
    runs p w = [w] := by
  rw [runs, splitOn_of_all_not h, List.filter_cons_of_pos]
  · rfl
  · rw [Bool.not_eq_true', List.isEmpty_eq_false_iff]
    exact hne

theorem runs_append_of_all {s : List Char} (h : ∀ c ∈ s, p c = true) (t : List Char) :
    runs p (s ++ t) = runs p t := by
  induction s with
  | nil => rfl
  | cons c s ih =>
      rw [List.cons_append, runs_cons (h c List.mem_cons_self),
        ih fun d hd => h d (List.mem_cons_of_mem c hd)]

/-- A stretch that occurs between separators, or at an end of the text, is a run. -/
theorem mem_runs_of_occurrence {a w b : List Char} (hne : w ≠ []) (hw : ∀ c ∈ w, p c = false)
    (ha : ∀ c ∈ a.getLast?, p c = true) (hb : ∀ c ∈ b.head?, p c = true) :
    w ∈ runs p (a ++ (w ++ b)) := by
  have hright : w ∈ runs p (w ++ b) := by
    cases b with
    | nil => rw [List.append_nil, runs_of_all_not hne hw]; exact List.mem_singleton.mpr rfl
    | cons c b =>
        rw [runs_append_cons (hb c rfl), runs_of_all_not hne hw]
        exact List.mem_cons_self
  rcases List.eq_nil_or_concat a with rfl | ⟨a, c, rfl⟩
  · exact hright
  · rw [List.concat_eq_append] at ha ⊢
    rw [List.append_assoc, List.singleton_append, runs_append_cons (ha c (by simp))]
    exact List.mem_append_right _ hright

/-- The first piece of a split text is at its front, and the others stand after a separator. -/
theorem split_of_splitOn (s : List Char) :
    ∀ {first : List Char} {others : List (List Char)}, splitOn p s = first :: others →
      (∃ b, s = first ++ b ∧ ∀ c ∈ b.head?, p c = true)
        ∧ ∀ w ∈ others, ∃ a c b, s = a ++ c :: (w ++ b) ∧ p c = true
          ∧ ∀ d ∈ b.head?, p d = true := by
  induction s with
  | nil =>
      intro first others h
      obtain ⟨rfl, rfl⟩ := List.cons.inj h
      exact ⟨⟨[], rfl, fun _ h => nomatch h⟩, fun w hw => absurd hw List.not_mem_nil⟩
  | cons c s ih =>
      intro first others h
      cases hs : splitOn p s with
      | nil => exact absurd hs (splitOn_ne_nil p s)
      | cons piece pieces =>
          obtain ⟨⟨b, hb, hhead⟩, hlater⟩ := ih hs
          have later : ∀ w ∈ pieces, ∃ a d b, c :: s = a ++ d :: (w ++ b) ∧ p d = true
              ∧ ∀ e ∈ b.head?, p e = true := by
            intro w hw
            obtain ⟨a, d, b, ha, hd⟩ := hlater w hw
            exact ⟨c :: a, d, b, by rw [ha]; rfl, hd⟩
          rw [splitOn, hs] at h
          dsimp only at h
          split at h
          · rename_i hc
            obtain ⟨rfl, rfl⟩ := List.cons.inj h
            refine ⟨⟨c :: s, rfl, fun d hd => Option.some.inj hd ▸ hc⟩, fun w hw => ?_⟩
            rcases List.mem_cons.mp hw with rfl | hw
            · exact ⟨[], c, b, by rw [hb]; rfl, hc, hhead⟩
            · exact later w hw
          · obtain ⟨rfl, rfl⟩ := List.cons.inj h
            exact ⟨⟨b, by rw [hb]; rfl, hhead⟩, later⟩

/-- A piece of a split text stands between separators or ends of the text. -/
theorem split_of_mem_splitOn {s w : List Char} (h : w ∈ splitOn p s) :
    ∃ a b, s = a ++ (w ++ b) ∧ (∀ c ∈ a.getLast?, p c = true)
      ∧ ∀ c ∈ b.head?, p c = true := by
  cases hs : splitOn p s with
  | nil => exact absurd hs (splitOn_ne_nil p s)
  | cons first others =>
      obtain ⟨⟨b, hb, hhead⟩, hlater⟩ := split_of_splitOn s hs
      rw [hs] at h
      rcases List.mem_cons.mp h with rfl | h
      · exact ⟨[], b, hb, (fun _ h => nomatch h), hhead⟩
      · obtain ⟨a, c, b, ha, hc, hb⟩ := hlater w h
        refine ⟨a ++ [c], b, by rw [ha, List.append_assoc]; rfl, fun d hd => ?_, hb⟩
        rw [List.getLast?_append, List.getLast?_singleton] at hd
        obtain rfl := Option.some.inj hd
        exact hc

theorem join_cons_cons (separator s t : List Char) (rest : List (List Char)) :
    join separator (s :: t :: rest) = s ++ (separator ++ join separator (t :: rest)) := by
  rw [join, List.append_assoc]
  exact List.cons_ne_nil t rest

theorem join_append {separator : List Char} {pieces : List (List Char)} (h : pieces ≠ [])
    (more : List (List Char)) :
    join separator (pieces ++ more)
      = join separator pieces ++ more.flatMap fun piece => separator ++ piece := by
  induction pieces with
  | nil => exact absurd rfl h
  | cons piece pieces ih =>
      cases pieces with
      | nil =>
          -- behind a single piece every other one comes with a separator before it
          induction more generalizing piece with
          | nil => rw [List.append_nil, List.flatMap_nil, List.append_nil]
          | cons next more ihmore =>
              have hnext := ihmore next (fun hne => absurd rfl hne) (List.cons_ne_nil next [])
              rw [List.singleton_append] at hnext ⊢
              rw [join_cons_cons, hnext, List.flatMap_cons, join, join, List.append_assoc]
      | cons next pieces =>
          rw [List.cons_append, List.cons_append, join_cons_cons, join_cons_cons,
            ← List.cons_append, ih (List.cons_ne_nil next pieces)]
          simp only [List.append_assoc]

theorem mem_join {separator : List Char} {c : Char} :
    ∀ {texts : List (List Char)}, c ∈ join separator texts →
      c ∈ separator ∨ ∃ s ∈ texts, c ∈ s
  | [], h => absurd h List.not_mem_nil
  | [s], h => Or.inr ⟨s, List.mem_singleton.mpr rfl, h⟩
  | s :: t :: rest, h => by
      rw [join_cons_cons, List.mem_append, List.mem_append] at h
      rcases h with h | h | h
      · exact Or.inr ⟨s, List.mem_cons_self, h⟩
      · exact Or.inl h
      · rcases mem_join h with h | ⟨u, hu, h⟩
        · exact Or.inl h
        · exact Or.inr ⟨u, List.mem_cons_of_mem s hu, h⟩

/-- What was split at the one separator that occurs is joined again by it. -/
theorem join_splitOn {c : Char} (s : List Char) (h : ∀ d ∈ s, p d = true → d = c) :
    join [c] (splitOn p s) = s := by
  induction s with
  | nil => rfl
  | cons d s ih =>
      have hrest := ih fun e he => h e (List.mem_cons_of_mem d he)
      cases hs : splitOn p s with
      | nil => exact absurd hs (splitOn_ne_nil p s)
      | cons piece pieces =>
          rw [hs] at hrest
          rw [splitOn, hs]
          dsimp only
          split
          · rename_i hd
            rw [join_cons_cons, hrest, h d List.mem_cons_self hd]
            rfl
          · cases pieces with
            | nil =>
                rw [join] at hrest ⊢
                rw [hrest]
            | cons next pieces =>
                rw [join_cons_cons] at hrest ⊢
                rw [List.cons_append, hrest]

/-- Nothing stands between two separators where none follows another. -/
theorem splitOn_eq_runs {s : List Char} (hne : s ≠ []) (hfront : ∀ c ∈ s.head?, p c = false)
    (hback : ∀ c ∈ s.getLast?, p c = false)
    (hsingle : ∀ a c d b, s = a ++ c :: d :: b → p c = true → p d = false) :
    runs p s = splitOn p s := by
  rw [runs, List.filter_eq_self]
  intro w hw
  rw [Bool.not_eq_true', List.isEmpty_eq_false_iff]
  rintro rfl
  obtain ⟨a, b, hs, ha, hb⟩ := split_of_mem_splitOn hw
  rw [List.nil_append] at hs
  subst hs
  rcases List.eq_nil_or_concat a with rfl | ⟨a, c, rfl⟩
  · cases b with
    | nil => exact hne rfl
    | cons d b => exact Bool.false_ne_true ((hfront d rfl).symm.trans (hb d rfl))
  · rw [List.concat_eq_append] at *
    have hc := ha c (by simp)
    cases b with
    | nil => exact Bool.false_ne_true ((hback c (by simp)).symm.trans hc)
    | cons d b =>
        have hd := hsingle a c d b (by simp) hc
        exact Bool.false_ne_true (hd.symm.trans (hb d rfl))

end

/-! ## Blanks are in no name -/

/-- The blanks beyond those of ASCII, by their code points. -/
def wideBlanks : List Nat :=
  [0x85, 0xA0, 0x1680, 0x2000, 0x2001, 0x2002, 0x2003, 0x2004, 0x2005, 0x2006, 0x2007, 0x2008, 0x2009,
    0x200A, 0x2028, 0x2029, 0x202F, 0x205F, 0x3000]

theorem toNat_of_isBlank {c : Char} (h : isBlank c = true) : c.toNat < 33 ∨ c.toNat ∈ wideBlanks := by
  unfold isBlank at h
  simp only [Bool.or_eq_true, Bool.and_eq_true, decide_eq_true_eq, beq_iff_eq] at h
  simp only [wideBlanks, List.mem_cons, List.not_mem_nil, or_false]
  omega

theorem isWord_of_isBlank {c : Char} (h : isBlank c = true) : isWord c = false := by
  have hascii : ∀ n < 33, isAsciiWord (Char.ofNat n) = false := by decide +kernel
  have hwide : ∀ n ∈ wideBlanks, 128 ≤ n ∧ wordRanges.contains n = false := by decide +kernel
  have hcases := toNat_of_isBlank h
  unfold isWord
  split
  · rename_i hsmall
    rw [← Char.ofNat_toNat c]
    exact hascii _ (hcases.resolve_right fun hmem => absurd (hwide _ hmem).1 (by omega))
  · exact (hwide _ (hcases.resolve_left (by omega))).2

theorem isBlank_of_isWord {c : Char} (h : isWord c = true) : isBlank c = false :=
  Bool.eq_false_iff.mpr fun hblank =>
    Bool.false_ne_true ((isWord_of_isBlank hblank).symm.trans h)

theorem isBlank_of_isDottedWord {c : Char} (h : isDottedWord c = true) : isBlank c = false := by
  rw [isDottedWord, Bool.or_eq_true, beq_iff_eq] at h
  rcases h with h | rfl
  · exact isBlank_of_isWord h
  · rfl

/-- A word and the blanks after it are determined by the text, if they are followed by what is not
blank. -/
theorem word_gap_inj {w v gap space r t : List Char} (hw : ∀ c ∈ w, isWord c = true)
    (hv : ∀ c ∈ v, isWord c = true) (hgap : gap ≠ [] ∧ ∀ c ∈ gap, isBlank c = true)
    (hspace : space ≠ [] ∧ ∀ c ∈ space, isBlank c = true) (hr : ∀ c ∈ r.head?, isBlank c = false)
    (ht : ∀ c ∈ t.head?, isBlank c = false) (h : w ++ (gap ++ r) = v ++ (space ++ t)) :
    w = v ∧ gap = space ∧ r = t := by
  have afterWord : ∀ {gap : List Char}, gap ≠ [] ∧ (∀ c ∈ gap, isBlank c = true) → ∀ r,
      ∀ c ∈ (gap ++ r).head?, isWord c = false := fun hgap =>
    forall_head?_append hgap.1 fun c hc => isWord_of_isBlank (hgap.2 c hc)
  obtain ⟨hword, hrest⟩ :=
    append_inj_of_span (afterWord hgap r) (afterWord hspace t) w hw hv h
  obtain ⟨hblanks, hmore⟩ := append_inj_of_span hr ht gap hgap.2 hspace.2 hrest
  exact ⟨hword, hblanks, hmore⟩

/-! ## Trimming -/

theorem dropWhile_eq_self {p : Char → Bool} {s : List Char} (h : ∀ c ∈ s.head?, p c = false) :
    s.dropWhile p = s := by
  cases s with
  | nil => rfl
  | cons c s => exact List.dropWhile_cons_of_neg (Bool.eq_false_iff.mp (h c rfl))

theorem trim_eq_self {s : List Char} (hhead : ∀ c ∈ s.head?, isBlank c = false)
    (hlast : ∀ c ∈ s.getLast?, isBlank c = false) : trim s = s := by
  rw [trim, trimLeft, dropLeft, dropWhile_eq_self hhead, trimRight, dropRight,
    dropWhile_eq_self (by simpa using hlast), List.reverse_reverse]

theorem trim_cons {c : Char} (hc : isBlank c = true) (s : List Char) : trim (c :: s) = trim s := by
  rw [trim, trim, trimLeft, trimLeft, dropLeft, dropLeft, List.dropWhile_cons_of_pos hc]

end ServiceMap.Text
