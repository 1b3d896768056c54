import Mathlib.Data.List.Forall2
import ServiceMap.Proofs.Text.Capitals
import ServiceMap.Proofs.Text.Blanks
import ServiceMap.Service.Name

/-!
# Services in any naming convention

The words in the name of a component may be written with underscores, with hyphens or with capitals,
and the word for the component in any letter case: the service is the same. The words may be anything,
words for components among them, since only one of these fits at the end of a name. A name that is
told by such a word has no separators, and no name is empty.
-/

namespace ServiceMap

open Text

/-! ## The stem of a file -/

namespace Text

theorem findIdx?_reverse_of_not_mem {c : Char} {s : List Char} (h : c ∉ s) :
    s.reverse.findIdx? (· == c) = none := by
  rw [List.findIdx?_eq_none_iff]
  exact fun d hd => beq_eq_false_iff_ne.mpr fun heq => h (heq ▸ List.mem_reverse.mp hd)

theorem findLast?_of_not_mem {c : Char} {s : List Char} (h : c ∉ s) : findLast? c s = none := by
  rw [findLast?, findIdx?_reverse_of_not_mem h, Option.map_none]

theorem findLast?_append_cons {c : Char} {t : List Char} (h : c ∉ t) (s : List Char) :
    findLast? c (s ++ c :: t) = some s.length := by
  rw [findLast?, List.reverse_append, List.reverse_cons, List.append_assoc,
    List.findIdx?_append, findIdx?_reverse_of_not_mem h]
  simp [List.findIdx?_cons]

/-- The last character of joined texts is of one of them, if none is empty. -/
theorem mem_of_getLast?_join {separator : List Char} {c : Char} :
    ∀ {texts : List (List Char)}, (∀ s ∈ texts, s ≠ []) → c ∈ (join separator texts).getLast? →
      ∃ s ∈ texts, c ∈ s
  | [], _, hc => nomatch hc
  | [s], _, hc => ⟨s, List.mem_singleton.mpr rfl, List.mem_of_getLast? hc⟩
  | s :: t :: rest, hne, hc => by
      have htail : join separator (t :: rest) ≠ [] := by
        have ht := hne t (List.mem_cons_of_mem s List.mem_cons_self)
        cases rest with
        | nil => exact ht
        | cons u rest =>
            rw [join_cons_cons]
            exact List.append_ne_nil_of_left_ne_nil ht _
      rw [join_cons_cons, ← List.append_assoc, List.getLast?_append_of_ne_nil _ htail] at hc
      obtain ⟨u, hu, hcu⟩ := mem_of_getLast?_join (fun u hu => hne u (List.mem_cons_of_mem s hu)) hc
      exact ⟨u, List.mem_cons_of_mem s hu, hcu⟩

end Text

namespace Path

/-- What may stand after the stem of a file: nothing, or a dot and a text without dots. -/
def IsEnding (s : List Char) : Prop :=
  s ≠ [] → ∃ e, s = '.' :: e ∧ e ≠ [] ∧ ∀ c ∈ e, c ≠ '.' ∧ c ≠ '/'

/-- Files in a directory whose names have the same ending. -/
structure Frame where
  directory : List Char
  ending : List Char
  isDirectory : ∀ c ∈ directory.getLast?, c = '/'
  isEnding : IsEnding ending

/-- The file with this stem. -/
def Frame.file (frame : Frame) (stem : List Char) : String :=
  String.ofList (frame.directory ++ (stem ++ frame.ending))

/-- The last name of a path stands behind the directory. -/
theorem name_ofString {directory name : List Char} (hdirectory : ∀ c ∈ directory.getLast?, c = '/')
    (hne : name ≠ []) (hdot : name ≠ ['.']) (hslash : ∀ c ∈ name, c ≠ '/') :
    (ofString (String.ofList (directory ++ name))).name = String.ofList name := by
  have hpieces : ∃ before, splitOn (· == '/') (directory ++ name) = before ++ [name] := by
    have hname : splitOn (· == '/') name = [name] :=
      splitOn_of_all_not fun c hc => beq_eq_false_iff_ne.mpr (hslash c hc)
    rcases List.eq_nil_or_concat directory with rfl | ⟨front, c, rfl⟩
    · exact ⟨[], hname⟩
    · obtain rfl : c = '/' := hdirectory c (by simp)
      rw [List.concat_eq_append, List.append_assoc, List.singleton_append,
        splitOn_append_separator (p := (· == '/')) rfl, hname]
      exact ⟨_, rfl⟩
  obtain ⟨before, hpieces⟩ := hpieces
  have hkept : (!name.isEmpty && name != ['.']) = true := by simp [hne, hdot]
  simp only [Path.name, ofString, String.toList_ofList, hpieces, List.filter_append,
    List.filter_singleton, hkept, List.map_append, List.getLast?_append]
  rfl

/-- **Stems.** A stem without dots is the stem of its file. -/
theorem Frame.stem_file (frame : Frame) {stem : List Char} (hne : stem ≠ [])
    (hplain : ∀ c ∈ stem, c ≠ '/' ∧ c ≠ '.') : (ofString (frame.file stem)).stem = stem := by
  obtain ⟨directory, ending, hdirectory, hending⟩ := frame
  have hfirst : ∀ c ∈ (stem ++ ending).head?, c ≠ '.' :=
    forall_head?_append hne (fun c hc => (hplain c hc).2) ending
  have hname : (ofString (String.ofList (directory ++ (stem ++ ending)))).name
      = String.ofList (stem ++ ending) := by
    refine name_ofString hdirectory (List.append_ne_nil_of_left_ne_nil hne ending) ?_ ?_
    · exact fun heq => hfirst '.' (by rw [heq]; rfl) rfl
    · intro c hc
      rcases List.mem_append.mp hc with hc | hc
      · exact (hplain c hc).1
      · obtain ⟨e, rfl, -, he⟩ := hending (List.ne_nil_of_mem hc)
        rcases List.mem_cons.mp hc with rfl | hc
        · decide
        · exact (he c hc).2
  have hnodot : '.' ∉ stem := fun hdot => (hplain '.' hdot).2 rfl
  rw [Path.stem, Frame.file, hname, String.toList_ofList, endingStart?]
  by_cases hnil : ending = []
  · rw [hnil, List.append_nil, findLast?_of_not_mem hnodot]
  · obtain ⟨e, rfl, he, hchars⟩ := hending hnil
    have hlength : 0 < stem.length ∧ 0 < e.length :=
      ⟨List.length_pos_of_ne_nil hne, List.length_pos_of_ne_nil he⟩
    rw [findLast?_append_cons fun hdot => (hchars '.' hdot).1 rfl]
    simp [hlength.1, hlength.2]

end Path

namespace Service

/-! ## Words for components -/

/-- A word for a component in some letter case. -/
def IsWritten (suffix : String) (written : List Char) : Prop :=
  written.map Char.toLower = suffix.toList.map Char.toLower

instance (suffix : String) (written : List Char) : Decidable (IsWritten suffix written) :=
  inferInstanceAs (Decidable (_ = _))

/-- Letters beyond ASCII that count as letters of a suffix. -/
def variants : List Char :=
  caseVariants.flatMap Prod.snd

/-- The last four characters of a text. -/
def lastFour (s : List Char) : List Char :=
  s.drop (s.length - 4)

/-- The suffixes are of at least four letters, and they differ in the last four. -/
theorem suffixes_spec : ∀ suffix ∈ suffixes, 4 ≤ suffix.toList.length
    ∧ suffix.toList.all (fun c => decide (c.toLower ∉ marks ++ variants)) = true
    ∧ ∀ other ∈ suffixes, (lastFour other.toList).map Char.toLower
        = (lastFour suffix.toList).map Char.toLower → other = suffix := by
  decide +kernel

theorem lower_of_mark_or_variant : ∀ c ∈ marks ++ variants, c.toLower = c :=
  forall_mem_of_all (by decide +kernel)

section Written

variable {suffix : String} {written : List Char}

theorem IsWritten.length (h : IsWritten suffix written) :
    written.length = suffix.toList.length := by
  simpa using congrArg List.length h

/-- A suffix is written with letters of ASCII. -/
theorem IsWritten.plain (h : IsWritten suffix written) (hsuffix : suffix ∈ suffixes) :
    ∀ c ∈ written, c ∉ marks ++ variants := by
  intro c hc hmem
  have hlower : c.toLower ∈ suffix.toList.map Char.toLower := h ▸ List.mem_map_of_mem hc
  obtain ⟨letter, hletter, heq⟩ := List.mem_map.mp hlower
  have hplain := forall_mem_of_all (suffixes_spec suffix hsuffix).2.1 letter hletter
  rw [heq, lower_of_mark_or_variant c hmem] at hplain
  exact hplain hmem

theorem IsWritten.ne_nil (h : IsWritten suffix written) (hsuffix : suffix ∈ suffixes) :
    written ≠ [] := by
  rintro rfl
  have hlength := h.length
  have hfour := (suffixes_spec suffix hsuffix).1
  rw [List.length_nil] at hlength
  omega

end Written

theorem sameWord_iff (word : List Char) : ∀ text : List Char,
    sameWord word text = true
      ↔ List.Forall₂ (fun letter c => sameLetter letter c = true) word text := by
  induction word with
  | nil =>
      intro text
      cases text <;> simp [sameWord]
  | cons letter word ih =>
      intro text
      cases text with
      | nil => simp [sameWord]
      | cons c text => rw [sameWord, Bool.and_eq_true, List.forall₂_cons, ih]

/-- A word in some letter case is the word. -/
theorem sameWord_of_lower (word : List Char) : ∀ text : List Char,
    text.map Char.toLower = word.map Char.toLower → sameWord word text = true := by
  induction word with
  | nil =>
      intro text h
      rw [List.map_eq_nil_iff.mp h]
      rfl
  | cons letter word ih =>
      intro text h
      obtain ⟨c, text, rfl, hc, htext⟩ := List.map_eq_cons_iff.mp h
      rw [sameWord, sameLetter, hc, beq_self_eq_true, Bool.true_or, ih text htext]
      rfl

theorem lower_of_sameLetter {letter c : Char} (h : sameLetter letter c = true)
    (hplain : c ∉ variants) : c.toLower = letter.toLower := by
  rw [sameLetter, Bool.or_eq_true, beq_iff_eq] at h
  refine h.resolve_right fun hvariant => hplain ?_
  rw [List.contains_iff_mem] at hvariant
  cases hfound : caseVariants.lookup letter.toLower with
  | none =>
      rw [hfound] at hvariant
      exact absurd hvariant List.not_mem_nil
  | some others =>
      rw [hfound] at hvariant
      exact List.mem_flatMap.mpr ⟨_, mem_of_lookup hfound, hvariant⟩

/-- A text that is the word is written like it, if it is in ASCII. -/
theorem lower_of_sameWord {word text : List Char}
    (h : List.Forall₂ (fun letter c => sameLetter letter c = true) word text)
    (hplain : ∀ c ∈ text, c ∉ variants) :
    text.map Char.toLower = word.map Char.toLower := by
  induction h with
  | nil => rfl
  | cons hletter _ ih =>
      rw [List.map_cons, List.map_cons,
        lower_of_sameLetter hletter (hplain _ List.mem_cons_self),
        ih fun c hc => hplain c (List.mem_cons_of_mem _ hc)]

/-! ## What stands before a suffix -/

section BeforeSuffix

variable {suffix : String} {front written : List Char}

theorem getLast?_written (hsuffix : suffix ∈ suffixes) (hwritten : IsWritten suffix written) :
    ((front ++ written).getLast? == some '\n') = false := by
  rw [beq_eq_false_iff_ne, List.getLast?_append_of_ne_nil _ (hwritten.ne_nil hsuffix)]
  intro hline
  exact hwritten.plain hsuffix '\n' (List.mem_of_getLast? hline) (by decide)

theorem beforeSuffix?_of_last {word stem : List Char}
    (h : (stem.getLast? == some '\n') = false) :
    beforeSuffix? word stem
      = if word.length < stem.length && sameWord word (stem.drop (stem.length - word.length))
          && !(stem.take (stem.length - word.length)).contains '\n' then
          some (stem.take (stem.length - word.length))
        else none := by
  rw [beforeSuffix?, h]
  rfl

theorem mem_of_beforeSuffix? {word stem front : List Char} {c : Char}
    (h : beforeSuffix? word stem = some front) (hc : c ∈ front) : c ∈ stem := by
  simp only [beforeSuffix?, Option.ite_none_right_eq_some, Option.some.injEq] at h
  obtain ⟨-, rfl⟩ := h
  have hmem := List.mem_of_mem_take hc
  split at hmem
  · exact List.dropLast_subset _ hmem
  · exact hmem

/-- What stands before a suffix is found. -/
theorem beforeSuffix?_append (hsuffix : suffix ∈ suffixes) (hwritten : IsWritten suffix written)
    (hne : front ≠ []) (hline : '\n' ∉ front) :
    beforeSuffix? suffix.toList (front ++ written) = some front := by
  have hstart : (front ++ written).length - suffix.toList.length = front.length := by
    rw [List.length_append, hwritten.length, Nat.add_sub_cancel]
  have hlong : suffix.toList.length < front.length + written.length := by
    have hpositive := List.length_pos_of_ne_nil hne
    rw [hwritten.length]
    omega
  rw [beforeSuffix?_of_last (getLast?_written hsuffix hwritten), hstart, List.take_left,
    List.drop_left]
  simp [hlong, sameWord_of_lower _ _ hwritten, hline]

/-- **One suffix.** No other suffix fits at the end of a stem. -/
theorem eq_of_beforeSuffix? (hsuffix : suffix ∈ suffixes) (hwritten : IsWritten suffix written)
    {other : String} (hother : other ∈ suffixes) {before : List Char}
    (h : beforeSuffix? other.toList (front ++ written) = some before) : other = suffix := by
  obtain ⟨hfour, -, hdiffer⟩ := suffixes_spec suffix hsuffix
  have hfour' := (suffixes_spec other hother).1
  have hlength := hwritten.length
  rw [beforeSuffix?_of_last (getLast?_written hsuffix hwritten)] at h
  simp only [Option.ite_none_right_eq_some, Bool.and_eq_true, decide_eq_true_eq] at h
  obtain ⟨⟨⟨hshort, hsame⟩, -⟩, -⟩ := h
  -- the last four letters of the stem are those of both suffixes
  have hends := List.forall₂_drop (other.toList.length - 4) ((sameWord_iff _ _).mp hsame)
  have hlast : ((front ++ written).drop ((front ++ written).length - other.toList.length)).drop
      (other.toList.length - 4) = lastFour written := by
    have hdrop : (front ++ written).length - other.toList.length + (other.toList.length - 4)
        = front.length + (written.length - 4) := by
      rw [List.length_append] at hshort ⊢
      omega
    rw [List.drop_drop, hdrop, List.drop_length_add_append]
    rfl
  rw [hlast] at hends
  have hplain : ∀ c ∈ lastFour written, c ∉ variants :=
    fun c hc hvariant => hwritten.plain hsuffix c (List.mem_of_mem_drop hc)
      (List.mem_append_right marks hvariant)
  refine hdiffer other hother ?_
  calc (lastFour other.toList).map Char.toLower
      = (lastFour written).map Char.toLower := (lower_of_sameWord hends hplain).symm
    _ = (lastFour suffix.toList).map Char.toLower := by
        rw [lastFour, lastFour, List.map_drop, List.map_drop, hwritten, hlength]

/-- A stem is told by its suffix. -/
theorem nameOfStem?_append (hsuffix : suffix ∈ suffixes) (hwritten : IsWritten suffix written)
    (hne : front ≠ []) (hline : '\n' ∉ front) (hname : joinWords front (front ++ written) ≠ []) :
    nameOfStem? (front ++ written) = some (joinWords front (front ++ written)) := by
  have hsome : ((beforeSuffix? suffix.toList (front ++ written)).bind fun before =>
      let name := joinWords before (front ++ written)
      if name.isEmpty then none else some name)
        = some (joinWords front (front ++ written)) := by
    rw [beforeSuffix?_append hsuffix hwritten hne hline]
    exact if_neg fun hempty => hname (List.isEmpty_iff.mp hempty)
  cases hfound : nameOfStem? (front ++ written) with
  | none =>
      have hnone := List.findSome?_eq_none_iff.mp hfound suffix hsuffix
      exact absurd (hnone.symm.trans hsome) (Option.some_ne_none _).symm
  | some name =>
      obtain ⟨other, hother, hbefore⟩ := List.exists_of_findSome?_eq_some hfound
      obtain ⟨before, hfits, -⟩ := Option.bind_eq_some_iff.mp hbefore
      obtain rfl := eq_of_beforeSuffix? hsuffix hwritten hother hfits
      exact hbefore.symm.trans hsome

end BeforeSuffix

/-! ## Words of a name -/

theorem isSeparator_iff {c : Char} : isSeparator c = true ↔ c = '_' ∨ c = '-' ∨ c = '.' := by
  simp [isSeparator, or_assoc]

theorem isSeparator_of_not_mark {c : Char} (h : c ∉ marks) : isSeparator c = false := by
  rw [Bool.eq_false_iff, ne_eq, isSeparator_iff]
  rintro (rfl | rfl | rfl) <;> exact h (by decide)

theorem mark_of_isSeparator {c : Char} (h : isSeparator c = true) : c ∈ marks := by
  by_contra hmark
  exact Bool.false_ne_true ((isSeparator_of_not_mark hmark).symm.trans h)

theorem ne_of_not_mark {c : Char} (h : c ∉ marks) : c ≠ '\n' ∧ c ≠ '/' ∧ c ≠ '.' := by
  refine ⟨?_, ?_, ?_⟩ <;> rintro rfl <;> exact h (by decide)

/-- **Names without separators.** -/
theorem not_isSeparator_of_mem_joinWords {front stem : List Char} (h : ∀ c ∈ front, c ∈ stem) :
    ∀ c ∈ joinWords front stem, isSeparator c = false := by
  intro c hc
  unfold joinWords at hc
  dsimp only at hc
  split at hc
  case isTrue =>
      obtain ⟨word, hword, hc⟩ := List.mem_flatMap.mp hc
      refine Bool.eq_false_iff.mpr fun hseparator => ?_
      have hmem := mem_of_mark_mem_upperFirst hc (mark_of_isSeparator hseparator)
      exact Bool.false_ne_true ((not_mem_of_mem_splitOn hword c hmem).symm.trans hseparator)
  case isFalse hnone =>
      have hfront : c ∈ front := (List.rdropWhile_prefix isSeparator front).subset hc
      refine Bool.eq_false_iff.mpr fun hseparator => hnone ?_
      exact List.any_eq_true.mpr ⟨c, h c hfront, hseparator⟩

/-- A word of a name. -/
def IsNameWord (w : List Char) : Prop :=
  w ≠ [] ∧ ∀ c ∈ w, c ∉ marks

instance (w : List Char) : Decidable (IsNameWord w) :=
  @instDecidableAnd _ _ inferInstance (List.decidableBAll _ w)

/-- The name of a component: some words, and a word for what it is. -/
structure ComponentName where
  words : List (List Char)
  suffix : List Char
  words_ne_nil : words ≠ []
  isWord : ∀ w ∈ words, IsNameWord w
  isSuffix : ∃ s ∈ suffixes, IsWritten s suffix

namespace ComponentName

variable (n : ComponentName)

/-- The service: the words with a capital first. -/
def service : List Char :=
  n.words.flatMap upperFirst

/-- The name with a separator between its words. -/
def separated (separator : Char) : List Char :=
  join [separator] (n.words ++ [n.suffix])

/-- The name with capitals. -/
def capitalized : List Char :=
  n.service ++ n.suffix

/-- The name in each convention. -/
def stems : List (List Char) :=
  [n.separated '_', n.separated '-', n.capitalized]

theorem service_ne_nil : n.service ≠ [] := by
  obtain ⟨word, hword⟩ := List.exists_mem_of_ne_nil n.words n.words_ne_nil
  intro hnil
  exact upperFirst_ne_nil (n.isWord word hword).1 (List.flatMap_eq_nil_iff.mp hnil word hword)

theorem not_mark_of_mem_service : ∀ c ∈ n.service, c ∉ marks := by
  intro c hc hmark
  obtain ⟨word, hword, hc⟩ := List.mem_flatMap.mp hc
  exact (n.isWord word hword).2 c (mem_of_mark_mem_upperFirst hc hmark) hmark

theorem not_mark_of_mem_suffix : ∀ c ∈ n.suffix, c ∉ marks := by
  obtain ⟨s, hs, hwritten⟩ := n.isSuffix
  exact fun c hc hmark => hwritten.plain hs c hc (List.mem_append_left variants hmark)

/-- A stem that shows the words before the suffix. -/
structure Shows (n : ComponentName) (stem : List Char) : Prop where
  nameOf : nameOfStem? stem = some n.service
  nonempty : stem ≠ []
  plain : ∀ c ∈ stem, c ≠ '/' ∧ c ≠ '.'

theorem separated_eq (separator : Char) :
    n.separated separator = join [separator] n.words ++ [separator] ++ n.suffix := by
  rw [separated, join_append n.words_ne_nil, List.flatMap_singleton, List.append_assoc]

theorem separator_or_not_mark {separator c : Char}
    (h : c ∈ join [separator] n.words ++ [separator]) : c = separator ∨ c ∉ marks := by
  rcases List.mem_append.mp h with h | h
  · rcases mem_join h with h | ⟨word, hword, h⟩
    · exact Or.inl (List.mem_singleton.mp h)
    · exact Or.inr ((n.isWord word hword).2 c h)
  · exact Or.inl (List.mem_singleton.mp h)

/-- Words between separators are found again. -/
theorem joinWords_separated {separator : Char} (h : isSeparator separator = true) :
    joinWords (join [separator] n.words ++ [separator]) (n.separated separator) = n.service := by
  have hwords : ∀ word ∈ n.words, ∀ c ∈ word, isSeparator c = false :=
    fun word hword c hc => isSeparator_of_not_mark ((n.isWord word hword).2 c hc)
  have hany : (n.separated separator).any isSeparator = true := by
    rw [separated_eq]
    simp [h]
  have hlast : ∀ c ∈ (join [separator] n.words).getLast?, isSeparator c = false := by
    intro c hc
    obtain ⟨word, hword, hc⟩ := mem_of_getLast?_join (fun word hword => (n.isWord word hword).1) hc
    exact hwords word hword c hc
  have hfront : dropRight isSeparator (join [separator] n.words ++ [separator])
      = join [separator] n.words := by
    rw [dropRight_append_of_all (by simp [h]), dropRight_eq_self hlast]
  simp only [joinWords, hany, if_true, hfront, splitOn_join h n.words_ne_nil hwords]
  rfl

/-- Capitals bring no separators in. -/
theorem joinWords_capitalized : joinWords n.service n.capitalized = n.service := by
  have hservice : ∀ c ∈ n.service, isSeparator c = false :=
    fun c hc => isSeparator_of_not_mark (n.not_mark_of_mem_service c hc)
  have hnone : n.capitalized.any isSeparator = false := by
    rw [List.any_eq_false]
    intro c hc
    rw [Bool.not_eq_true]
    rcases List.mem_append.mp hc with hc | hc
    · exact hservice c hc
    · exact isSeparator_of_not_mark (n.not_mark_of_mem_suffix c hc)
  simp only [joinWords, hnone, Bool.false_eq_true, if_false]
  exact dropRight_eq_self fun c hc => hservice c (List.mem_of_getLast? hc)

/-- A stem whose front is read as the service, if it has none of the marks that matter. -/
theorem shows_of_front {front : List Char} (hne : front ≠ [])
    (hname : joinWords front (front ++ n.suffix) = n.service)
    (hchars : ∀ c ∈ front, c ≠ '\n' ∧ c ≠ '/' ∧ c ≠ '.') : n.Shows (front ++ n.suffix) where
  nameOf := by
    obtain ⟨s, hs, hwritten⟩ := n.isSuffix
    have hservice : joinWords front (front ++ n.suffix) ≠ [] := by
      rw [hname]
      exact n.service_ne_nil
    rw [nameOfStem?_append hs hwritten hne (fun hline => (hchars _ hline).1 rfl) hservice, hname]
  nonempty := List.append_ne_nil_of_left_ne_nil hne n.suffix
  plain := by
    intro c hc
    rcases List.mem_append.mp hc with hc | hc
    · exact (hchars c hc).2
    · exact (ne_of_not_mark (n.not_mark_of_mem_suffix c hc)).2

theorem shows_separated {separator : Char} (h : separator = '_' ∨ separator = '-') :
    n.Shows (n.separated separator) := by
  have hseparator : isSeparator separator = true := by
    rcases h with rfl | rfl <;> rfl
  have hother : separator ≠ '\n' ∧ separator ≠ '/' ∧ separator ≠ '.' := by
    rcases h with rfl | rfl <;> decide
  have hname := n.joinWords_separated hseparator
  rw [separated_eq] at hname ⊢
  refine n.shows_of_front (by simp) hname fun c hc => ?_
  rcases n.separator_or_not_mark hc with rfl | hc
  · exact hother
  · exact ne_of_not_mark hc

theorem shows_capitalized : n.Shows n.capitalized :=
  n.shows_of_front n.service_ne_nil n.joinWords_capitalized
    fun c hc => ne_of_not_mark (n.not_mark_of_mem_service c hc)

/-- The stem shows the service in every convention. -/
theorem shows_of_mem_stems {stem : List Char} (h : stem ∈ n.stems) : n.Shows stem := by
  simp only [stems, List.mem_cons, List.not_mem_nil, or_false] at h
  rcases h with rfl | rfl | rfl
  · exact n.shows_separated (Or.inl rfl)
  · exact n.shows_separated (Or.inr rfl)
  · exact n.shows_capitalized

end ComponentName

/-! ## Services of files -/

theorem nameOf_of_stem {file : String} {name : List Char}
    (h : nameOfStem? (Path.ofString file).stem = some name) (workingDirectory : Path)
    (root : Option Path) : nameOf workingDirectory root file = String.ofList name := by
  unfold nameOf
  dsimp only
  rw [h]

/-- The service of a file that its stem tells can be told. -/
theorem isNameless_of_stem {file : String} {name : List Char}
    (h : nameOfStem? (Path.ofString file).stem = some name) (root : Option Path) :
    isNameless root file = false := by
  simp only [isNameless, h, Option.isNone_some, Bool.false_and]

/-- What a suffix tells is not empty and has no separators. -/
theorem nameOfStem?_spec {stem name : List Char} (h : nameOfStem? stem = some name) :
    name ≠ [] ∧ ∀ c ∈ name, isSeparator c = false := by
  obtain ⟨suffix, -, hsuffix⟩ := List.exists_of_findSome?_eq_some h
  obtain ⟨front, hfront, hname⟩ := Option.bind_eq_some_iff.mp hsuffix
  dsimp only at hname
  rw [Option.ite_none_left_eq_some, Option.some.injEq] at hname
  obtain ⟨hne, rfl⟩ := hname
  refine ⟨fun hnil => hne (List.isEmpty_iff.mpr hnil), not_isSeparator_of_mem_joinWords ?_⟩
  exact fun c hc => mem_of_beforeSuffix? hfront hc

/-- No service has an empty name. -/
theorem nameOf_ne_empty (workingDirectory : Path) (root : Option Path) (file : String) :
    nameOf workingDirectory root file ≠ "" := by
  cases hstem : nameOfStem? (Path.ofString file).stem with
  | some name =>
      rw [nameOf_of_stem hstem]
      intro hempty
      refine (nameOfStem?_spec hstem).1 ?_
      rw [← String.toList_ofList (l := name), hempty]
      rfl
  | none =>
      unfold nameOf
      dsimp only
      rw [hstem]
      dsimp only
      split
      · decide
      · rename_i hparent
        split
        · decide
        · exact fun hempty => hparent (beq_iff_eq.mpr hempty)

/-- **Naming conventions.** The files of a component belong to the service that its words name,
whichever way the words are separated, however the word for the component is written, and whatever
the directory, the ending and the root. Of any file, a name that is told by a suffix has no
separators, and no name is empty. -/
theorem conventions_name_one_service :
    (∀ (n : ComponentName), ∀ stem ∈ n.stems, ∀ (frame : Path.Frame) (workingDirectory : Path)
        (root : Option Path),
        namesOf workingDirectory root [frame.file stem] = .ok [String.ofList n.service])
      ∧ (∀ file name, nameOfStem? (Path.ofString file).stem = some name →
        (∀ workingDirectory root, nameOf workingDirectory root file = String.ofList name)
          ∧ ∀ c ∈ name, isSeparator c = false)
      ∧ ∀ workingDirectory root file, nameOf workingDirectory root file ≠ "" := by
  refine ⟨fun n stem hstem frame workingDirectory root => ?_, fun file name h => ?_, nameOf_ne_empty⟩
  · have hshows := n.shows_of_mem_stems hstem
    have hname : nameOfStem? (Path.ofString (frame.file stem)).stem = some n.service := by
      rw [frame.stem_file hshows.nonempty hshows.plain, hshows.nameOf]
    rw [namesOf, unlessNameless, List.any_cons, List.any_nil, isNameless_of_stem hname,
      List.map_singleton, nameOf_of_stem hname]
    rfl
  · exact ⟨nameOf_of_stem h, (nameOfStem?_spec h).2⟩

/-- A component whose words are a word for components, and one whose capital is two letters. -/
def trickyName : ComponentName where
  words := ["user".toList, "service".toList, "ßeta".toList]
  suffix := "hANDLER".toList
  words_ne_nil := List.cons_ne_nil _ _
  isWord := by decide
  isSuffix := ⟨"Handler", by decide⟩

/-- A directory with separators in its name, and an ending. -/
def trickyFrame : Path.Frame where
  directory := "my-app/".toList
  ending := ".java".toList
  isDirectory := by
    rintro c ⟨⟩
    rfl
  isEnding _ := ⟨"java".toList, rfl, by decide, forall_mem_of_all (by decide)⟩

theorem service_of_trickyName :
    [trickyFrame.file (trickyName.separated '_'), trickyFrame.file (trickyName.separated '-'),
        trickyFrame.file trickyName.capitalized]
      = ["my-app/user_service_ßeta_hANDLER.java", "my-app/user-service-ßeta-hANDLER.java",
        "my-app/UserServiceSSetahANDLER.java"]
      ∧ namesOf ⟨1, []⟩ none ["my-app/user-service-ßeta-hANDLER.java"]
        = .ok ["UserServiceSSeta"] := by
  have hfiles : [trickyFrame.file (trickyName.separated '_'),
        trickyFrame.file (trickyName.separated '-'), trickyFrame.file trickyName.capitalized]
      = ["my-app/user_service_ßeta_hANDLER.java", "my-app/user-service-ßeta-hANDLER.java",
        "my-app/UserServiceSSetahANDLER.java"] := by
    decide +kernel
  have hservice : String.ofList trickyName.service = "UserServiceSSeta" := by decide +kernel
  have hname := conventions_name_one_service.1 trickyName (trickyName.separated '-')
    (List.mem_cons_of_mem _ List.mem_cons_self) trickyFrame ⟨1, []⟩ none
  obtain ⟨-, hfile⟩ := List.cons.inj hfiles
  rw [hservice, (List.cons.inj hfile).1] at hname
  exact ⟨hfiles, hname⟩

end Service

end ServiceMap
