import ServiceMap.Proofs.Link.History
import ServiceMap.Proofs.Link.Placed

/-!
# Imports and the directory of their project

An import of Java or C# is looked for below the root of its project and below the directory of the
importing file: its dots become slashes, and the path that comes of it is taken relative to these
directories. Such a path has no pair of dots, so it never leads up. But if it starts with a slash, as
it does when the import starts with a dot, it is taken relative to nothing, and wherever the project
stands the import is looked for at that one path.
-/

namespace ServiceMap

open Text

namespace Path

variable {d p : Path}

/-- Names lead from a directory down to a path, and none of them leads back up. -/
def LiesBelow (p d : Path) : Prop :=
  ∃ names, names ≠ [] ∧ (∀ name ∈ names, name ≠ "..") ∧ p = d.below names

theorem LiesBelow.of_folder {folder : List String} (hfolder : ∀ name ∈ folder, name ≠ "..")
    (h : p.LiesBelow (d.below folder)) : p.LiesBelow d := by
  obtain ⟨names, hne, hup, rfl⟩ := h
  refine ⟨folder ++ names, List.append_ne_nil_of_right_ne_nil folder hne, ?_, ?_⟩
  · intro name hname
    exact (List.mem_append.mp hname).elim (hfolder name) (hup name)
  · rw [below, below, below, List.append_assoc]

/-- What lies below a directory starts with the names of the directory. -/
theorem LiesBelow.names_prefix (h : p.LiesBelow d) : d.names <+: p.names := by
  obtain ⟨names, -, -, rfl⟩ := h
  exact List.prefix_append d.names names

theorem append_of_isAbsolute (h : p.isAbsolute = true) : d ++ p = p := by
  show d.append p = p
  rw [append, if_pos h]

theorem append_liesBelow (habsolute : p.isAbsolute = false) (hne : p.names ≠ [])
    (hup : ∀ name ∈ p.names, name ≠ "..") : (d ++ p).LiesBelow d := by
  refine ⟨p.names, hne, hup, ?_⟩
  rw [← List.nil_append p.names, ← below_append habsolute, below_nil]

theorem isAbsolute_ofString (text : String) :
    (ofString text).isAbsolute = (text.toList.head? == some '/') := by
  rw [isAbsolute, ofString]
  cases text.toList with
  | nil => rfl
  | cons c s =>
      dsimp only
      by_cases hc : c = '/'
      · subst hc
        rw [if_neg (by simp)]
        split <;> rfl
      · rw [if_pos (by simp [hc])]
        simp [hc]

/-- A text that is not made of slashes and dots alone has names. -/
theorem names_ofString_ne_nil {text : String} {c : Char} (hc : c ∈ text.toList)
    (hslash : c ≠ '/') (hdot : c ≠ '.') : (ofString text).names ≠ [] := by
  intro hnames
  have hpieces : ∀ piece ∈ splitOn (· == '/') text.toList, piece = [] ∨ piece = ['.'] := by
    intro piece hpiece
    have hdropped := List.filter_eq_nil_iff.mp (List.map_eq_nil_iff.mp hnames) piece hpiece
    by_contra hkept
    exact hdropped (by simpa using hkept)
  -- each character is a slash or stands in a piece
  rw [← join_splitOn (p := (· == '/')) text.toList fun d _ hd => beq_iff_eq.mp hd] at hc
  rcases mem_join hc with hc | ⟨piece, hpiece, hc⟩
  · exact hslash (List.mem_singleton.mp hc)
  · rcases hpieces piece hpiece with rfl | rfl
    · exact List.not_mem_nil hc
    · exact hdot (List.mem_singleton.mp hc)

end Path

namespace Link

variable {tree : Tree} {workingDirectory root source : Path} {language : Language}
  {spec : List Char}

/-! ## Where imports are looked for -/

/-- Whether an import starts with a separator: a slash, or a dot that becomes one. -/
def isRooted (spec : List Char) : Bool :=
  spec.head? == some '.' || spec.head? == some '/'

/-- The folders of a project in which sources are looked for. -/
def sourceFolders : Language → List (List String)
  | .go => []
  | .java => [["src", "main", "java"], ["src"]]
  | .csharp => [[]]

/-- The directories that an import is taken relative to. -/
def searchedDirectories (root source : Path) (language : Language) : List Path :=
  (sourceFolders language).map root.below ++ [source.parent]

/-- The path that an import of a language denotes. -/
def importedPath (language : Language) (spec : List Char) : Path :=
  dottedPath spec language.extension

theorem candidates_eq (hlanguage : needsProject language = true) :
    (candidates tree workingDirectory (some root) language source spec).1
      = (searchedDirectories root source language).map (· ++ importedPath language spec) := by
  cases language with
  | go => exact nomatch hlanguage
  | java => simp [candidates, javaCandidates, searchedDirectories, sourceFolders, importedPath,
      Language.extension, Path.below, Path.child]
  | csharp => simp [candidates, csharpCandidates, searchedDirectories, sourceFolders, importedPath,
      Language.extension]

theorem candidates_of_no_root (hlanguage : needsProject language = true) :
    (candidates tree workingDirectory none language source spec).1 = [] := by
  cases language with
  | go => exact nomatch hlanguage
  | java => rfl
  | csharp => rfl

theorem not_up_of_mem_sourceFolders :
    ∀ folder ∈ sourceFolders language, ∀ name ∈ folder, name ≠ ".." := by
  cases language <;> decide

/-! ## Whether this is below the project -/

theorem isAbsolute_importedPath (language : Language) (spec : List Char) :
    (importedPath language spec).isAbsolute = isRooted spec := by
  have hending : (language.extension.toList.head? == some '/') = false := by
    cases language <;> decide
  rw [importedPath, dottedPath, Path.isAbsolute_ofString, String.toList_append,
    String.toList_ofList, replace_dot, isRooted]
  cases spec with
  | nil => simpa using hending
  | cons c spec => by_cases hc : c = '.' <;> simp [hc]

theorem importedPath_names_ne_nil (language : Language) (spec : List Char) :
    (importedPath language spec).names ≠ [] := by
  have hletter : ∃ c ∈ language.extension.toList, c ≠ '/' ∧ c ≠ '.' := by
    cases language with
    | go => exact ⟨'g', by decide, by decide⟩
    | java => exact ⟨'j', by decide, by decide⟩
    | csharp => exact ⟨'c', by decide, by decide⟩
  obtain ⟨c, hc, hslash, hdot⟩ := hletter
  refine Path.names_ofString_ne_nil (c := c) ?_ hslash hdot
  rw [String.toList_append]
  exact List.mem_append_right _ hc

theorem not_up_importedPath (language : Language) (spec : List Char) :
    ∀ name ∈ (importedPath language spec).names, name ≠ ".." :=
  ne_up_of_mem_dottedPath (by cases language <;> decide)

/-- An import that starts with no separator stays below the directories it is taken relative to. -/
theorem liesBelow_of_mem_candidates (hlanguage : needsProject language = true)
    (hrooted : isRooted spec = false) :
    ∀ p ∈ (candidates tree workingDirectory (some root) language source spec).1,
      p.LiesBelow root ∨ p.LiesBelow source.parent := by
  rw [candidates_eq hlanguage]
  intro p hp
  obtain ⟨directory, hdirectory, rfl⟩ := List.mem_map.mp hp
  have hbelow : (directory ++ importedPath language spec).LiesBelow directory :=
    Path.append_liesBelow ((isAbsolute_importedPath language spec).trans hrooted)
      (importedPath_names_ne_nil language spec) (not_up_importedPath language spec)
  rcases List.mem_append.mp hdirectory with hfolder | hparent
  · obtain ⟨folder, hmem, rfl⟩ := List.mem_map.mp hfolder
    exact Or.inl (hbelow.of_folder (not_up_of_mem_sourceFolders folder hmem))
  · rw [List.mem_singleton] at hparent
    subst hparent
    exact Or.inr hbelow

/-- An import that starts with a separator is looked for at one path, whatever the project. -/
theorem mem_candidates_of_isRooted (hlanguage : needsProject language = true)
    (hrooted : isRooted spec = true) {p : Path} :
    p ∈ (candidates tree workingDirectory (some root) language source spec).1
      ↔ p = importedPath language spec := by
  have habsolute := (isAbsolute_importedPath language spec).trans hrooted
  rw [candidates_eq hlanguage, List.mem_map]
  simp only [Path.append_of_isAbsolute habsolute]
  constructor
  · rintro ⟨-, -, rfl⟩
    rfl
  · rintro rfl
    exact ⟨source.parent, List.mem_append_right _ (List.mem_singleton_self _), rfl⟩

end Link

namespace Extractor

open Link

variable {x y : Extractor} {tree : Tree} {workingDirectory source : Path} {language : Language}
  {spec : List Char}

/-- What an import stands for is one of the paths at which it is looked for. -/
theorem mem_candidates_of_importedFile {root : Option Path}
    (hlanguage : needsProject language = true)
    (hroot : x.projectRoot tree workingDirectory source = .ok (root, y)) {target : Path}
    {z : Extractor}
    (h : x.importedFile tree workingDirectory language source spec = .ok (some target, z)) :
    target ∈ (candidates tree workingDirectory root language source spec).1 := by
  rw [importedFile, if_pos hlanguage, hroot] at h
  exact (resolveImport_eq_some (Prod.mk.inj (Except.ok.inj h)).1).1

/-- **Imports and their project.** Let the project of a file in Java or C# be known to the extractor.
Without a root the imports of the file are looked for nowhere. With one, whatever an import stands for
is one of the paths at which it is looked for; these lie below the root or below the directory of the
file if the import starts with no separator, and otherwise all are the one absolute path that it
denotes. So they lie there just when the import starts with no separator or that path happens to. -/
theorem imports_stay_in_project_iff (hlanguage : needsProject language = true) {root? : Option Path}
    (hroot : x.projectRoot tree workingDirectory source = .ok (root?, y)) (spec : List Char) :
    let places := (candidates tree workingDirectory root? language source spec).1
    (root? = none → places = [])
      ∧ (∀ target z,
          x.importedFile tree workingDirectory language source spec = .ok (some target, z) →
            target ∈ places)
      ∧ ∀ root, root? = some root →
        (isRooted spec = false → ∀ p ∈ places, p.LiesBelow root ∨ p.LiesBelow source.parent)
          ∧ (isRooted spec = true → ∀ p, p ∈ places ↔ p = importedPath language spec)
          ∧ ((∀ p ∈ places, p.LiesBelow root ∨ p.LiesBelow source.parent)
            ↔ isRooted spec = false ∨ (importedPath language spec).LiesBelow root
              ∨ (importedPath language spec).LiesBelow source.parent) := by
  intro places
  refine ⟨?_, fun target z h => mem_candidates_of_importedFile hlanguage hroot h, ?_⟩
  · rintro rfl
    exact candidates_of_no_root hlanguage
  · rintro root rfl
    refine ⟨liesBelow_of_mem_candidates hlanguage,
      fun hrooted _ => mem_candidates_of_isRooted hlanguage hrooted, fun hall => ?_, ?_⟩
    · by_cases hrooted : isRooted spec = true
      · exact Or.inr (hall _ ((mem_candidates_of_isRooted hlanguage hrooted).mpr rfl))
      · exact Or.inl (Bool.eq_false_iff.mpr hrooted)
    · rintro (hrooted | hinside) p hp
      · exact liesBelow_of_mem_candidates hlanguage hrooted p hp
      · by_cases hrooted : isRooted spec = true
        · rw [(mem_candidates_of_isRooted hlanguage hrooted).mp hp]
          exact hinside
        · exact liesBelow_of_mem_candidates hlanguage (Bool.eq_false_iff.mpr hrooted) p hp

/-- A project in one directory, and a file in another. -/
def projectBesideVault : Tree :=
  .dir [("etc", .dir [("Vault.java", .file ByteArray.empty ⟨0⟩)]),
    ("w", .dir [("pom.xml", .file ByteArray.empty ⟨0⟩)])]

theorem ordinary_import_stays_in_project :
    needsProject .java = true
      ∧ (ofTable []).projectRoot projectBesideVault ⟨1, ["w"]⟩ ⟨1, ["w", "A.java"]⟩
        = .ok (some ⟨1, ["w"]⟩, ⟨[], SymbolIndex.ofTable [], [(⟨1, ["w"]⟩, some ⟨1, ["w"]⟩)]⟩)
      ∧ ∀ p ∈ (candidates projectBesideVault ⟨1, ["w"]⟩ (some ⟨1, ["w"]⟩) .java
          ⟨1, ["w", "A.java"]⟩ "shop.Item".toList).1, p.LiesBelow ⟨1, ["w"]⟩ := by
  have hfound : Project.findRoot projectBesideVault ⟨1, ["w"]⟩ ⟨1, ["w", "A.java"]⟩
      = .ok (some ⟨1, ["w"]⟩) := by
    decide +kernel
  have hroot : (ofTable []).projectRoot projectBesideVault ⟨1, ["w"]⟩ ⟨1, ["w", "A.java"]⟩
      = .ok (some ⟨1, ["w"]⟩, ⟨[], SymbolIndex.ofTable [], [(⟨1, ["w"]⟩, some ⟨1, ["w"]⟩)]⟩) := by
    simp only [projectRoot, ofTable, List.lookup_nil, hfound]
    rfl
  have hlanguage : needsProject .java = true := rfl
  obtain ⟨-, -, hplaces⟩ := imports_stay_in_project_iff hlanguage hroot "shop.Item".toList
  refine ⟨hlanguage, hroot, fun p hp => ?_⟩
  -- the file stands in the root of its project
  rcases (hplaces _ rfl).1 (by decide) p hp with hbelow | hbelow
  · exact hbelow
  · exact hbelow

/-- An import with a dot in front is captured, and leads out of the project. -/
theorem leading_dot_leaves_the_project :
    importSpecs .java "import .etc.Vault;\n".toList = [".etc.Vault".toList]
      ∧ ((ofTable []).projectRoot projectBesideVault ⟨1, ["w"]⟩ ⟨1, ["w", "A.java"]⟩).toOption.map
          Prod.fst = some (some ⟨1, ["w"]⟩)
      ∧ ((ofTable []).importedFile projectBesideVault ⟨1, ["w"]⟩ .java ⟨1, ["w", "A.java"]⟩
          ".etc.Vault".toList).toOption.map Prod.fst = some (some ⟨1, ["etc", "Vault.java"]⟩)
      ∧ ¬(⟨1, ["etc", "Vault.java"]⟩ : Path).LiesBelow ⟨1, ["w"]⟩ := by
  refine ⟨by decide +kernel, by decide +kernel, by decide +kernel, fun h => ?_⟩
  exact absurd h.names_prefix (by decide)

end Extractor

end ServiceMap
