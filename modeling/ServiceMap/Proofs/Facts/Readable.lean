import ServiceMap.Proofs.Endpoint.Readers
import ServiceMap.Proofs.Link.Scan

/-!
# Every text is read

A source asks about positions: where a group ends, what stands above a declaration, which lines come
before it. Each such question can fail, and a failure would end the reading. Whatever the text, none
does, neither when the facts of a source are read nor when it is scanned for edges. The one way to
fail is a status code that a Go handler writes in too many digits.
-/

namespace ServiceMap

open Text Source Declaration Endpoint

/-- The digits of no status in a masked source are too many for a numeral. -/
def StatusNumeralsFit (masked : List Char) : Prop :=
  ∀ digits, IsStatusNumeral masked digits → digits.length ≤ longestNumeral

namespace SourceFile

theorem readGo_failsOnly {s : SourceText} (hs : s.HasLines) (path : String) :
    FailsOnly (IsLongStatus s.masked) (readGo path s) := by
  refine FailsOnly.bind (goEndpoints_failsOnly hs path) fun endpoints _ => ?_
  refine FailsOnly.bind (.of_neverFails (goTypes_neverFails hs)) fun types _ => ?_
  refine FailsOnly.bind (.of_neverFails (goFunctions_neverFails hs)) fun functions _ => ?_
  exact FailsOnly.pure _

theorem readJava_neverFails (path : String) (s : SourceText) : NeverFails (readJava path s) := by
  refine FailsOnly.bind (javaTypes_neverFails s) fun types _ => ?_
  refine FailsOnly.bind (javaMethods_neverFails s types) fun methods _ => ?_
  exact FailsOnly.bind (javaEndpoints_neverFails path types methods) fun endpoints _ =>
    FailsOnly.pure _

theorem readCSharp_neverFails {s : SourceText} (hs : s.HasLines) (path : String) :
    NeverFails (readCSharp path s) := by
  refine FailsOnly.bind (csharpTypes_neverFails s) fun types _ => ?_
  refine FailsOnly.bind (csharpMethods_neverFails s types) fun methods _ => ?_
  refine FailsOnly.bind (actionEndpoints_neverFails s path types methods) fun actions _ => ?_
  exact FailsOnly.bind (mappedEndpoints_neverFails hs path) fun mapped _ => FailsOnly.pure _

/-- The one fault of reading a source is a status code of too many digits. -/
theorem read_failsOnly (language : Language) (path : String) (text : List Char) :
    FailsOnly (fun fault => language = .go
      ∧ IsLongStatus (maskComments language.rawQuote text) fault) (read language path text) := by
  have hlines := hasLines_ofText language.rawQuote text
  cases language with
  | go => exact fun fault hfault => ⟨rfl, readGo_failsOnly hlines path fault hfault⟩
  | java => exact .of_neverFails (readJava_neverFails path _)
  | csharp => exact .of_neverFails (readCSharp_neverFails hlines path)

theorem read_isOk {language : Language} {text : List Char}
    (hfit : language = .go → StatusNumeralsFit (maskComments language.rawQuote text))
    (path : String) : ∃ facts, read language path text = .ok facts := by
  refine neverFails_iff.mp fun fault hfault => ?_
  obtain ⟨hgo, digits, hdigits, hlong, -⟩ := read_failsOnly language path text fault hfault
  exact absurd (hfit hgo digits hdigits) (Nat.not_le_of_lt hlong)

end SourceFile

namespace Extractor

variable {tree : Tree} {workingDirectory : Path}

theorem projectRoot_isOk (x : Extractor) {source : Path} (h : source.hasNul = false) :
    ∃ found, x.projectRoot tree workingDirectory source = .ok found := by
  rw [projectRoot, findRoot_of_hasNul h]
  split
  · exact ⟨_, rfl⟩
  · exact ⟨_, rfl⟩

/-- An extractor in whatever state scans every text of a file whose path is a path. -/
theorem extract_isOk (x : Extractor) {file : String}
    (h : (Path.ofString file).hasNul = false) (text : List Char) (language : Language) :
    ∃ scan y, x.extract tree workingDirectory file text language = .ok (scan, y) := by
  have edges : ∀ (y : Extractor) (root : Option Path),
      NeverFails (y.edgesWith tree workingDirectory root file text language) :=
    fun y root => neverFails_iff.mpr (edgesWith_isOk tree workingDirectory y root file text language)
  have hscan : NeverFails (x.extract tree workingDirectory file text language) := by
    rw [extract]
    split
    · refine FailsOnly.bind (neverFails_iff.mpr (projectRoot_isOk x h)) fun found _ => ?_
      exact FailsOnly.bind (edges _ _) fun scan _ => FailsOnly.pure _
    · refine FailsOnly.bind (FailsOnly.ok _) fun found _ => ?_
      exact FailsOnly.bind (edges _ _) fun scan _ => FailsOnly.pure _
  obtain ⟨⟨scan, y⟩, hresult⟩ := neverFails_iff.mp hscan
  exact ⟨scan, y, hresult⟩

end Extractor

/-- **Every text is read and scanned.** Reading a source and scanning it for edges have a result for
every text, so that every group that is asked for starts at an opening bracket and every comment is
looked for in lines that there are; the lines above any position of the masked source are lines of
the text. All that is asked is that no status code has too many digits, and that the path of the
file does not hold the NUL character. -/
theorem every_text_is_read_and_scanned (language : Language) (text : List Char)
    (hfit : language = .go → StatusNumeralsFit (maskComments language.rawQuote text)) :
    (∀ path, ∃ facts, SourceFile.read language path text = .ok facts)
      ∧ (∀ (x : Extractor) (tree : Tree) (workingDirectory : Path) (file : String),
          (∀ c ∈ file.toList, Path.isNul c = false) →
            ∃ scan y, x.extract tree workingDirectory file text language = .ok (scan, y))
      ∧ ∀ index,
          lineNumber (maskComments language.rawQuote text) index ≤ (lines text).length + 1 := by
  refine ⟨SourceFile.read_isOk hfit, fun x tree workingDirectory file hfile => ?_, fun index => ?_⟩
  · exact Extractor.extract_isOk x (Path.hasNul_ofString hfile) text language
  · calc lineNumber (maskComments language.rawQuote text) index
        ≤ newlines (maskComments language.rawQuote text) + 1 := lineNumber_le _ index
      _ = newlines text + 1 := by rw [newlines_maskComments]
      _ ≤ (lines text).length + 1 := Nat.succ_le_succ (newlines_le_length_lines text)

/-- A Go handler that answers with a status in three digits. -/
theorem handler_with_a_status_is_read_and_scanned :
    let text := "r.GET(\"/a\", show)\nfunc show() \x7b c.JSON(404, x) \x7d".toList
    StatusNumeralsFit (maskComments Language.go.rawQuote text)
      ∧ ∃ facts, SourceFile.read .go "a.go" text = .ok facts := by
  intro text
  have hfit : StatusNumeralsFit (maskComments Language.go.rawQuote text) := by
    rintro digits ⟨-, blanks, -, hinfix⟩
    have hlength := hinfix.length_le
    rw [length_maskComments, List.length_append, List.length_append] at hlength
    have htext : text.length ≤ longestNumeral := by decide
    omega
  exact ⟨hfit, (every_text_is_read_and_scanned .go text fun _ => hfit).1 "a.go"⟩

end ServiceMap
