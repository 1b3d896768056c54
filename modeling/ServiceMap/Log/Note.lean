import ServiceMap.Facts.Basic
import ServiceMap.Tree.Path

/-!
# Notes

What an analysis reports about its own progress, as data: which part reports, how important it is,
and in which words.
-/

namespace ServiceMap

/-- How important a note is. -/
inductive Level where
  | debug
  | info
deriving DecidableEq, Repr

/-- The word for a level. -/
def Level.label : Level → String
  | debug => "DEBUG"
  | info => "INFO"

/-- Something an analysis reports. -/
inductive Note where
  /-- The analysis of a root starts. -/
  | analyzing (root : String)
  /-- So many source files were found below a root. -/
  | discovered (count : Nat) (root : String)
  /-- A file of a language cannot be read. -/
  | skipping (language : Language) (file : String)
  /-- A file yields no facts. -/
  | withoutFacts (file : String)
  /-- So many files were read and so many were not. -/
  | parsed (files skipped : Nat)
  /-- A directory named by an import cannot be listed. -/
  | cannotList (directory : Path)
  /-- A file that an import may stand for cannot be looked for. -/
  | cannotProbe (candidate : Path) (spec : String)
  /-- An import stands for no file. -/
  | unresolvedImport (spec file : String)
  /-- A file cannot be read again for its edges. -/
  | skippingEdges (file : String)
  /-- So many edges were found. -/
  | foundEdges (count : Nat)
  /-- The analysis of a root is done. -/
  | analyzed (files services edges : Nat)
  /-- The analysis of all roots is done. -/
  | servicesAnalyzed (services edges : Nat)
deriving DecidableEq, Repr

namespace Note

/-- The level of a note. -/
def level : Note → Level
  | analyzing _ => .info
  | analyzed .. => .info
  | servicesAnalyzed .. => .info
  | _ => .debug

/-- The part of the program that reports. -/
def channel : Note → String
  | analyzing _ => "analyzer"
  | discovered .. => "discovery"
  | skipping language _ => "parsers." ++ language.label
  | withoutFacts _ => "analyzer"
  | parsed .. => "analyzer"
  | cannotList _ => "analysis.relationships"
  | cannotProbe .. => "analysis.relationships"
  | unresolvedImport .. => "analysis.relationships"
  | skippingEdges _ => "analysis.relationships"
  | foundEdges _ => "analyzer"
  | analyzed .. => "analyzer"
  | servicesAnalyzed .. => "cli"

/-- The words for a file whose bytes are no text. -/
def notUtf8 : String := "not UTF-8"

/-- The words of a note. -/
def message : Note → String
  | analyzing root => "Analyzing " ++ root
  | discovered count root => "Discovered " ++ toString count ++ " source files under " ++ root
  | skipping _ file => "Skipping " ++ file ++ ": " ++ notUtf8
  | withoutFacts file => "No structural facts for " ++ file
  | parsed files skipped =>
    "Parsed " ++ toString files ++ " files (" ++ toString skipped ++ " skipped)"
  | cannotList directory =>
    "Cannot list import directory " ++ directory.toString ++ ": " ++ directory.tooLongMessage
  | cannotProbe candidate spec =>
    "Cannot probe " ++ candidate.toString ++ " for import " ++ spec ++ ": "
      ++ candidate.tooLongMessage
  | unresolvedImport spec file => "Unresolved import " ++ spec ++ " in " ++ file
  | skippingEdges file => "Skipping relationships for " ++ file ++ ": " ++ notUtf8
  | foundEdges count => "Found " ++ toString count ++ " relationships"
  | analyzed files services edges =>
    "Analyzed " ++ toString files ++ " files into " ++ toString services ++ " services with "
      ++ toString edges ++ " relationships"
  | servicesAnalyzed services edges =>
    "Services analyzed: " ++ toString services ++ ", relationships: " ++ toString edges

end Note

end ServiceMap
