import ServiceMap.Declaration.GoType
import ServiceMap.Endpoint.CSharpRoute
import ServiceMap.Endpoint.GoRoute
import ServiceMap.Endpoint.JavaMapping

/-!
# Reading a source file

The facts of a source file from its text.
-/

namespace ServiceMap

open Source Declaration Endpoint

/-- The quote of raw strings, in languages that have one. -/
def Language.rawQuote : Language → Option Char
  | .go => some backtick
  | .java => none
  | .csharp => none

namespace SourceFile

/-- The facts of a Go source. -/
def readGo (path : String) (source : SourceText) : Except Fault SourceFile := do
  return {
    path
    language := .go
    endpoints := ← goEndpoints source path
    types := ← goTypes source
    functions := (← goFunctions source).map GoFunction.info }

/-- The facts of a Java source. -/
def readJava (path : String) (source : SourceText) : Except Fault SourceFile := do
  let types ← javaTypes source
  let methods ← javaMethods source types
  return {
    path
    language := .java
    endpoints := ← javaEndpoints path types methods
    types := withMethods types methods
    functions := methods.map fun entry => entry.2.info }

/-- The facts of a C# source. -/
def readCSharp (path : String) (source : SourceText) : Except Fault SourceFile := do
  let types ← csharpTypes source
  let methods ← csharpMethods source types
  let owned := ownedMethods types source.masked methods
  let actions ← actionEndpoints source path types methods
  return {
    path
    language := .csharp
    endpoints := actions ++ (← mappedEndpoints source path)
    types := withMethods types owned
    functions := owned.map fun entry => entry.2.info }

/-- The facts of a source text in a language. -/
def read (language : Language) (path : String) (text : List Char) : Except Fault SourceFile :=
  let source := SourceText.ofText language.rawQuote text
  match language with
  | .go => readGo path source
  | .java => readJava path source
  | .csharp => readCSharp path source

end SourceFile

end ServiceMap
