import ServiceMap.CommandLine.Grammar
import ServiceMap.Tree.Path

/-!
# Invocations

What the program is asked to do by its arguments.
-/

namespace ServiceMap.CommandLine

open Text

/-- The form of a report. -/
inductive ReportFormat where
  | json
  | markdown
deriving DecidableEq, Repr

/-- What the program is to do. -/
inductive Command where
  /-- Report on the services below a directory. -/
  | analyze (path : String) (format : ReportFormat) (output : Given Path) (workers : Given Int)
  /-- Print the dependency graph of one service, or of none. -/
  | graph (path : String) (service : Option String)
  /-- Answer requests. -/
  | serve (host : String) (port : Int)
deriving DecidableEq, Repr

/-- What the program is asked to do, and what it reports on the way. -/
structure Invocation where
  /-- Whether notes of little importance are shown. -/
  verbose : Bool := false
  /-- A file to which all notes are added. -/
  logFile : Given Path := .nothing
  command : Command
deriving DecidableEq, Repr

/-! ## The grammars -/

/-- An option with a value of any text. -/
def textOption (name : String) : OptionSpec :=
  ⟨[name.toList], .value fun _ => true⟩

/-- Whether a text is an integer. -/
def isInteger (text : List Char) : Bool :=
  match readInteger text with
  | .ok _ => true
  | .error _ => false

/-- An option with an integer. -/
def integerOption (name : String) : OptionSpec :=
  ⟨[name.toList], .value isInteger⟩

/-- Options that every command takes. -/
def commonOptions : List OptionSpec :=
  [⟨["--help".toList, "-h".toList], .help⟩, ⟨["--verbose".toList, "-v".toList], .flag⟩]

/-- The words for the forms of reports. -/
def formatWords : List (String × ReportFormat) :=
  [("json", .json), ("markdown", .markdown)]

/-- What stands before the name of a command, and the command with all that belongs to it. -/
def mainGrammar : Grammar where
  options := commonOptions ++ [textOption "--log-file"]
  operands := [⟨"command", .rest⟩]

/-- What follows the name of each command. -/
def commandGrammars : List (String × Grammar) :=
  [("analyze", {
      options := commonOptions
        ++ [⟨["--format".toList], .value fun s => (formatWords.lookup (String.ofList s)).isSome⟩,
          textOption "--output", integerOption "--workers"]
      operands := [⟨"path", .atMostOne⟩] }),
    ("graph", {
      options := commonOptions
      operands := [⟨"path", .one⟩, ⟨"service", .one⟩] }),
    ("serve", {
      options := commonOptions ++ [textOption "--host", integerOption "--port"]
      operands := [] })]

/-! ## Reading -/

/-- The text given last under a name, if any. -/
def textOf? (p : Parsed) (name : String) : Option String :=
  (p.value name).toOption.map String.ofList

/-- The integer given last under a name. -/
def integerOf (p : Parsed) (name : String) : Given Int :=
  (p.value name).filterMap fun s => (readInteger s).toOption

/-- The path given last under a name. -/
def pathOf (p : Parsed) (name : String) : Given Path :=
  (p.value name).filterMap fun s => some (Path.ofString (String.ofList s))

/-- The form of report that is asked for. Reports are JSON unless another form is named. -/
def formatOf (p : Parsed) : ReportFormat :=
  ((textOf? p "--format").bind fun word => formatWords.lookup word).getD .json

/-- The command of a name, by what follows the name. -/
def commandOf (name : String) (p : Parsed) : Command :=
  if name == "analyze" then
    .analyze ((textOf? p "path").getD ".") (formatOf p) (pathOf p "--output")
      (integerOf p "--workers")
  else if name == "graph" then .graph ((textOf? p "path").getD ".") (textOf? p "service")
  else
    .serve ((textOf? p "--host").getD "127.0.0.1") ((integerOf p "--port").toOption.getD 8000)

/-- What the program is asked to do by its arguments. -/
def Invocation.ofArguments (arguments : List String) : Except Refusal Invocation := do
  let before ← mainGrammar.parse (arguments.map String.toList)
  match before.last? "command" with
  | some (name :: rest) =>
    let name := String.ofList name
    match commandGrammars.lookup name with
    | none => .error .usage
    | some grammar =>
      let after ← grammar.parse rest
      if before.extras.isEmpty && after.extras.isEmpty then
        return {
          verbose := before.has "--verbose" || after.has "--verbose"
          logFile := pathOf before "--log-file"
          command := commandOf name after }
      else .error .usage
  | _ => .error .usage

end ServiceMap.CommandLine
