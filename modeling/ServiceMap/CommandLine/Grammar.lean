import ServiceMap.Text.Digit
import ServiceMap.Text.Find

/-!
# Grammars of command lines

Which options and operands a command takes, and reading arguments by such a grammar. Options may be
shortened as long as one of them is meant, short options may be put together, and a value may follow
its option as an argument or after an equals sign. After a double dash every argument is an operand.
A double dash that is itself taken for a value says that there is none.
-/

namespace ServiceMap.CommandLine

open Text

/-- What an option does. -/
inductive OptionKind where
  /-- It is given or not. -/
  | flag
  /-- It asks for help, and nothing after it counts. -/
  | help
  /-- It has a value, which has to be acceptable. -/
  | value (accepts : List Char → Bool)

/-- Whether an option of this kind has a value. -/
def OptionKind.hasValue : OptionKind → Bool
  | flag => false
  | help => false
  | value _ => true

/-- An option with its names, the first of which stands for all. -/
structure OptionSpec where
  names : List (List Char)
  kind : OptionKind

/-- How many arguments make up an operand. -/
inductive Arity where
  | one
  | atMostOne
  /-- One argument and all after it, options included. -/
  | rest
deriving DecidableEq, Repr

/-- An operand with its name. -/
structure Operand where
  name : String
  arity : Arity
deriving DecidableEq, Repr

/-- What a command takes. -/
structure Grammar where
  options : List OptionSpec
  operands : List Operand

/-- Why arguments are not read to their end. -/
inductive Refusal where
  /-- They do not follow the grammar. -/
  | usage
  /-- They ask for help. -/
  | help
deriving DecidableEq, Repr

/-- What an argument is, by its form. -/
inductive Form where
  /-- The double dash. -/
  | separator
  | operand
  /-- An option under its full name, and the text attached to it. -/
  | option (spec : OptionSpec) (name : List Char) (attached : Option (List Char))
  /-- An option that the grammar does not have. -/
  | unknownOption

/-- Whether an argument has the form of an option. -/
def Form.isOption : Form → Bool
  | option .. => true
  | unknownOption => true
  | separator => false
  | operand => false

/-- An argument and its form. -/
structure Argument where
  text : List Char
  form : Form

/-! ## The forms of arguments -/

namespace Grammar

/-- The names of all options, each with its option. -/
def names (g : Grammar) : List (List Char × OptionSpec) :=
  g.options.flatMap fun spec => spec.names.map fun name => (name, spec)

/-- The option of a name. -/
def option? (g : Grammar) (name : List Char) : Option OptionSpec :=
  (g.names.find? fun entry => entry.1 == name).map Prod.snd

/-- The text before the first equals sign, and the one after it if there is one. -/
def splitEquals (text : List Char) : List Char × Option (List Char) :=
  let front := text.takeWhile (· != '=')
  match text.dropWhile (· != '=') with
  | _ :: value => (front, some value)
  | [] => (front, none)

/-- The options that an argument with two dashes may be short for. -/
def longMatches (g : Grammar) (text : List Char) : List Form :=
  let (front, attached) := splitEquals text
  (g.names.filter fun entry => front.isPrefixOf entry.1).map fun entry =>
    .option entry.2 entry.1 attached

/-- The options that an argument with one dash may stand for: one of a single letter with a text
attached, or one that it is short for. -/
def shortMatches (g : Grammar) (text : List Char) : List Form :=
  g.names.filterMap fun entry =>
    if entry.1 == text.take 2 then some (.option entry.2 entry.1 (some (text.drop 2)))
    else if text.isPrefixOf entry.1 then some (.option entry.2 entry.1 none)
    else none

/-- Whether a text is a negative number. One newline may follow it. -/
def isNegativeNumber (text : List Char) : Bool :=
  match text with
  | '-' :: rest =>
    let rest := if rest.getLast? == some '\n' then rest.dropLast else rest
    let whole := rest.takeWhile isDecimal
    match rest.dropWhile isDecimal with
    | [] => !whole.isEmpty
    | '.' :: places => !places.isEmpty && places.all isDecimal
    | _ => false
  | _ => false

/-- The form of an argument that is not the double dash. -/
def formOf (g : Grammar) (text : List Char) : Except Refusal Form :=
  match text with
  | '-' :: _ :: _ =>
    let (front, attached) := splitEquals text
    match g.option? text, g.option? front with
    | some spec, _ => .ok (.option spec text none)
    | none, some spec => .ok (.option spec front attached)
    | none, none =>
      match if ['-', '-'].isPrefixOf text then g.longMatches text else g.shortMatches text with
      | [found] => .ok found
      | _ :: _ :: _ => .error .usage
      | [] =>
        if isNegativeNumber text || text.contains ' ' then .ok .operand else .ok .unknownOption
  | _ => .ok .operand

/-- Arguments with their forms; after a double dash all are operands. -/
def classify (g : Grammar) : List (List Char) → Except Refusal (List Argument)
  | [] => .ok []
  | text :: rest =>
    if text == ['-', '-'] then
      .ok (⟨text, .separator⟩ :: rest.map fun other => ⟨other, .operand⟩)
    else do
      let form ← g.formOf text
      return ⟨text, form⟩ :: (← g.classify rest)

end Grammar

/-! ## Reading arguments -/

/-- What is said under a name. -/
inductive Given (α : Type) where
  /-- Nothing is. -/
  | nothing
  /-- It is said that there is no value. -/
  | noValue
  | value (a : α)
deriving DecidableEq, Repr

/-- What is made of a value that is given, if anything. -/
def Given.filterMap {α β : Type} (f : α → Option β) : Given α → Given β
  | nothing => nothing
  | noValue => noValue
  | value a =>
    match f a with
    | some b => value b
    | none => nothing

/-- The value that is given. -/
def Given.toOption {α : Type} : Given α → Option α
  | value a => some a
  | _ => none

/-- What arguments say: the values of options and operands in the order in which they are given, and
arguments that mean nothing. -/
structure Parsed where
  values : List (String × List (List Char)) := []
  extras : List (List Char) := []
deriving DecidableEq, Repr

namespace Parsed

/-- Adds the values of an option. A double dash among them does not count. -/
def takeOption (p : Parsed) (spec : OptionSpec) (values : List (List Char)) :
    Except Refusal Parsed :=
  let name := String.ofList (spec.names.headD [])
  let values := values.erase ['-', '-']
  match spec.kind with
  | .flag => .ok { p with values := p.values ++ [(name, [])] }
  | .help => .error .help
  | .value accepts =>
    if values.all accepts then .ok { p with values := p.values ++ [(name, values)] }
    else .error .usage

/-- Adds the arguments of an operand. A double dash among them does not count. -/
def takeOperand (p : Parsed) (operand : Operand) (texts : List (List Char)) : Parsed :=
  let texts := if operand.arity == .rest then texts else texts.erase ['-', '-']
  match operand.arity, texts with
  | .atMostOne, [] => p
  | _, texts => { p with values := p.values ++ [(operand.name, texts)] }

/-- Adds an argument that means nothing. -/
def addExtra (p : Parsed) (text : List Char) : Parsed :=
  { p with extras := p.extras ++ [text] }

/-- Whether an option or operand is given. -/
def has (p : Parsed) (name : String) : Bool :=
  p.values.any fun entry => entry.1 == name

/-- The arguments that were given last under a name. -/
def last? (p : Parsed) (name : String) : Option (List (List Char)) :=
  (p.values.reverse.find? fun entry => entry.1 == name).map Prod.snd

/-- The value that was given last under a name. -/
def value (p : Parsed) (name : String) : Given (List Char) :=
  match p.last? name with
  | none => .nothing
  | some [] => .noValue
  | some (text :: _) => .value text

end Parsed

namespace Grammar

/-- What is found in one argument: options with their values, and an option whose value is still to
come. -/
structure Cluster where
  taken : List (OptionSpec × List (List Char)) := []
  pending : Option OptionSpec := none

/-- Takes apart an option and the text attached to it. The text is the value of the option, or else
the letters of more options; `short` tells that the option has a single dash. -/
def cluster (g : Grammar) (spec : OptionSpec) (short : Bool) :
    List Char → Except Refusal Cluster
  | [] => if spec.kind.hasValue then .ok { taken := [(spec, [[]])] } else .error .usage
  | c :: s =>
    if spec.kind.hasValue then .ok { taken := [(spec, [c :: s])] }
    else if !short then .error .usage
    else
      match g.option? ['-', c], s with
      | none, _ => .error .usage
      | some next, [] => .ok { taken := [(spec, [])], pending := some next }
      | some next, d :: rest => do
        let more ← g.cluster next true (d :: rest)
        return { more with taken := (spec, []) :: more.taken }

/-- Adds options with their values, one after another. -/
def takeAll (p : Parsed) (taken : List (OptionSpec × List (List Char))) : Except Refusal Parsed :=
  taken.foldlM (fun p (spec, values) => p.takeOption spec values) p

/-- Adds what an option says, and gives back the arguments after it. -/
def readOption (g : Grammar) (p : Parsed) (spec : OptionSpec) (name : List Char)
    (attached : Option (List Char)) (rest : List Argument) :
    Except Refusal (Parsed × List Argument) := do
  let found ← match attached with
    | none => .ok { pending := some spec }
    | some text => g.cluster spec (name.drop 1 |>.head? |>.any (· != '-')) text
  match found.pending with
  | none => return (← takeAll p found.taken, rest)
  | some last =>
    if last.kind.hasValue then
      match rest with
      | ⟨text, .operand⟩ :: rest => return (← takeAll p (found.taken ++ [(last, [text])]), rest)
      | _ => .error .usage
    else return (← takeAll p (found.taken ++ [(last, [])]), rest)

/-- The number of separators at the front. -/
def separators (arguments : List Argument) : Nat :=
  (arguments.takeWhile fun a => match a.form with
    | .separator => true
    | _ => false).length

/-- Whether an operand is at the front. -/
def startsWithOperand (arguments : List Argument) : Bool :=
  match arguments with
  | ⟨_, .operand⟩ :: _ => true
  | _ => false

/-- How many arguments at the front make up an operand, separators included; none if it does not
stand there. -/
def operandLength? (arity : Arity) (arguments : List Argument) : Option Nat :=
  let front := separators arguments
  let rest := arguments.drop front
  if startsWithOperand rest then
    match arity with
    | .rest => some arguments.length
    | _ => some (front + 1 + separators (rest.drop 1))
  else if arity == .atMostOne then some front
  else none

/-- Adds the operands at the front, as many as stand there, and gives back those still to come and
the arguments after them. -/
def readOperands (p : Parsed) :
    List Operand → List Argument → Parsed × List Operand × List Argument
  | [], arguments => (p, [], arguments)
  | operand :: operands, arguments =>
    match operandLength? operand.arity arguments with
    | none => (p, operand :: operands, arguments)
    | some length =>
      let p := p.takeOperand operand ((arguments.take length).map Argument.text)
      readOperands p operands (arguments.drop length)

/-- Reads arguments: options where they stand, operands in between and at the end. Operands that
have to be given must not be missing. -/
def read (g : Grammar) : (fuel : Nat) → Parsed → List Operand → List Argument →
    Except Refusal Parsed
  | 0, _, _, _ => .error .usage
  | fuel + 1, p, operands, arguments =>
    if arguments.any fun a => a.form.isOption then
      match arguments with
      | ⟨_, .option spec name attached⟩ :: rest => do
        let (p, rest) ← g.readOption p spec name attached rest
        g.read fuel p operands rest
      | ⟨text, .unknownOption⟩ :: rest => g.read fuel (p.addExtra text) operands rest
      | arguments =>
        let (p, operands, rest) := readOperands p operands arguments
        if rest.length < arguments.length then g.read fuel p operands rest
        else
          match arguments with
          | a :: rest => g.read fuel (p.addExtra a.text) operands rest
          | [] => .ok p
    else
      let (p, operands, rest) := readOperands p operands arguments
      if operands.any fun operand => operand.arity != .atMostOne then .error .usage
      else .ok (rest.foldl (fun p a => p.addExtra a.text) p)

/-- What arguments say by a grammar. -/
def parse (g : Grammar) (arguments : List (List Char)) : Except Refusal Parsed := do
  let classified ← g.classify arguments
  g.read (arguments.length + 1) {} g.operands classified

end Grammar

end ServiceMap.CommandLine
