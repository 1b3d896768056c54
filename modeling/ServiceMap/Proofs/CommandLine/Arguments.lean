import ServiceMap.CommandLine.Run
import ServiceMap.Proofs.Source.Fallible

/-!
# Arguments without options

Arguments that do not start with a dash are the name of a command and its operands.
-/

namespace ServiceMap.CommandLine

/-- An argument that can only be an operand. -/
def IsOperand (text : String) : Prop :=
  text.toList.head? ≠ some '-'

instance (text : String) : Decidable (IsOperand text) :=
  inferInstanceAs (Decidable (text.toList.head? ≠ some '-'))

theorem IsOperand.ne_separator {text : String} (h : IsOperand text) :
    (text.toList == ['-', '-']) = false :=
  beq_eq_false_iff_ne.mpr fun heq => h (by rw [heq]; rfl)

namespace Grammar

variable {texts : List String}

/-- Texts as arguments that are operands. -/
def operandsOf (texts : List String) : List Argument :=
  texts.map fun text => ⟨text.toList, .operand⟩

theorem formOf_of_isOperand (g : Grammar) {text : String} (h : IsOperand text) :
    g.formOf text.toList = .ok .operand := by
  unfold formOf
  split
  · rename_i heq
    exact absurd (by rw [heq]; rfl) h
  · rfl

theorem classify_of_isOperand (g : Grammar) (h : ∀ text ∈ texts, IsOperand text) :
    g.classify (texts.map String.toList) = .ok (operandsOf texts) := by
  induction texts with
  | nil => rfl
  | cons text texts ih =>
      obtain ⟨htext, htexts⟩ := List.forall_mem_cons.mp h
      rw [List.map_cons, classify, htext.ne_separator, g.formOf_of_isOperand htext, ih htexts]
      rfl

/-- Arguments without options are read as the operands that stand there. -/
theorem parse_of_isOperand (g : Grammar) (h : ∀ text ∈ texts, IsOperand text) {p : Parsed}
    (hread : readOperands {} g.operands (operandsOf texts) = (p, [], [])) :
    g.parse (texts.map String.toList) = .ok p := by
  have hnone : ((operandsOf texts).any fun a => a.form.isOption) = false := by
    simp [operandsOf, Form.isOption]
  rw [parse, g.classify_of_isOperand h, except_ok_bind, read.eq_def]
  simp [hnone, hread]

end Grammar

/-- The name of a command is read with all that stands after it. -/
theorem parse_mainGrammar {name : String} {rest : List String}
    (h : ∀ text ∈ name :: rest, IsOperand text) :
    mainGrammar.parse ((name :: rest).map String.toList)
      = .ok { values := [("command", (name :: rest).map String.toList)] } := by
  refine Grammar.parse_of_isOperand _ h ?_
  have hlength : Grammar.operandLength? .rest (Grammar.operandsOf (name :: rest))
      = some (Grammar.operandsOf (name :: rest)).length := rfl
  show Grammar.readOperands {} [⟨"command", .rest⟩] _ = _
  rw [Grammar.readOperands]
  dsimp only
  rw [hlength]
  dsimp only
  rw [List.take_length, List.drop_length, Grammar.readOperands]
  simp [Grammar.operandsOf, Parsed.takeOperand, Function.comp_def]

/-- The name of a command and operands make up an invocation of this command. -/
theorem ofArguments_of_isOperand {name : String} {rest : List String} {grammar : Grammar}
    {p : Parsed} (h : ∀ text ∈ name :: rest, IsOperand text)
    (hgrammar : commandGrammars.lookup name = some grammar)
    (hread : Grammar.readOperands {} grammar.operands (Grammar.operandsOf rest) = (p, [], []))
    (hextras : p.extras = []) :
    Invocation.ofArguments (name :: rest)
      = .ok { verbose := p.has "--verbose", command := commandOf name p } := by
  have hrest := grammar.parse_of_isOperand
    (fun text htext => h text (List.mem_cons_of_mem name htext)) hread
  rw [Invocation.ofArguments, parse_mainGrammar h, except_ok_bind]
  simp only [Parsed.last?, List.reverse_singleton, List.find?_singleton, List.map_cons]
  simp [hgrammar, hrest, except_ok_bind, hextras, Parsed.has, pathOf, Parsed.value, Parsed.last?,
    Given.filterMap]
  rfl

variable {path service : String}

/-- A path and the name of a service after `graph`. -/
theorem run_graph (s : Surroundings) (hpath : IsOperand path) (hservice : IsOperand service) :
    run s ["graph", path, service] = runCommand s false (.graph path (some service)) := by
  have hoperands : ∀ text ∈ ["graph", path, service], IsOperand text := by
    have hgraph : IsOperand "graph" := by decide
    simp [hgraph, hpath, hservice]
  have hread : Grammar.readOperands {} [⟨"path", .one⟩, ⟨"service", .one⟩]
      (Grammar.operandsOf [path, service])
      = ({ values := [("path", [path.toList]), ("service", [service.toList])] }, [], []) := by
    simp [Grammar.operandsOf, Grammar.readOperands, Grammar.operandLength?, Grammar.separators,
      Grammar.startsWithOperand, Parsed.takeOperand, hpath.ne_separator, hservice.ne_separator]
  have hinvocation := ofArguments_of_isOperand hoperands rfl hread rfl
  have hcommand : commandOf "graph"
      { values := [("path", [path.toList]), ("service", [service.toList])] }
        = .graph path (some service) := by
    simp [commandOf, textOf?, Parsed.value, Parsed.last?, Given.toOption]
  rw [run, hinvocation, hcommand]
  rfl

/-- A path after `analyze`. -/
theorem run_analyze (s : Surroundings) (hpath : IsOperand path) :
    run s ["analyze", path] = runCommand s false (.analyze path .json .nothing .nothing) := by
  have hoperands : ∀ text ∈ ["analyze", path], IsOperand text := by
    have hanalyze : IsOperand "analyze" := by decide
    simp [hanalyze, hpath]
  have hread : Grammar.readOperands {} [⟨"path", .atMostOne⟩] (Grammar.operandsOf [path])
      = ({ values := [("path", [path.toList])] }, [], []) := by
    simp [Grammar.operandsOf, Grammar.readOperands, Grammar.operandLength?, Grammar.separators,
      Grammar.startsWithOperand, Parsed.takeOperand, hpath.ne_separator]
  have hinvocation := ofArguments_of_isOperand hoperands rfl hread rfl
  have hcommand : commandOf "analyze" { values := [("path", [path.toList])] }
      = .analyze path .json .nothing .nothing := by
    simp [commandOf, textOf?, formatOf, pathOf, integerOf, Parsed.value, Parsed.last?,
      Given.toOption, Given.filterMap]
  rw [run, hinvocation, hcommand]
  rfl

end ServiceMap.CommandLine
