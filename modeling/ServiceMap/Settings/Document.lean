import ServiceMap.Settings.Graph

/-!
# Documents

What the nodes of a document stand for. A mapping takes over the members of the mappings that stand
under its merge keys, as far as it does not have them itself; its own members come last, so that
they count. Scalars get their values in the order in which the collections around them come in the
document, level by level, and the first fault counts.
-/

namespace ServiceMap.Settings

/-- The state of giving values to nodes. -/
structure Evaluation where
  nodes : Graph
  /-- The values so far, by the numbers of nodes; empty ones stand for collections. -/
  values : Array (Option Value)
  /-- Collections whose parts have no values yet, in order. -/
  waiting : List Nat := []

/-- A step of giving values to nodes. -/
abbrev Evaluates := StateT Evaluation (Except DocumentFault)

namespace Evaluates

/-- Gives up, as the document does not follow the rules. -/
def refuse {α : Type} : Evaluates α := throw .malformed

/-- What a node is made of. -/
def content (number : Nat) : Evaluates Content := do
  match (← get).nodes[number]? with
  | some node => return node.content
  | none => refuse

/-- The kind of a node. -/
def kind (number : Nat) : Evaluates Kind := do
  match (← get).nodes[number]? with
  | some node => return node.kind
  | none => refuse

/-- The members of a mapping. -/
def members (number : Nat) : Evaluates (List (Nat × Nat)) := do
  match ← content number with
  | .map members => return members
  | _ => refuse

/-- Changes a node. -/
def change (number : Nat) (f : Node → Node) : Evaluates Unit :=
  modify fun e => { e with nodes := e.nodes.modify number f }

/-- Sets the value of a node. -/
def setValue (number : Nat) (value : Value) : Evaluates Unit :=
  modify fun e => { e with values := e.values.set! number (some value) }

/-- Lets a collection wait for the values of its parts. -/
def wait (number : Nat) : Evaluates Unit :=
  modify fun e => { e with waiting := e.waiting ++ [number] }

end Evaluates

open Evaluates

/-! ## Merging -/

/-- Takes the first merge key out of a mapping; gives the node under it. -/
def takeMerge? (number : Nat) : Evaluates (Option Nat) := do
  let members ← members number
  let kinds ← members.mapM fun (key, _) => kind key
  match kinds.findIdx? (· == .merge) with
  | some i =>
    change number fun node => { node with content := .map (members.eraseIdx i) }
    return (members[i]?).map Prod.snd
  | none => return none

/-- Makes keys for texts of keys that are to be read as texts. -/
def readDefaults (number : Nat) : Evaluates Unit := do
  for (key, _) in ← members number do
    if (← kind key) == .default then change key fun node => { node with kind := .text }

/-- Puts the members of merged mappings before those of a mapping itself. Of several mappings under
one key the first counts most. -/
def merge : (depth : Nat) → (number : Nat) → Evaluates Unit
  | 0, _ => throw .tooDeep
  | depth + 1, number => do
    let taken := fun (number : Nat) => do
      merge depth number
      members number
    let own ← members number
    let merged ← own.foldlM (fun (merged : List (Nat × Nat)) _ => do
      match ← takeMerge? number with
      | none => return merged
      | some source =>
        match ← content source with
        | .map _ => return merged ++ (← taken source)
        | .seq items => return merged ++ (← items.mapM taken).reverse.flatten
        | .scalar _ => refuse) []
    readDefaults number
    let own ← members number
    change number fun node => { node with content := .map (merged ++ own) }

/-! ## Values -/

/-- Whether a value may be a key. -/
def isKey : Value → Bool
  | .seq _ => false
  | .map _ => false
  | .set _ => false
  | _ => true

/-- The text that stands for a node: that of a scalar, or the one that a mapping keeps. -/
def textOf : (depth : Nat) → (number : Nat) → Evaluates (List Char)
  | 0, _ => throw .tooDeep
  | depth + 1, number => do
    match ← content number with
    | .scalar text => return text
    | .seq _ => refuse
    | .map members =>
      let kinds ← members.mapM fun (key, _) => kind key
      match kinds.findIdx? (· == .default) with
      | some i =>
        match members[i]? with
        | some (_, value) => textOf depth value
        | none => refuse
      | none => refuse

/-- The most steps from one node to another in merging and in looking for a text. -/
def longestWay : Nat := 2 * deepest

/-- The value of a node that is no collection. -/
def scalarValue (kind : Kind) (number : Nat) : Evaluates Value := do
  let text ← textOf longestWay number
  match kind, ← content number with
  | .date, .scalar text => kind.read text
  | .date, _ => throw (.scalar .dateInMapping)
  | _, _ => kind.read text

/-- Gives a value to a node unless it has got one. Collections wait for their parts. -/
def evaluate (number : Nat) : Evaluates Value := do
  match ((← get).values[number]?).join with
  | some value => return value
  | none =>
    let value ← match ← kind number with
      | .merge => refuse
      | .default => refuse
      | .unknown => refuse
      | .map => do
        wait number
        pure (Value.map [])
      | .set => do
        wait number
        pure (Value.set [])
      | .seq => do
        wait number
        pure (Value.seq [])
      | .pairs => do
        wait number
        pure (Value.seq [])
      | kind => scalarValue kind number
    setValue number value
    return value

/-- Gives values to the parts of members; what may be no key is refused. -/
def evaluateMembers (members : List (Nat × Nat)) : Evaluates Unit := do
  for (key, value) in members do
    if isKey (← evaluate key) then
      let _ ← evaluate value
    else refuse

/-- The only member of a mapping. -/
def onlyMember (number : Nat) : Evaluates (Nat × Nat) := do
  match ← members number with
  | [member] => return member
  | _ => refuse

/-- Gives values to the parts of a collection, which has to be of the kind that it is said to be. -/
def evaluateParts (number : Nat) : Evaluates Unit := do
  match ← kind number, ← content number with
  | .seq, .seq items =>
    for item in items do
      let _ ← evaluate item
  | .pairs, .seq items =>
    for item in items do
      let (key, value) ← onlyMember item
      let _ ← evaluate key
      let _ ← evaluate value
  | .map, .map _ =>
    merge longestWay number
    evaluateMembers (← members number)
  | .set, .map _ =>
    merge longestWay number
    evaluateMembers (← members number)
  | _, _ => refuse

/-- Gives values to the parts of waiting collections, the longest waiting first. -/
def evaluateWaiting : (fuel : Nat) → Evaluates Unit
  | 0 => pure ()
  | fuel + 1 => do
    match (← get).waiting with
    | [] => pure ()
    | number :: waiting =>
      modify fun e => { e with waiting }
      evaluateParts number
      evaluateWaiting fuel

/-- The value of a node with its parts down to a depth; there is nothing below. -/
def Evaluation.valueOf (e : Evaluation) : (depth : Nat) → (number : Nat) → Value
  | 0, _ => .null
  | depth + 1, number =>
    let memberOf := fun (member : Nat × Nat) =>
      (e.valueOf depth member.1, e.valueOf depth member.2)
    match e.nodes[number]? with
    | some ⟨.seq, .seq items⟩ => .seq (items.map (e.valueOf depth))
    | some ⟨.pairs, .seq items⟩ => .seq (items.map fun _ => .seq [])
    | some ⟨.map, .map members⟩ => .map (members.map memberOf)
    | some ⟨.set, .map members⟩ => .set (members.map fun member => (memberOf member).1)
    | _ => ((e.values[number]?).join).getD .null

/-- How deep settings lie in a document: a mapping, in it mappings and lists, and in those texts and
numbers. -/
def settingsDepth : Nat := 3

/-- The value of a document's text, down to the depth of settings. -/
def readDocument (text : List Char) : Except DocumentFault Value := do
  let (nodes, root?) ← readGraph text
  match root? with
  | none => return .null
  | some root =>
    let start : Evaluation := { nodes, values := Array.replicate nodes.size none }
    let all := do
      let _ ← evaluate root
      evaluateWaiting (nodes.size + 1)
    let (_, e) ← all.run start
    return e.valueOf settingsDepth root

end ServiceMap.Settings
