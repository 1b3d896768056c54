import ServiceMap.Settings.Scalar
import ServiceMap.Settings.Scanner

/-!
# Nodes of documents

The nodes of a document, from its tokens. An alias stands for the node that an anchor has named, so
nodes may be shared, and a collection may even lie in itself: the nodes form a graph, in which they
are told by their numbers. Each function reads one construct at the front of the tokens; `fuel`
bounds the depth of calls by the number of tokens.
-/

namespace ServiceMap.Settings

/-- What a node is made of. -/
inductive Content where
  | scalar (text : List Char)
  | seq (items : List Nat)
  | map (members : List (Nat × Nat))
deriving DecidableEq, Repr

/-- A node of a document. -/
structure Node where
  kind : Kind
  content : Content
deriving DecidableEq, Repr

/-- The nodes of a document, by their numbers. -/
abbrev Graph := Array Node

/-- What handles of tags stand for. -/
abbrev Handles := List (List Char × List Char)

/-- The handles that need not be stated. -/
def commonHandles : Handles :=
  [(['!'], ['!']), (['!', '!'], Kind.tagStart.toList)]

/-- The state of reading nodes: the tokens that are left, the nodes so far, and the nodes that have
got names. -/
structure Reading where
  rest : List Token
  nodes : Graph := #[]
  anchors : List (List Char × Nat) := []

/-- A step of reading nodes. -/
abbrev Reads := StateT Reading (Except DocumentFault)

namespace Reads

/-- Gives up, as the text does not follow the rules. -/
def refuse {α : Type} : Reads α := throw .malformed

/-- The next token. Where none could be found, the reason counts. -/
def peek : Reads Token := do
  match (← get).rest with
  | .fault cause :: _ => throw cause
  | token :: _ => return token
  | [] => return .streamEnd

/-- Passes over a token. -/
def skip : Reads Unit :=
  modify fun r => { r with rest := r.rest.drop 1 }

/-- Whether the next token is one of the given ones. -/
def nextIs (these : List Token) : Reads Bool := do
  return these.contains (← peek)

/-- Passes over the next token if it is the given one; tells whether it was. -/
def accept (token : Token) : Reads Bool := do
  if (← peek) == token then
    skip
    return true
  else return false

/-- Adds a node; gives its number. -/
def add (node : Node) : Reads Nat := do
  let number := (← get).nodes.size
  modify fun r => { r with nodes := r.nodes.push node }
  return number

/-- Sets what a node is made of. -/
def setContent (number : Nat) (content : Content) : Reads Unit :=
  modify fun r => { r with nodes := r.nodes.modify number fun node => { node with content } }

/-- Adds what stands where nothing is written. -/
def addEmpty : Reads Nat :=
  add ⟨.null, .scalar []⟩

/-- Gives a node a name, if there is one for it. -/
def name (anchor? : Option (List Char)) (number : Nat) : Reads Nat := do
  match anchor? with
  | some anchor => modify fun r => { r with anchors := (anchor, number) :: r.anchors }
  | none => pure ()
  return number

/-- The node of a name. -/
def named (anchor : List Char) : Reads Nat := do
  match (← get).anchors.lookup anchor with
  | some number => return number
  | none => refuse

end Reads

open Reads

/-! ## What stands before a node -/

/-- What is stated about a node before it: its name and its tag in full. -/
structure Properties where
  anchor? : Option (List Char) := none
  tag? : Option (List Char) := none

/-- The tag that says nothing. -/
def openTag : List Char := ['!']

/-- A tag in full. -/
def fullTag (handles : Handles) (handle? : Option (List Char)) (text : List Char) :
    Reads (List Char) :=
  match handle? with
  | none => return text
  | some handle =>
    match handles.lookup handle with
    | some start => return start ++ text
    | none => refuse

/-- The name of a node, if one is stated next. -/
def readAnchor? : Reads (Option (List Char)) := do
  match ← peek with
  | .anchor name =>
    skip
    return some name
  | _ => return none

/-- The tag of a node, if one is stated next. -/
def readTag? : Reads (Option (Option (List Char) × List Char)) := do
  match ← peek with
  | .tag handle? text =>
    skip
    return some (handle?, text)
  | _ => return none

/-- What is stated about a node, in either order. -/
def readProperties (handles : Handles) : Reads Properties := do
  let anchor? ← readAnchor?
  let tag? ← readTag?
  let anchor? ← if anchor?.isNone && tag?.isSome then readAnchor? else pure anchor?
  match tag? with
  | some (handle?, text) => return ⟨anchor?, some (← fullTag handles handle? text)⟩
  | none => return ⟨anchor?, none⟩

namespace Properties

/-- Whether anything is stated. -/
def any (p : Properties) : Bool := p.anchor?.isSome || p.tag?.isSome

/-- The tag of a node, unless it says nothing. -/
def statedTag? (p : Properties) : Option (List Char) :=
  p.tag?.filter (· != openTag)

/-- The kind of a collection. -/
def kindOr (p : Properties) (kind : Kind) : Kind :=
  (p.statedTag?.map Kind.ofTag).getD kind

/-- The kind of a scalar. The form of a quoted one counts only where the tag says nothing. -/
def scalarKind (p : Properties) (text : List Char) (plain : Bool) : Kind :=
  match p.statedTag? with
  | some tag => Kind.ofTag tag
  | none => if plain || p.tag?.isSome then Kind.ofPlain text else .text

/-- Refuses a name that another node has got. -/
def checkName (p : Properties) : Reads Unit := do
  match p.anchor? with
  | some anchor => if ((← get).anchors.lookup anchor).isSome then refuse
  | none => pure ()

/-- Adds a scalar. -/
def addScalar (p : Properties) (text : List Char) (plain : Bool) : Reads Nat := do
  p.checkName
  name p.anchor? (← add ⟨p.scalarKind text plain, .scalar text⟩)

/-- Adds a collection, whose parts are still to be read. -/
def addCollection (p : Properties) (kind : Kind) (content : Content) : Reads Nat := do
  p.checkName
  name p.anchor? (← add ⟨p.kindOr kind, content⟩)

end Properties

/-! ## Nodes -/

/-- The most collections that may lie in each other. -/
def deepest : Nat := 487

mutual

/-- Reads a node, with `depth` collections left that it may lie in. `compact` allows a sequence
whose entries are not indented by more than the key they belong to. -/
def readNode (handles : Handles) (inBlock compact : Bool) (depth : Nat) : (fuel : Nat) → Reads Nat
  | 0 => refuse
  | fuel + 1 => do
    if depth == 0 then throw .tooDeep
    match ← peek with
    | .alias anchor =>
      skip
      named anchor
    | _ =>
      let p ← readProperties handles
      let collection := fun (kind : Kind) (empty : Content)
          (read : (depth : Nat) → Reads Content) => do
        let number ← p.addCollection kind empty
        setContent number (← read (depth - 1))
        return number
      match ← peek with
      | .scalar text plain =>
        skip
        p.addScalar text plain
      | .flowSequence =>
        collection .seq (.seq []) fun depth => do
          skip
          return .seq (← readFlowItems handles depth fuel true)
      | .flowMapping =>
        collection .map (.map []) fun depth => do
          skip
          return .map (← readFlowMembers handles depth fuel true)
      | token =>
        if compact && token == .blockEntry then
          collection .seq (.seq []) fun depth =>
            return .seq (← readEntries handles true depth fuel)
        else if inBlock && token == .blockSequence then
          collection .seq (.seq []) fun depth => do
            skip
            return .seq (← readEntries handles false depth fuel)
        else if inBlock && token == .blockMapping then
          collection .map (.map []) fun depth => do
            skip
            return .map (← readMembers handles depth fuel)
        else if p.any then p.addScalar [] true
        else refuse
termination_by structural fuel => fuel

/-- Reads the entries of a sequence in a block up to the end of the block; a compact sequence ends
where no entry follows. -/
def readEntries (handles : Handles) (compact : Bool) (depth : Nat) :
    (fuel : Nat) → Reads (List Nat)
  | 0 => refuse
  | fuel + 1 => do
    if ← accept .blockEntry then
      let empty ← nextIs (if compact then [.blockEntry, .key, .value, .blockEnd]
        else [.blockEntry, .blockEnd])
      let item ← if empty then addEmpty else readNode handles true false depth fuel
      return item :: (← readEntries handles compact depth fuel)
    else if compact then return []
    else if ← accept .blockEnd then return []
    else refuse
termination_by structural fuel => fuel

/-- Reads the members of a mapping in a block up to the end of the block. -/
def readMembers (handles : Handles) (depth : Nat) : (fuel : Nat) → Reads (List (Nat × Nat))
  | 0 => refuse
  | fuel + 1 => do
    let part := do
      if ← nextIs [.key, .value, .blockEnd] then addEmpty
      else readNode handles true true depth fuel
    if ← accept .key then
      let key ← part
      let value ← if ← accept .value then part else addEmpty
      return (key, value) :: (← readMembers handles depth fuel)
    else if ← accept .blockEnd then return []
    else refuse
termination_by structural fuel => fuel

/-- Reads the items of a sequence in flow style up to its closing bracket. An item may be a mapping
with a single member and no brackets of its own. -/
def readFlowItems (handles : Handles) (depth : Nat) : (fuel : Nat) → (first : Bool) →
    Reads (List Nat)
  | 0, _ => refuse
  | fuel + 1, first => do
    if ← accept .flowSequenceEnd then return []
    if !first then
      if !(← accept .flowEntry) then refuse
    if ← accept .key then
      let item ← add ⟨.map, .map []⟩
      let member ← readFlowMember handles .flowSequenceEnd (depth - 1) fuel
      setContent item (.map [member])
      return item :: (← readFlowItems handles depth fuel false)
    else if ← accept .flowSequenceEnd then return []
    else
      let item ← readNode handles false false depth fuel
      return item :: (← readFlowItems handles depth fuel false)
termination_by structural fuel => fuel

/-- Reads the members of a mapping in flow style up to its closing brace. -/
def readFlowMembers (handles : Handles) (depth : Nat) : (fuel : Nat) → (first : Bool) →
    Reads (List (Nat × Nat))
  | 0, _ => refuse
  | fuel + 1, first => do
    if ← accept .flowMappingEnd then return []
    if !first then
      if !(← accept .flowEntry) then refuse
    if ← accept .key then
      let member ← readFlowMember handles .flowMappingEnd depth fuel
      return member :: (← readFlowMembers handles depth fuel false)
    else if ← accept .flowMappingEnd then return []
    else
      let key ← readNode handles false false depth fuel
      let value ← addEmpty
      return (key, value) :: (← readFlowMembers handles depth fuel false)
termination_by structural fuel => fuel

/-- Reads a member in flow style whose key has been announced; `ending` closes the brackets around
it. -/
def readFlowMember (handles : Handles) (ending : Token) (depth : Nat) :
    (fuel : Nat) → Reads (Nat × Nat)
  | 0 => refuse
  | fuel + 1 => do
    let key ← if ← nextIs [.value, .flowEntry, ending] then addEmpty
      else readNode handles false false depth fuel
    if ← accept .value then
      let value ← if ← nextIs [.flowEntry, ending] then addEmpty
        else readNode handles false false depth fuel
      return (key, value)
    else return (key, ← addEmpty)
termination_by structural fuel => fuel

end

/-! ## Documents -/

/-- Reads the directives before a document: the handles that they state. Neither the version of the
rules nor a handle may be stated twice, and the version has to be one that is known. -/
def readDirectives : (fuel : Nat) → (versioned : Bool) → Handles → Reads Handles
  | 0, _, _ => refuse
  | fuel + 1, versioned, handles => do
    match ← peek with
    | .directive (.version major _) =>
      skip
      if versioned || major != 1 then refuse
      else readDirectives fuel true handles
    | .directive (.handle handle start) =>
      skip
      if (handles.lookup handle).isSome then refuse
      else readDirectives fuel versioned ((handle, start) :: handles)
    | .directive .other =>
      skip
      readDirectives fuel versioned handles
    | _ => return handles

/-- Passes over marks of the end of a document. -/
def skipEnds : (fuel : Nat) → Reads Unit
  | 0 => pure ()
  | fuel + 1 => do
    if ← accept .documentEnd then skipEnds fuel

/-- Reads what stands at the start of the only document: the number of its node, or none if there is
no document at all. -/
def readRoot (fuel : Nat) : Reads (Option Nat) := do
  let isDirective := match ← peek with
    | .directive _ => true
    | _ => false
  if !isDirective && !(← nextIs [.documentStart, .streamEnd]) then
    return some (← readNode commonHandles true false deepest fuel)
  else if ← accept .streamEnd then return none
  else
    let handles ← readDirectives fuel false []
    if !(← accept .documentStart) then refuse
    let empty := match ← peek with
      | .directive _ => true
      | token => [Token.documentStart, .documentEnd, .streamEnd].contains token
    if empty then return some (← addEmpty)
    else return some (← readNode (handles ++ commonHandles) true false deepest fuel)

/-- Reads the only document, after which nothing may follow. -/
def readAll (fuel : Nat) : Reads (Option Nat) := do
  let root ← readRoot fuel
  skipEnds fuel
  if ← nextIs [.streamEnd] then return root
  else
    let _ ← readDirectives fuel false []
    let _ ← peek
    refuse

/-- The nodes of a document's text, and the number of the first of them, if there is any. -/
def readGraph (text : List Char) : Except DocumentFault (Graph × Option Nat) := do
  let tokens := tokens text
  let (root, r) ← (readAll (4 * tokens.length + 4)).run { rest := tokens }
  return (r.nodes, root)

end ServiceMap.Settings
