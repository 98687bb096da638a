import Landscape.Yaml.Resolution
import Landscape.Yaml.Token

/-!
# Nodes of a YAML text

The tokens of a text are put together to nodes. A node that is anchored may be named wherever it
comes later, also inside itself, so that nodes form a graph: they stand in an array and name each
other by their places. A text holds at most one document. Recursion is bounded by the number of
tokens.
-/

namespace Landscape.Yaml

/-- The place of a node. -/
abbrev NodeId := Nat

/-- What a node holds. -/
inductive Content where
  | scalar (text : Text)
  | list (items : List NodeId)
  | record (fields : List (NodeId × NodeId))
  deriving DecidableEq, Repr

/-- A node with its type. -/
structure Node where
  type : NodeType
  content : Content
  deriving DecidableEq, Repr

instance : Inhabited Node := ⟨.null, .scalar []⟩

/-- Nodes that name each other by their places. -/
abbrev Graph := Array Node

/-- The node at a place. -/
def Graph.node (g : Graph) (id : NodeId) : Node := g.getD id default

/-- The tokens still to be read, with the nodes and the names known so far. -/
structure Assembly where
  stream : TokenStream
  graph : Graph := #[]
  anchors : List (String × NodeId) := []
  handles : List (String × String) := []

/-- A step that reads tokens. -/
abbrev Assemble := StateT Assembly Attempt

namespace Assemble

/-- Give up: the text is malformed. -/
def refuse {α : Type} : Assemble α := throw .malformed

/-- The next token; where there is none, the failure that ended the tokens. -/
def peek : Assemble Token := do
  let stream := (← get).stream
  match stream.tokens, stream.failure with
  | t :: _, _ => return t
  | [], some e => throw (.failure e)
  | [], none => refuse

/-- Drop the next token. -/
def skip : Assemble Unit :=
  modify fun a => { a with stream := { a.stream with tokens := a.stream.tokens.drop 1 } }

/-- Take the next token if it is a given one. -/
def accept (t : Token) : Assemble Bool := do
  if (← peek) == t then
    skip
    return true
  else return false

/-- Take the next token, which has to be a given one. -/
def expect (t : Token) : Assemble Unit := do
  unless ← accept t do refuse

/-- Whether one of some tokens comes next. -/
def isAt (ts : List Token) : Assemble Bool := return ts.contains (← peek)

/-- A tag in full. -/
def meaning (t : Tag) : Assemble String := do
  match t.handle with
  | none => return t.suffix
  | some handle =>
    match (← get).handles.lookup handle with
    | some start => return start ++ t.suffix
    | none => refuse

/-- An anchor, if one comes next. -/
def anchor? : Assemble (Option String) := do
  match ← peek with
  | .anchor name => skip; return some name
  | _ => return none

/-- A tag, if one comes next. -/
def tag? : Assemble (Option Tag) := do
  match ← peek with
  | .tag t => skip; return some t
  | _ => return none

/-- What stands before a node: a name, and a tag in full. -/
structure Properties where
  anchor : Option String
  tag : Option String

/-- Whether there are any properties. -/
def Properties.any (p : Properties) : Bool := p.anchor.isSome || p.tag.isSome

/-- The type of a scalar; where its spelling decides, that of the usual type is not asked. -/
def Properties.scalarType (p : Properties) (plain : Bool) (text : Text) : NodeType :=
  match p.tag with
  | none => if plain then typeOfText text else .str
  | some tag => if tag == "!" then typeOfText text else .ofTag tag

/-- The type of a list or a record, with the one that it usually has. -/
def Properties.typeOr (p : Properties) (usual : NodeType) : NodeType :=
  match p.tag with
  | none => usual
  | some tag => if tag == "!" then usual else .ofTag tag

/-- The anchor and the tag before a node, in either order. -/
def properties : Assemble Properties := do
  let (anchor, tag) ←
    match ← anchor? with
    | some name => pure (some name, ← tag?)
    | none =>
      match ← tag? with
      | some tag => pure (← anchor?, some tag)
      | none => pure (none, none)
  match tag with
  | none => return ⟨anchor, none⟩
  | some tag => return ⟨anchor, some (← meaning tag)⟩

/-- Add a node, under its name if it has one; a name is given once. -/
def add (anchor : Option String) (node : Node) : Assemble NodeId := do
  let a ← get
  let id := a.graph.size
  let a := { a with graph := a.graph.push node }
  match anchor with
  | none => set a
  | some name =>
    if (a.anchors.lookup name).isSome then refuse
    set { a with anchors := (name, id) :: a.anchors }
  return id

/-- Add a scalar. -/
def addScalar (p : Properties) (plain : Bool) (text : Text) : Assemble NodeId :=
  add p.anchor ⟨p.scalarType plain text, .scalar text⟩

/-- Where nothing is written, there is an empty scalar. -/
def addEmpty : Assemble NodeId := addScalar ⟨none, none⟩ true []

/-- Complete a node with what it holds. -/
def complete (id : NodeId) (content : Content) : Assemble NodeId := do
  modify fun a => { a with graph := a.graph.modify id fun node => { node with content } }
  return id

/-- How deeply nodes may be nested. -/
def maxDepth : Nat := 490

/-- The depth inside a node. -/
def deeper (depth : Nat) : Assemble Nat := do
  if depth == 0 then throw (.failure (.tooDeep .node))
  return depth - 1

mutual

/-- A node; blocks are allowed or not, and so are items at the column of the record around it. -/
def node (block items : Bool) : (fuel depth : Nat) → Assemble NodeId
  | 0, _ => refuse
  | fuel + 1, depth => do
    match ← peek with
    | .alias name =>
      skip
      match (← get).anchors.lookup name with
      | some id => return id
      | none => refuse
    | _ => content block items (← properties) fuel (← deeper depth)
termination_by structural fuel _ => fuel

/-- A node after its properties. -/
def content (block items : Bool) (p : Properties) : (fuel depth : Nat) → Assemble NodeId
  | 0, _ => refuse
  | fuel + 1, depth => do
    let absent := if p.any then addScalar p true [] else refuse
    match ← peek with
    | .item =>
      if items then listOf p (itemsOf [.item, .key, .value, .blockEnd] fuel depth) else absent
    | .scalar text plain => skip; addScalar p plain text
    | .listOpen => skip; listOf p (flowItems true fuel depth)
    | .recordOpen => skip; recordOf p (flowFields true fuel depth)
    | .listBlock =>
      if block then
        listOf p do
          skip
          let found ← itemsOf [.item, .blockEnd] fuel depth
          expect .blockEnd
          return found
      else absent
    | .recordBlock =>
      if block then
        recordOf p do
          skip
          let found ← blockFields fuel depth
          expect .blockEnd
          return found
      else absent
    | _ => absent
termination_by structural fuel _ => fuel
where
  /-- A list with the items that a step reads. -/
  listOf (p : Properties) (items : Assemble (List NodeId)) : Assemble NodeId := do
    let id ← add p.anchor ⟨p.typeOr .seq, .list []⟩
    complete id (.list (← items))
  /-- A record with the fields that a step reads. -/
  recordOf (p : Properties) (fields : Assemble (List (NodeId × NodeId))) : Assemble NodeId := do
    let id ← add p.anchor ⟨p.typeOr .map, .record []⟩
    complete id (.record (← fields))

/-- A node, or an empty one before some tokens. -/
def nodeUnless (stops : List Token) (block items : Bool) : (fuel depth : Nat) → Assemble NodeId
  | 0, _ => refuse
  | fuel + 1, depth => do
    if ← isAt stops then addEmpty else node block items fuel depth
termination_by structural fuel _ => fuel

/-- The items of a list in a block. -/
def itemsOf (stops : List Token) : (fuel depth : Nat) → Assemble (List NodeId)
  | 0, _ => refuse
  | fuel + 1, depth => do
    if ← accept .item then
      let first ← nodeUnless stops true false fuel depth
      return first :: (← itemsOf stops fuel depth)
    else return []
termination_by structural fuel _ => fuel

/-- The fields of a record in a block. -/
def blockFields : (fuel depth : Nat) → Assemble (List (NodeId × NodeId))
  | 0, _ => refuse
  | fuel + 1, depth => do
    if ← accept .key then
      let stops := [.key, .value, .blockEnd]
      let name ← nodeUnless stops true true fuel depth
      let value ← if ← accept .value then nodeUnless stops true true fuel depth else addEmpty
      return (name, value) :: (← blockFields fuel depth)
    else return []
termination_by structural fuel _ => fuel

/-- The value of a field in brackets, if a colon comes next. -/
def flowValue (close : Token) : (fuel depth : Nat) → Assemble NodeId
  | 0, _ => refuse
  | fuel + 1, depth => do
    if ← accept .value then nodeUnless [.comma, close] false false fuel depth else addEmpty
termination_by structural fuel _ => fuel

/-- A field in brackets after the mark of its key. -/
def flowField (close : Token) : (fuel depth : Nat) → Assemble (NodeId × NodeId)
  | 0, _ => refuse
  | fuel + 1, depth => do
    let name ← nodeUnless [.value, .comma, close] false false fuel depth
    return (name, ← flowValue close fuel depth)
termination_by structural fuel _ => fuel

/-- The rest of a list in brackets. -/
def flowItems (first : Bool) : (fuel depth : Nat) → Assemble (List NodeId)
  | 0, _ => refuse
  | fuel + 1, depth => do
    if ← accept .listClose then return []
    unless first do expect .comma
    if ← accept .listClose then return []
    let item ←
      if ← accept .key then do
        let inner ← deeper depth
        let id ← add none ⟨.map, .record []⟩
        complete id (.record [← flowField .listClose fuel inner])
      else node false false fuel depth
    return item :: (← flowItems false fuel depth)
termination_by structural fuel _ => fuel

/-- The rest of a record in brackets. -/
def flowFields (first : Bool) : (fuel depth : Nat) → Assemble (List (NodeId × NodeId))
  | 0, _ => refuse
  | fuel + 1, depth => do
    if ← accept .recordClose then return []
    unless first do expect .comma
    if ← accept .recordClose then return []
    let field ←
      if ← accept .key then flowField .recordClose fuel depth
      else do
        let name ← node false false fuel depth
        pure (name, ← addEmpty)
    return field :: (← flowFields false fuel depth)
termination_by structural fuel _ => fuel

end

/-- The directives before a document: one version at most, and handles that are new. -/
def directives : (fuel : Nat) → (versions : Nat) → Assemble Unit
  | 0, _ => refuse
  | fuel + 1, versions => do
    match ← peek with
    | .directive d =>
      skip
      match d with
      | .version major =>
        if major != 1 || 0 < versions then refuse else directives fuel (versions + 1)
      | .handle name meaning =>
        let a ← get
        if (a.handles.lookup name).isSome then refuse
        else
          set { a with handles := (name, meaning) :: a.handles }
          directives fuel versions
      | .reserved => directives fuel versions
    | _ => return ()

/-- Drop marks that end documents. -/
def skipEnds : (fuel : Nat) → Assemble Unit
  | 0 => refuse
  | fuel + 1 => do
    if ← accept .documentEnd then skipEnds fuel

/-- The handles that every document knows. -/
def knownHandles : List (String × String) := [("!", "!"), ("!!", NodeType.standard)]

/-- The one document of a text, if there is any. -/
def document (fuel : Nat) : Assemble (Option NodeId) := do
  match ← peek with
  | .textEnd => return none
  | first =>
    let explicit := first matches .directive _ | .documentStart
    if explicit then
      directives fuel 0
      expect .documentStart
    modify fun a => { a with handles := a.handles ++ knownHandles }
    let isEmpty := (← peek) matches .directive _ | .documentStart | .documentEnd | .textEnd
    let id ← if explicit && isEmpty then addEmpty else node true false fuel maxDepth
    skipEnds fuel
    if ← accept .textEnd then return some id
    modify fun a => { a with handles := [] }
    directives fuel 0
    expect .documentStart
    refuse

end Assemble

/-- The nodes of a document, and its own node where it is not empty. -/
structure Composition where
  graph : Graph
  root : Option NodeId

/-- Put the tokens of a text together. -/
def Composition.ofTokens (stream : TokenStream) : Attempt Composition := do
  let (root, a) ← (Assemble.document (4 * stream.tokens.length + 8)).run { stream }
  return ⟨a.graph, root⟩

end Landscape.Yaml
