import Landscape.Entries
import Landscape.Yaml.Node
import Landscape.Yaml.Value

/-!
# From nodes to values

Every node becomes an object of its type once. A node without parts does so where it is met; one
with parts is met at first and filled later, in the order in which such nodes were met, so that
nodes may stand inside themselves. Before a record is filled, the fields that its merge keys bring
in are put before its own.
-/

namespace Landscape.Yaml

/-- What a node becomes. -/
inductive Object where
  | atom (a : Atom)
  | list (items : List NodeId)
  | pairs (items : List (NodeId × NodeId))
  | set (items : List Atom)
  | record (fields : List (Atom × NodeId))

/-- The nodes, what became of them, and those that are still to be filled. -/
structure Construction where
  graph : Graph
  objects : Array (Option Object)
  waiting : List NodeId := []

/-- A step of the construction. -/
abbrev Construct := StateT Construction Attempt

namespace Construct

/-- Give up: the text is malformed. -/
def refuse {α : Type} : Construct α := throw .malformed

/-- The node at a place. -/
def nodeAt (id : NodeId) : Construct Node := return (← get).graph.node id

/-- Change the node at a place. -/
def setNode (id : NodeId) (node : Node) : Construct Unit :=
  modify fun c => { c with graph := c.graph.setIfInBounds id node }

/-- Note what a node became. -/
def become (id : NodeId) (object : Object) : Construct Unit :=
  modify fun c => { c with objects := c.objects.setIfInBounds id (some object) }

/--
The text of a scalar; that of a record is the text of the field that holds its value, which may be
another record. A record that holds itself has none.
-/
def textOf : (fuel : Nat) → (id : NodeId) → Construct Text
  | 0, _ => throw (.failure (.tooDeep .node))
  | fuel + 1, id => do
    match (← nodeAt id).content with
    | .scalar text => return text
    | .list _ => refuse
    | .record fields =>
      let g := (← get).graph
      match fields.find? fun (name, _) => (g.node name).type = .value with
      | some (_, value) => textOf fuel value
      | none => refuse

/-- The text of a node, of which there are so many at most that can hold each other. -/
def scalarText (id : NodeId) : Construct Text := do textOf ((← get).graph.size + 1) id

/-- The date or the moment of a node, which must be a scalar itself. -/
def timeOf (id : NodeId) : Construct Atom := do
  let text ← scalarText id
  match (← nodeAt id).content with
  | .scalar _ => timeOfText text
  | _ => throw (.failure .timestampOfRecord)

/-- What becomes of a node at first, and whether it is to be filled later. -/
def beginning (id : NodeId) (type : NodeType) : Construct (Object × Bool) := do
  match type with
  | .null =>
    let _ ← scalarText id
    return (.atom (.scalar .null), false)
  | .bool => return (.atom (.scalar (.bool (← boolOfText (← scalarText id)))), false)
  | .int => return (.atom (.scalar (.int (← intOfText (← scalarText id)))), false)
  | .float => return (.atom (← floatOfText id (← scalarText id)), false)
  | .binary => return (.atom (.bytes (← bytesOfText (← scalarText id))), false)
  | .timestamp => return (.atom (← timeOf id), false)
  | .str => return (.atom (.text (← scalarText id)), false)
  | .seq => return (.list [], true)
  | .map => return (.record [], true)
  | .set => return (.set [], true)
  | .omap | .pairs => return (.pairs [], true)
  | .merge | .value | .unknown => refuse

/-- Meet a node: it becomes an object unless it is one already. -/
def meet (id : NodeId) : Construct Object := do
  match (← get).objects.getD id none with
  | some object => return object
  | none =>
    let (object, isOpen) ← beginning id (← nodeAt id).type
    become id object
    if isOpen then modify fun c => { c with waiting := c.waiting ++ [id] }
    return object

/-- Meet a node that names a field; only a node without parts can. -/
def meetName (id : NodeId) : Construct Atom := do
  match ← meet id with
  | .atom a => return a
  | _ => refuse

/-- The fields of a node, which has to be a record. -/
def fieldsOf (id : NodeId) : Construct (List (NodeId × NodeId)) := do
  match (← nodeAt id).content with
  | .record fields => return fields
  | _ => refuse

/-- Give a record other fields. -/
def setFields (id : NodeId) (fields : List (NodeId × NodeId)) : Construct Unit := do
  setNode id { ← nodeAt id with content := .record fields }

/-- Fields apart from the first that has a merge key, and the value of that one. -/
def takeMerge (g : Graph) : List (NodeId × NodeId) → Option (NodeId × List (NodeId × NodeId))
  | [] => none
  | (name, value) :: rest =>
    if (g.node name).type = .merge then some (value, rest)
    else (takeMerge g rest).map fun (merged, rest) => (merged, (name, value) :: rest)

/-- The names of fields that stood for a value of the record become texts. -/
def releaseNames (fields : List (NodeId × NodeId)) : Construct Unit :=
  fields.forM fun (name, _) => do
    let node ← nodeAt name
    if node.type = .value then setNode name { node with type := .str }

/--
Put the fields that merge keys bring in before the own ones; `merged` holds those found so far. A
merge key brings in the fields of a record, or of records in a list, of which the last come first.
Every merge key is taken away before its value is looked at, so that there are no more steps than
merge keys and records.
-/
def flatten : (fuel : Nat) → (id : NodeId) → (merged : List (NodeId × NodeId)) → Construct Unit
  | 0, _, _ => refuse
  | fuel + 1, id, merged => do
    let fields ← fieldsOf id
    match takeMerge (← get).graph fields with
    | none =>
      releaseNames fields
      unless merged.isEmpty do setFields id (merged ++ fields)
    | some (value, rest) =>
      setFields id rest
      let records ←
        match (← nodeAt value).content with
        | .record _ => pure [value]
        | .list items => pure items
        | .scalar _ => refuse
      let found ← records.mapM fun record => do
        flatten fuel record []
        fieldsOf record
      flatten fuel id (merged ++ found.reverse.flatten)

/-- Enough steps to flatten any record. -/
def flattenBound : Construct Nat := do
  let sizes := (← get).graph.toList.map fun node =>
    match node.content with
    | .record fields => fields.length
    | _ => 0
  return sizes.foldl (· + ·) 2

/-- The fields of a record, flattened; of those with one name the last wins, at the first place. -/
def recordFields (id : NodeId) : Construct (List (Atom × NodeId)) := do
  flatten (← flattenBound) id []
  let _ : BEq Atom := ⟨Atom.isSame⟩
  (← fieldsOf id).foldlM
    (fun found (name, value) => do
      let name ← meetName name
      let _ ← meet value
      return Entries.put found name value)
    []

/-- The items of a list. -/
def itemsOf (id : NodeId) : Construct (List NodeId) := do
  match (← nodeAt id).content with
  | .list items => return items
  | _ => refuse

/-- The pair of a record with one field. -/
def pairOf (id : NodeId) : Construct (NodeId × NodeId) := do
  match ← fieldsOf id with
  | [(name, value)] =>
    let _ ← meet name
    let _ ← meet value
    return (name, value)
  | _ => refuse

/-- Fill a node with its parts. -/
def fill (id : NodeId) : Construct Unit := do
  match (← nodeAt id).type with
  | .seq =>
    let items ← itemsOf id
    items.forM fun item => do
      let _ ← meet item
    become id (.list items)
  | .map => become id (.record (← recordFields id))
  | .set => become id (.set ((← recordFields id).map Prod.fst))
  | .omap | .pairs => become id (.pairs (← (← itemsOf id).mapM pairOf))
  | _ => return

/-- Fill all nodes that wait, each once. -/
def fillAll : (fuel : Nat) → Construct Unit
  | 0 => return
  | fuel + 1 => do
    match (← get).waiting with
    | [] => return
    | id :: waiting =>
      modify fun c => { c with waiting }
      fill id
      fillAll fuel

end Construct

/-- What a text says, as objects that name each other. -/
structure Document where
  objects : Array (Option Object)
  root : NodeId

namespace Document

/-- The document of a text without any node: it is null. -/
def empty : Document := ⟨#[some (.atom (.scalar .null))], 0⟩

/-- The document of some nodes. -/
def ofComposition (c : Composition) : Attempt Document :=
  match c.root with
  | none => .ok empty
  | some root => do
    let start : Construction := { graph := c.graph, objects := Array.replicate c.graph.size none }
    let steps : Construct Unit := do
      let _ ← Construct.meet root
      Construct.fillAll (c.graph.size + 1)
    let (_, finish) ← steps.run start
    return ⟨finish.objects, root⟩

/-- The document of some characters. -/
def ofChars (cs : List Char) : Attempt Document := do
  ofComposition (← Composition.ofTokens (← TokenStream.ofChars cs))

/-- What is at a place. -/
def object (d : Document) (id : NodeId) : Object :=
  (d.objects.getD id none).getD (.atom (.scalar .null))

/--
The value at a place; the places that it stands inside are given, and one of them is a loop. Each
step adds one to them, so that the number of objects bounds the steps.
-/
def valueFrom (d : Document) : (fuel : Nat) → (around : List NodeId) → NodeId → Value
  | 0, _, _ => default
  | fuel + 1, around, id =>
    let part := valueFrom d fuel (id :: around)
    let isLoop := around.contains id
    match d.object id with
    | .atom a => .atom a
    | .set items => .set items
    | .list items => if isLoop then .loop .square else .list (items.map part)
    | .pairs items =>
      if isLoop then .loop .square else .pairs (items.map fun (x, y) => (part x, part y))
    | .record fields =>
      if isLoop then .loop .curly else .record (fields.map fun (name, x) => (name, part x))

/-- The value at a place. -/
def valueAt (d : Document) (id : NodeId) : Value := d.valueFrom (d.objects.size + 1) [] id

/-- What the whole document says. -/
def value (d : Document) : Value := d.valueAt d.root

/-- The name of the type of a document. -/
def typeName (d : Document) : String :=
  match d.object d.root with
  | .atom a => a.typeName
  | .list _ | .pairs _ => "list"
  | .set _ => "set"
  | .record _ => "dict"

/-- Whether a document is null. -/
def isNull (d : Document) : Bool := d.object d.root matches .atom (.scalar .null)

/-- Whether a document is a record. -/
def isRecord (d : Document) : Bool := d.object d.root matches .record _

/-- The value of a named field of a record. -/
def field? (d : Document) (name : Text) : Option Value :=
  match d.object d.root with
  | .record fields => (fields.lookup (Atom.text name)).map d.valueAt
  | _ => none

end Document

end Landscape.Yaml
