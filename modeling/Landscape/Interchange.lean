import Landscape.Json.Conversion
import Landscape.Model

/-!
# The interchange format

A model travels as a JSON object with the arrays `nodes` and `edges`. Reading checks each entry in
order and stops at the first that is malformed; writing adds the two counts.
-/

namespace Landscape

/-- Refuse a value; the message has to spell it. -/
def refuse {α : Type} (d : Json) (cause : Malformed) : Except Error α := do
  let _ ← d.spell
  throw (.malformed cause)

/-- Refuse the value that was being read when a conversion to a number fails. -/
private def orRefuse {α : Type} (d : Json) (cause : Malformed) : Except Error α → Except Error α
  | .error (.notConvertible _) => refuse d cause
  | outcome => outcome

/-- The fields of a record; anything else is refused as the given part. -/
def Part.fields (part : Part) (d : Json) : Except Error Unit :=
  match d with
  | .record _ => .ok ()
  | _ => .error (.malformed (.notAnObject part d.typeName))

/-- A field that an entry must have. -/
def Part.required (part : Part) (d : Json) (key : String) : Except Error Json :=
  match d.given? key with
  | some v => .ok v
  | none => .error (.malformed (.missingField part key))

/-- The kind that a value names. -/
def Kind.ofJson (d : Json) : Except Error Kind := do
  match Kind.ofName? (← d.asText) with
  | some kind => return kind
  | none => refuse d (.unknownKind d)

namespace Element

/-- Read the name of an element; without one it goes by its id. -/
def nameOfJson (id : Text) (d : Json) : Except Error Text :=
  match d.get? "name" with
  | some name => if name.isTruthy then name.asText else .ok id
  | none => .ok id

/-- Read the position of an element: two values that stand for numbers. -/
def positionOfJson (id : Text) (d : Json) : Except Error (Point Float) :=
  orRefuse d (.badPosition id d) <|
    match d.pair? with
    | none => .error (.notConvertible d)
    | some (x, y) => do return ⟨← x.toFloat, ← y.toFloat⟩

/-- Read an element. -/
def ofJson (d : Json) : Except Error Element := do
  Part.node.fields d
  let id ← Part.node.required d "id"
  let kind ← Part.node.required d "type"
  let id ← id.asText
  let name ← nameOfJson id d
  let kind ← Kind.ofJson kind
  let position ←
    match d.given? "position" with
    | some position => some <$> positionOfJson id position
    | none => pure none
  return {
    id, name, kind, position
    technology := d.given? "technology"
    description := d.given? "description" }

/-- Write an element; what it lacks is left out. -/
def toJson (e : Element) : Json :=
  let always : List (Text × Json) :=
    [("id", .text e.id), ("name", .text e.name), ("type", .text e.kind.name)]
  .record <|
    always ++ Json.fieldOf "technology" e.technology
      ++ Json.fieldOf "description" e.description
      ++ Json.fieldOf "position" (e.position.map fun p => .list [.float p.x, .float p.y])

end Element

namespace Relation

/-- Read a relation; its weight is one unless given. -/
def ofJson (d : Json) : Except Error Relation := do
  Part.edge.fields d
  let source ← Part.edge.required d "from"
  let target ← Part.edge.required d "to"
  let weight ←
    match d.given? "weight" with
    | some weight => orRefuse weight (.badWeight weight) weight.toFloat
    | none => pure 1.0
  return {
    source := ← source.asText
    target := ← target.asText
    label := d.given? "label"
    weight }

/-- Write a relation. -/
def toJson (r : Relation) : Json :=
  .record [("from", .text r.source), ("to", .text r.target), ("label", r.label.getD .null),
    ("weight", .float r.weight)]

end Relation

namespace Model

/-- The entries of an array that a model must have. -/
def arrayOfJson (d : Json) (key : String) : Except Error (List Json) :=
  match d.get? key with
  | none => .error (.malformed (.missingArray key))
  | some (.list entries) => .ok entries
  | some _ => .error (.malformed (.notAnArray key))

/-- Read a model. -/
def ofJson (d : Json) : Except Error Model := do
  Part.model.fields d
  let nodes ← arrayOfJson d "nodes"
  let edges ← arrayOfJson d "edges"
  let elements ← nodes.mapM Element.ofJson
  let relations ← edges.mapM Relation.ofJson
  return { elements, relations }

/-- Write a model. -/
def toJson (m : Model) : Json :=
  .record [
    ("nodes", .list (m.elements.map Element.toJson)),
    ("edges", .list (m.relations.map Relation.toJson)),
    ("node_count", .int m.elements.length),
    ("edge_count", .int m.relations.length)]

end Model

end Landscape
