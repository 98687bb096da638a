import Landscape.Element
import Landscape.Entries

/-!
# Models

A model is its elements and relations in the order in which they were declared, and perhaps the
matrix of relation weights. The matrix is a cache: declaring something drops it, and it counts as
built only while its side is the number of elements.
-/

namespace Landscape

/-- The rows of a square table of weights. -/
abbrev Matrix := List (List Float)

namespace Matrix

/-- The weight in a cell, zero outside. -/
def cell (m : Matrix) (i j : Nat) : Float := ((m[i]?).bind (·[j]?)).getD 0.0

/-- The matrix of zeros. -/
def zero (side : Nat) : Matrix := List.replicate side (List.replicate side 0.0)

/-- Write a cell. -/
def write (m : Matrix) (i j : Nat) (weight : Float) : Matrix := m.modify i (·.set j weight)

end Matrix

/-- An architecture: elements, relations, and the cached matrix of weights. -/
structure Model where
  elements : List Element := []
  relations : List Relation := []
  matrix : Option Matrix := none
  deriving DecidableEq

namespace Model

/-- Declare an element; the matrix is dropped. -/
def addElement (m : Model) (e : Element) : Model :=
  { m with elements := m.elements ++ [e], matrix := none }

/-- Declare a relation; the matrix is dropped. -/
def addRelation (m : Model) (r : Relation) : Model :=
  { m with relations := m.relations ++ [r], matrix := none }

/-- The ids of the elements, each with the place of the first element that has it. -/
def index (m : Model) : List (Text × Nat) :=
  m.elements.zipIdx.foldl (fun entries (e, i) => Entries.add entries e.id i) []

/-- The first element with an id. -/
def find? (m : Model) (id : Text) : Option Element := m.elements.find? (·.id == id)

/-- The cell of a relation: the places of its ends, if both are elements. -/
def cellOf? (m : Model) (r : Relation) : Option (Nat × Nat) := do
  let i ← m.index.lookup r.source
  let j ← m.index.lookup r.target
  return (i, j)

/-- Each relation's weight written into its cell, in order. -/
def weights (m : Model) : Matrix :=
  m.relations.foldl
    (fun matrix r =>
      match m.cellOf? r with
      | some (i, j) => matrix.write i j r.weight
      | none => matrix)
    (Matrix.zero m.elements.length)

/-- How many relations have an end that is no element. -/
def unresolved (m : Model) : Nat := m.relations.countP fun r => (m.cellOf? r).isNone

/-- Cache the matrix of weights; a model without elements has none. -/
def build (m : Model) : Model :=
  { m with matrix := if m.elements.isEmpty then none else some m.weights }

/-- The cached matrix, while its side is the number of elements. -/
def matrix? (m : Model) : Option Matrix := m.matrix.filter (·.length == m.elements.length)

/-- Whether the cached matrix can be used. -/
def hasMatrix (m : Model) : Bool := m.matrix?.isSome

/-- Change the first element with an id; nothing when there is none. -/
def update? (m : Model) (id : Text) (change : Element → Element) : Option Model :=
  (m.elements.findIdx? (·.id == id)).map fun i =>
    { m with elements := m.elements.modify i change }

/-- The elements that have a position. -/
def positioned (m : Model) : List Element := m.elements.filter (·.position.isSome)

/-- What a model amounts to in numbers. -/
structure Statistics where
  elements : Nat
  relations : Nat
  /-- The count of each kind that occurs, in order of first occurrence. -/
  kinds : List (Kind × Nat)
  positioned : Nat
  hasMatrix : Bool
  deriving DecidableEq

/-- The numbers of a model. -/
def statistics (m : Model) : Statistics where
  elements := m.elements.length
  relations := m.relations.length
  kinds := m.elements.foldl (fun counts e => Entries.alter counts e.kind 0 (· + 1)) []
  positioned := m.positioned.length
  hasMatrix := m.hasMatrix

/-- One line about a model. -/
def summary (m : Model) : String :=
  "GraphModel(nodes=" ++ toString m.elements.length ++ ", edges=" ++ toString m.relations.length
    ++ ", matrix=" ++ (if m.hasMatrix then "built" else "absent") ++ ")"

/--
The directed graph of a model: its vertices are the declared ids and then the ids that only
relations name, and relations with the same ends are one arc, which is as the last of them says.
-/
structure Digraph where
  vertices : List (Text × Option Element)
  arcs : List ((Text × Text) × Relation)

/-- The graph of a model. -/
def digraph (m : Model) : Digraph where
  vertices :=
    m.relations.foldl
      (fun vs r => Entries.add (Entries.add vs r.source none) r.target none)
      (m.elements.foldl (fun vs e => Entries.add vs e.id (some e)) [])
  arcs := m.relations.foldl (fun arcs r => Entries.put arcs (r.source, r.target) r) []

/-- The arcs that leave a vertex, in order of first appearance of their targets. -/
def Digraph.arcsFrom (g : Digraph) (id : Text) : List Relation :=
  (g.arcs.filter fun arc => arc.1.1 == id).map Prod.snd

/-- All arcs, grouped by their sources in the order of the vertices. -/
def Digraph.arcList (g : Digraph) : List Relation :=
  g.vertices.flatMap fun v => g.arcsFrom v.1

end Model

end Landscape
