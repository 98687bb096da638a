import Landscape.Layout.Forces
import Landscape.Layout.Generator
import Landscape.Layout.Plan

/-!
# Computing a layout

The elements start at random places of the square and follow the forces between them for the planned
number of steps. Positions are given to the elements only when all is done.
-/

namespace Landscape.Layout

/-- Pair up coordinates. -/
def pairUp : List Float → List (Point Float)
  | x :: y :: rest => ⟨x, y⟩ :: pairUp rest
  | _ => []

/-- The first positions: each coordinate is a random part of the side. -/
def initialPositions (seed count : Nat) (side : Float) : List (Point Float) :=
  pairUp (((Generator.ofSeed seed).take (2 * count)).map fun d => 0.0 + side * d)

/-- One step of the simulation. -/
def step (plan : Plan) (weights : Matrix) (t : Nat) (positions : List (Point Float)) :
    List (Point Float) :=
  let forces := displacement plan.idealDistance positions weights
  positions.zipWith (move plan.side (plan.temperature t)) forces

/-- The positions after all steps. -/
def simulate (plan : Plan) (weights : Matrix) (positions : List (Point Float)) :
    List (Point Float) :=
  (List.range plan.iterations).foldl (fun positions t => step plan weights t positions) positions

/-- What a layout amounts to in numbers. -/
structure Outcome where
  iterations : Nat
  finalTemperature : Float
  /-- How long the layout took; one that is computed as a value takes no time. -/
  milliseconds : Float
  elements : Nat
  relations : Nat

/-- Write the numbers of a layout. -/
def Outcome.toJson (o : Outcome) : Json :=
  .record [
    ("iterations", .int o.iterations),
    ("final_temperature", .float o.finalTemperature),
    ("duration_ms", .float o.milliseconds),
    ("node_count", .int o.elements),
    ("edge_count", .int o.relations)]

/-- The seed of a plan, or the given one if the plan leaves it open. -/
def Plan.seedOr (plan : Plan) (fallback : Nat) : Except Error Nat :=
  match plan.seed with
  | none => .ok fallback
  | some seed => if seed < 0 then .error .negativeSeed else .ok seed.toNat

/-- The positions that a layout of a model computes; the log has to spell the number of steps. -/
def positionsOf (plan : Plan) (fallback : Nat) (m : Model) : Except Error (List (Point Float)) := do
  if m.elements.isEmpty then throw .emptyModel
  let weights ←
    match m.matrix? with
    | some weights => pure weights
    | none => throw .matrixNotBuilt
  let _ ← Number.spell plan.iterations
  let seed ← plan.seedOr fallback
  if !plan.side.isFinite then throw .unboundedSquare
  return simulate plan weights (initialPositions seed m.elements.length plan.side)

/-- Give each element its position. -/
def place (m : Model) (positions : List (Point Float)) : Model :=
  { m with elements := m.elements.zipWith (fun e p => { e with position := some p }) positions }

/-- Lay out a model. -/
def run (plan : Plan) (fallback : Nat) (m : Model) : Except Error (Model × Outcome) := do
  let positions ← positionsOf plan fallback m
  return (place m positions, {
    iterations := plan.iterations
    finalTemperature := plan.finalTemperature
    milliseconds := 0.0
    elements := m.elements.length
    relations := m.relations.length })

end Landscape.Layout
