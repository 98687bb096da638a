import Landscape.Element
import Landscape.Json.Conversion

/-!
# Plans of a layout

How a layout is to be computed: the number of steps, the size of the first step, the area of the
square that holds the elements, the distance at which they are at rest, and the seed of their first
positions. A plan is checked when it is made.
-/

namespace Landscape.Layout

/-- How a layout is to be computed. -/
structure Plan where
  iterations : Nat
  learningRate : Float
  area : Float
  idealDistance : Float
  seed : Option Int

/-- The area of the square when none is asked for. -/
def defaultArea : Float := 1000.0

/-- The distance at rest when no area is asked for. -/
def defaultDistance : Float := 1.0

/-- Whether a number is less than zero. -/
def isNegative : Json → Except Error Bool
  | .int n => .ok (n < 0)
  | .float x => .ok (x < 0)
  | .bool _ => .ok false
  | value => .error (.notComparable "<" value.typeName)

/-- Whether a number is zero or less. -/
def isNotPositive : Json → Except Error Bool
  | .int n => .ok (n ≤ 0)
  | .float x => .ok (x ≤ 0)
  | .bool b => .ok !b
  | value => .error (.notComparable "<=" value.typeName)

/-- A number without its fraction. -/
def wholeNumber : Json → Except Error Int
  | .int n => .ok n
  | .bool b => .ok (if b then 1 else 0)
  | .float x =>
    match Number.truncate? x with
    | some n => .ok n
    | none => .error (if x.isNaN then .nanToInteger else .infinityToInteger)
  | value => .error (.notConvertible value)

/-- What is asked of a layout, before it is checked. -/
structure Request where
  iterations : Json := .int 100
  learningRate : Json := .float 0.1
  area : Option Json := none
  seed : Option Int := none

namespace Plan

/-- The distance at rest in a square of a given area: the root of the area for each step. -/
def restDistance (area : Float) (iterations : Nat) : Except Error Float :=
  if iterations == 0 then .ok defaultDistance
  else
    match Number.ofInt? iterations with
    | some n => .ok (area / n).sqrt
    | none => .error .numberTooLarge

/-- The plan for a request; a negative count of steps or an area that is not positive is refused with
a message that has to spell it. -/
def ofRequest (r : Request) : Except Error Plan := do
  if ← isNegative r.iterations then
    let _ ← r.iterations.spell
    throw (.invalid (.iterations r.iterations))
  if let some area := r.area then
    if ← isNotPositive area then
      let _ ← area.spell
      throw (.invalid (.area area))
  let iterations := (← wholeNumber r.iterations).toNat
  let learningRate ← r.learningRate.toFloat
  match r.area with
  | none =>
    return {
      iterations, learningRate, area := defaultArea, idealDistance := defaultDistance
      seed := r.seed }
  | some area =>
    let area ← area.toFloat
    return {
      iterations, learningRate, area, idealDistance := ← restDistance area iterations
      seed := r.seed }

/-- The side of the square. -/
def side (p : Plan) : Float := p.area.sqrt

/-- The size of a step: the learning rate at first, falling evenly towards zero at the last. -/
def temperature (p : Plan) (step : Int) : Float :=
  if p.iterations == 0 then 0.0
  else p.learningRate * (1.0 - Number.ofRatio step p.iterations)

/-- What part of all steps lies before a step, which may be any number. -/
def share (p : Plan) : (step : Json) → Except Error Float
  | .int n => ofInt n
  | .bool b => ofInt (if b then 1 else 0)
  | .float x =>
    match Number.ofInt? p.iterations with
    | some n => .ok (x / n)
    | none => .error .numberTooLarge
  | value => .error (.notDivisible value.typeName)
where
  /-- The part before an exact number of steps. -/
  ofInt (n : Int) : Except Error Float :=
    let part := Number.ofRatio n p.iterations
    if part.isFinite then .ok part else .error .ratioTooLarge

/-- The size of a step, which may be any number. -/
def temperatureAt (p : Plan) (step : Json) : Except Error Float :=
  if p.iterations == 0 then .ok 0.0
  else return p.learningRate * (1.0 - (← p.share step))

/-- The size of the last step. -/
def finalTemperature (p : Plan) : Float :=
  if p.iterations == 0 then 0.0 else p.temperature ((p.iterations : Int) - 1)

end Plan

end Landscape.Layout
