import Landscape.Cycle.Search
import Landscape.Finding
import Landscape.Thresholds

/-!
# Detection of smells

A model is searched for one cycle, and each of its elements is judged by how many relations lead to
it and from it. A degree that reaches its limit has a severity of degree over limit; a cycle has
severity one, an isolated element three tenths.
-/

namespace Landscape

namespace Model

/-- How many relations lead to an id. -/
def fanIn (m : Model) (id : Text) : Nat := m.relations.countP (·.target == id)

/-- How many relations lead from an id. -/
def fanOut (m : Model) (id : Text) : Nat := m.relations.countP (·.source == id)

end Model

namespace Finding

/-- The finding of a cycle. -/
def ofCycle (cycle : List Text) : Finding where
  smell := .cycle
  elements := cycle
  severity := .ratio 1
  description := "Circular dependency detected: " ++ toString cycle.length ++ " nodes"
  recommendation := Smell.cycle.recommendation

/-- The finding of an element that many relations lead to. -/
def ofFanIn (id : Text) (degree : Nat) (limit : Rat) : Finding where
  smell := .bottleneck
  elements := [id]
  severity := .ratio (degree / limit)
  degree := some degree
  description := "High fan-in: " ++ toString degree ++ " incoming edges"
  recommendation := Smell.bottleneck.recommendation

/-- The finding of an element that many relations lead from. -/
def ofFanOut (id : Text) (degree : Nat) (limit : Rat) : Finding where
  smell := .overCoupling
  elements := [id]
  severity := .ratio (degree / limit)
  degree := some degree
  description := "High fan-out: " ++ toString degree ++ " outgoing edges"
  recommendation := Smell.overCoupling.recommendation

/-- The finding of an element that no relation names. -/
def ofIsolated (id : Text) : Finding where
  smell := .isolated
  elements := [id]
  severity := .ratio (3 / 10)
  description := "No connections to other components"
  recommendation := Smell.isolated.recommendation

end Finding

namespace Model

/-- What the degrees of an element amount to. -/
def degreeFindings (m : Model) (limits : Limits) (id : Text) : List Finding :=
  let fanIn := m.fanIn id
  let fanOut := m.fanOut id
  ((limits.bottleneck.reachedBy fanIn).map (Finding.ofFanIn id fanIn)).toList
    ++ ((limits.overCoupling.reachedBy fanOut).map (Finding.ofFanOut id fanOut)).toList
    ++ (if limits.isolated && fanIn == 0 && fanOut == 0 then [Finding.ofIsolated id] else [])

/-- Everything found in a model: its cycle first, then its elements in order. -/
def detect (m : Model) (limits : Limits) : List Finding :=
  (m.findCycle.map Finding.ofCycle).toList
    ++ m.elements.flatMap fun e => m.degreeFindings limits e.id

/-- The analysis of a model. -/
def analyze (m : Model) (limits : Limits) : Analysis := .ofFindings (m.detect limits)

end Model

end Landscape
