import Landscape.Layout.Plan
import Landscape.Text.Classes
import Landscape.Thresholds

/-!
# Settings from the environment

Variables of the environment change how layouts are computed, which thresholds a detection starts
from and how much is logged. A variable that is blank counts as absent; the first that cannot be
read is the error.
-/

namespace Landscape

/-- The variables of an environment. -/
abbrev Environment := List (Text × Text)

/-- What can be set. -/
structure Settings where
  iterations : Int := 100
  learningRate : Float := 0.1
  area : Option Float := none
  seed : Option Int := none
  thresholds : Thresholds := {}
  logLevel : Text := "INFO"

namespace Settings

/-- What the name of every variable begins with. -/
def variablePrefix : String := "ARCHGRAPH_"

/-- What the variables are called after that. -/
def variableNames : List String :=
  ["LAYOUT_ITERATIONS", "LEARNING_RATE", "LAYOUT_AREA", "LAYOUT_SEED", "BOTTLENECK_THRESHOLD",
   "OVER_COUPLING_THRESHOLD", "DETECT_ISOLATED", "LOG_LEVEL"]

/-- The value of a variable without the blanks around it, if it is set. -/
def read {α : Type} (env : Environment) (name : String) (default : α)
    (convert : Text → Option α) : Except Error α :=
  let name := variablePrefix ++ name
  match env.lookup (Text.ofString name) with
  | none => .ok default
  | some raw =>
    let text := Text.trim raw
    if text.isEmpty then .ok default
    else
      match convert text with
      | some value => .ok value
      | none => .error (.invalid (.environment name raw))

/-- A truth value in one of four spellings, in any case. -/
def readFlag? (text : Text) : Option Bool :=
  let word := Text.lower text
  if (["1", "true", "yes", "on"] : List Text).contains word then some true
  else if (["0", "false", "no", "off"] : List Text).contains word then some false
  else none

/-- The settings that an environment makes. -/
def ofEnvironment (env : Environment) : Except Error Settings := do
  let initial : Settings := {}
  let iterations ← read env "LAYOUT_ITERATIONS" initial.iterations Number.readInt?
  let learningRate ← read env "LEARNING_RATE" initial.learningRate Number.readFloat?
  let area ← read env "LAYOUT_AREA" none fun text => (Number.readFloat? text).map some
  let seed ← read env "LAYOUT_SEED" none fun text => (Number.readInt? text).map some
  let bottleneck ←
    read env "BOTTLENECK_THRESHOLD" initial.thresholds.bottleneck Number.readInt?
  let overCoupling ←
    read env "OVER_COUPLING_THRESHOLD" initial.thresholds.overCoupling Number.readInt?
  let isolated ← read env "DETECT_ISOLATED" initial.thresholds.isolated readFlag?
  let logLevel ← read env "LOG_LEVEL" initial.logLevel fun text => some (Text.upper text)
  return {
    iterations, learningRate, area, seed, logLevel
    thresholds := { bottleneck, overCoupling, isolated } }

/-- The layout that settings ask for. -/
def request (s : Settings) : Layout.Request where
  iterations := .int s.iterations
  learningRate := .float s.learningRate
  area := s.area.map .float
  seed := s.seed

/-- The plan of the layout that settings ask for. -/
def plan (s : Settings) : Except Error Layout.Plan := Layout.Plan.ofRequest s.request

end Settings

end Landscape
