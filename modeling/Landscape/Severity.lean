import Landscape.Number.Binary

/-!
# Severities

How grave a finding is. Computed severities are exact ratios and are compared as such; a severity
that was given as a double keeps that double. Four bands order severities above zero.
-/

namespace Landscape

/-- How grave a finding is. -/
inductive Severity where
  | ratio (q : Rat)
  | given (x : Float)
  deriving DecidableEq

/-- The bands of severity. -/
inductive Level where
  | critical
  | high
  | medium
  | low
  | healthy
  deriving DecidableEq, Repr

namespace Level

/-- Every band, the gravest first. -/
def all : List Level := [.critical, .high, .medium, .low, .healthy]

/-- The name of a band. -/
def name : Level → String
  | .critical => "critical"
  | .high => "high"
  | .medium => "medium"
  | .low => "low"
  | .healthy => "healthy"

end Level

namespace Severity

/-- No severity at all. -/
def none : Severity := .ratio 0

/-- The double nearest to a severity. -/
def toFloat : Severity → Float
  | .ratio q => Number.ofRat q
  | .given x => x

/-- Whether one severity is less than another. -/
def lt : Severity → Severity → Bool
  | .ratio p, .ratio q => p < q
  | s, t => s.toFloat < t.toFloat

/-- The greater of two severities, the first unless the second is greater. -/
def max (s t : Severity) : Severity := if s.lt t then t else s

/-- Whether a severity is at least a ratio; a double is compared with the double nearest to it. -/
def atLeast (s : Severity) (bar : Rat) : Bool :=
  match s with
  | .ratio q => bar ≤ q
  | .given x => Number.ofRat bar ≤ x

/-- Whether there is any severity. -/
def isPositive (s : Severity) : Bool := none.lt s

/-- The band of a severity. -/
def level (s : Severity) : Level :=
  if s.atLeast 1 then .critical
  else if s.atLeast (7 / 10) then .high
  else if s.atLeast (3 / 10) then .medium
  else if s.isPositive then .low
  else .healthy

end Severity

end Landscape
