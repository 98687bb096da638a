import Landscape.Entries
import Landscape.Error
import Landscape.Severity

/-!
# Findings

What is found in an architecture: a smell, the elements it concerns, how grave it is, and what to do
about it. Findings are collected into severities by element and into a summary.
-/

namespace Landscape

/-- A structural smell of an architecture. -/
inductive Smell where
  | cycle
  | bottleneck
  | overCoupling
  | isolated
  deriving DecidableEq, Repr

namespace Smell

/-- Every smell, in order. -/
def all : List Smell := [.cycle, .bottleneck, .overCoupling, .isolated]

/-- The name of a smell. -/
def name : Smell → String
  | .cycle => "Cycle"
  | .bottleneck => "Bottleneck"
  | .overCoupling => "OverCoupling"
  | .isolated => "IsolatedComponent"

/-- The smell of a name. -/
def ofName? (t : Text) : Option Smell := all.find? (·.name == t)

/-- What to do about a smell. -/
def recommendation : Smell → String
  | .cycle =>
    "Break circular dependencies by introducing an interface, an event, "
      ++ "or by moving shared logic into a separate component."
  | .bottleneck =>
    "Reduce fan-in on heavily used components: add replicas, caching, "
      ++ "or split responsibilities across several services."
  | .overCoupling =>
    "Reduce fan-out of over-coupled components: introduce a facade or "
      ++ "orchestration layer, or split the component by responsibility."
  | .isolated =>
    "Connect or remove isolated components; they are either missing "
      ++ "relationships in the model or dead architecture."

/-- No smell is left out. -/
theorem mem_all (smell : Smell) : smell ∈ all := by cases smell <;> decide

end Smell

/-- A smell found at some elements. -/
structure Finding where
  smell : Smell
  elements : List Text
  severity : Severity
  degree : Option Int := none
  description : Text := []
  recommendation : Text := []
  deriving DecidableEq

namespace Finding

/-- The first element that a finding concerns. -/
def element (f : Finding) : Except Error Text :=
  match f.elements with
  | id :: _ => .ok id
  | [] => .error (.index .outOfRange)

/-- The degree that led to a finding, null where none is known. -/
private def degreeJson (f : Finding) : Json := (f.degree.map .int).getD .null

/-- Write a finding. -/
def toJson (f : Finding) : Except Error Json := do
  let subject : List (Text × Json) ←
    match f.smell with
    | .cycle => pure [("nodes", .list (f.elements.map .text))]
    | _ => do pure [("node_id", .text (← f.element))]
  let degree : List (Text × Json) :=
    match f.smell with
    | .bottleneck => [("in_degree", f.degreeJson)]
    | .overCoupling => [("out_degree", f.degreeJson)]
    | .cycle | .isolated => []
  let kind : List (Text × Json) := [("type", .text f.smell.name)]
  let account : List (Text × Json) :=
    [("severity", .float f.severity.toFloat), ("description", .text f.description)]
  let advice := if f.recommendation.isEmpty then none else some (Json.text f.recommendation)
  return .record <|
    kind ++ subject ++ degree ++ account ++ Json.fieldOf "recommendation" advice

end Finding

/-- The greatest severity of any finding at each element, in order of first mention. -/
def severities (findings : List Finding) : List (Text × Severity) :=
  findings.foldl
    (fun found f =>
      f.elements.foldl (fun found id => Entries.alter found id .none (·.max f.severity)) found)
    []

/-- The severity of an element. -/
def severityOf (severities : List (Text × Severity)) (id : Text) : Severity :=
  (severities.lookup id).getD .none

/-- The elements of the cycles among findings. -/
def cycleElements (findings : List Finding) : List Text :=
  (findings.filter (·.smell = .cycle)).flatMap (·.elements)

/-- The isolated elements among findings. -/
def isolatedElements (findings : List Finding) : Except Error (List Text) :=
  (findings.filter (·.smell = .isolated)).mapM (·.element)

/-- Findings in numbers. -/
structure Summary where
  total : Nat
  /-- The count of each smell, also of those that were not found. -/
  bySmell : List (Smell × Nat)
  affected : Nat
  greatest : Severity
  deriving DecidableEq

/-- The greatest of some severities, none if there are none. -/
def greatestSeverity : List Severity → Severity
  | [] => .none
  | s :: rest => rest.foldl Severity.max s

/-- Findings in numbers. -/
def summarize (findings : List Finding) : Summary where
  total := findings.length
  bySmell := Smell.all.map fun smell => (smell, findings.countP (·.smell = smell))
  affected := (severities findings).length
  greatest := greatestSeverity ((severities findings).map Prod.snd)

/-- What to do about findings: one recommendation for each smell among them. -/
def recommendations (findings : List Finding) : List String :=
  (Smell.all.filter fun smell => findings.any (·.smell = smell)).map Smell.recommendation

/-- Write a summary. -/
def Summary.toJson (s : Summary) : Json :=
  .record [
    ("total", .int s.total),
    ("by_type", .record (s.bySmell.map fun (smell, n) => (smell.name, .int n))),
    ("affected_nodes", .int s.affected),
    ("max_severity", .float s.greatest.toFloat)]

/-- Findings with their summary and recommendations. -/
structure Analysis where
  findings : List Finding
  summary : Summary
  recommendations : List String
  deriving DecidableEq

namespace Analysis

/-- Sum up findings. -/
def ofFindings (findings : List Finding) : Analysis :=
  ⟨findings, summarize findings, Landscape.recommendations findings⟩

/-- The findings of one smell. -/
def ofSmell (a : Analysis) (smell : Smell) : List Finding := a.findings.filter (·.smell = smell)

/-- Write an analysis. -/
def toJson (a : Analysis) : Except Error Json := do
  let findings ← a.findings.mapM Finding.toJson
  return .record [
    ("patterns", .list findings),
    ("count", .int a.findings.length),
    ("summary", a.summary.toJson),
    ("recommendations", .list (a.recommendations.map fun (r : String) => .text r))]

end Analysis

end Landscape
