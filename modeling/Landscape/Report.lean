import Landscape.Cycle.Listing
import Landscape.Detection
import Landscape.Interchange
import Landscape.Layout.Quality
import Landscape.Layout.Run

/-!
# Reports

Everything that was learned about a model in one document: the model, the configuration, the layout
and its quality where there is one, the analysis, and all cycles where they were asked for.
-/

namespace Landscape

/-- What was learned about a model. -/
structure Report where
  model : Model
  thresholds : Thresholds
  layout : Option (Layout.Outcome × Layout.Quality)
  analysis : Analysis
  cycles : Option (List (List Text))

namespace Report

/-- Write a report. -/
def toJson (r : Report) : Except Error Json := do
  let analysis ← r.analysis.toJson
  let cycles := r.cycles.map fun cycles => Json.list (cycles.map fun c => .list (c.map .text))
  let parts : List (Text × Json) := [
    ("model", r.model.toJson),
    ("config", r.thresholds.toJson),
    ("layout", (r.layout.map fun (outcome, _) => outcome.toJson).getD .null),
    ("layout_quality", (r.layout.map fun (_, quality) => quality.toJson).getD .null),
    ("anti_patterns", analysis)]
  return .record (parts ++ Json.fieldOf "all_cycles" cycles)

end Report

end Landscape
