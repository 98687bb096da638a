import Landscape.Finding
import Landscape.Layout.Quality
import Landscape.Layout.Run

/-!
# Reports on a terminal

Sections, tables and notes as text. A report may be coloured: what is coloured stands between two
control sequences, which count as characters where columns are measured.
-/

namespace Landscape

/-- The control sequences of a terminal. -/
inductive Ink where
  | reset
  | bold
  | red
  | green
  | yellow
  | blue
  | cyan
  | gray
  | header
  deriving DecidableEq, Repr

namespace Ink

/-- The control sequence itself. -/
def code : Ink → String
  | .reset => "\x1b[0m"
  | .bold => "\x1b[1m"
  | .red => "\x1b[91m"
  | .green => "\x1b[92m"
  | .yellow => "\x1b[93m"
  | .blue => "\x1b[94m"
  | .cyan => "\x1b[96m"
  | .gray => "\x1b[90m"
  | .header => "\x1b[95m"

/-- The names by which control sequences are asked for. -/
def names : List (Text × Ink) :=
  [("RESET", .reset), ("BOLD", .bold), ("RED", .red), ("GREEN", .green), ("YELLOW", .yellow),
   ("BLUE", .blue), ("CYAN", .cyan), ("GRAY", .gray), ("HEADER", .header)]

/-- The ink of a severity. -/
def ofSeverity (s : Severity) : Ink :=
  if s.atLeast 1 then .red
  else if s.atLeast (7 / 10) then .yellow
  else if s.atLeast (3 / 10) then .cyan
  else .gray

end Ink

namespace Console

/-- A text in some inks, if the report is coloured. -/
def inked (color : Bool) (text : Text) (inks : List Ink) : Text :=
  if color then String.join (inks.map Ink.code) ++ text ++ Ink.reset.code else text

/-- A line of a report. -/
def line (text : Text) : Text := text ++ [.char '\n']

/-- Lines of a report. -/
def lines (texts : List Text) : Text := texts.flatMap line

/-- A note that something went well. -/
def success (color : Bool) (message : Text) : Text :=
  line (inked color ("✓ " ++ message) [.green])

/-- A note of caution. -/
def warning (color : Bool) (message : Text) : Text :=
  line (inked color ("⚠ " ++ message) [.yellow])

/-- The same character so many times. -/
def rule (c : Char) (length : Nat) : Text := List.replicate length (.char c)

/-- The heading of a section. -/
def heading (color : Bool) (title : Text) : Text :=
  let rule := rule '=' (title.length + 4)
  line [] ++ line (inked color rule [.header])
    ++ line (inked color ("  " ++ title ++ "  ") [.header, .bold])
    ++ line (inked color rule [.header])

/-- A text filled up with blanks on the right. -/
def padRight (width : Nat) (text : Text) : Text := text ++ rule ' ' (width - text.length)

/-- Widen columns for the cells of a row. -/
def widen : (widths : List Nat) → (cells : List Text) → List Nat
  | w :: widths, c :: cells => max w c.length :: widen widths cells
  | widths, _ => widths

/-- The widths of the columns of a table. -/
def columnWidths (headers : List Text) (rows : List (List Text)) : List Nat :=
  rows.foldl widen (headers.map List.length)

/-- A row of a table. -/
def tableRow (widths : List Nat) (cells : List Text) : Text :=
  Text.joinWith " | " (widths.zipWith padRight cells)

/-- A table with a heading, each column as wide as its widest cell; without rows it is empty. -/
def table (color : Bool) (headers : List Text) (rows : List (List Text)) : Except Error Text :=
  if headers.isEmpty || rows.isEmpty then .ok []
  else if rows.any fun row => headers.length < row.length then .error (.index .outOfRange)
  else
    let widths := columnWidths headers rows
    let top := tableRow widths headers
    .ok <| line (inked color top [.bold])
      ++ line (rule '-' top.length)
      ++ lines (rows.map (tableRow widths))

/-- The report on a model. -/
def modelReport (color : Bool) (s : Model.Statistics) : Text :=
  let kinds := (s.kinds.map fun (kind, n) => (kind.name, n)).mergeSort fun a b => a.1 ≤ b.1
  let counts : String :=
    "  Nodes: " ++ toString s.elements ++ "    Edges: " ++ toString s.relations
  heading color "Architecture Model" ++ line counts
    ++ lines (kinds.map fun (name, n) => "    " ++ padRight 10 name ++ " " ++ (toString n : String))

/-- The numbers of a layout in words. -/
def layoutLines (steps : Int) (temperature milliseconds : Float) : List Text :=
  ["  Iterations:        " ++ toString steps,
    "  Final temperature: " ++ Number.fixed 4 temperature,
    "  Duration:          " ++ Number.fixed 1 milliseconds ++ " ms"]

/-- The numbers of a layout's quality in words. -/
def qualityLines (crossings : Int) (penalty score : Float) : List Text :=
  ["  Edge crossings:    " ++ toString crossings,
    "  Overlap penalty:   " ++ Number.fixed 3 penalty,
    "  Quality score:     " ++ Number.fixed 4 score]

/-- The report on a layout, and on its quality where that is known. -/
def layoutReport (color : Bool) (o : Layout.Outcome) (quality : Option Layout.Quality) : Text :=
  heading color "Layout"
    ++ lines (layoutLines o.iterations o.finalTemperature o.milliseconds)
    ++ lines ((quality.map fun q => qualityLines q.crossings q.penalty q.score).getD [])

/-- A cycle as a chain that ends where it began. -/
def chain (cycle : List Text) : Except Error Text :=
  match cycle with
  | [] => .error (.index .outOfRange)
  | first :: _ => .ok (Text.joinWith " -> " (cycle ++ [first]))

/-- The row of a finding. -/
def findingRow (color : Bool) (f : Finding) : Except Error (List Text) := do
  let elements ←
    match f.smell with
    | .cycle => chain f.elements
    | _ => f.element
  return [f.smell.name, elements,
    inked color (Number.fixed 2 f.severity.toFloat) [.ofSeverity f.severity], f.description]

/-- The report on all cycles. -/
def cycleReport (cycles : List (List Text)) : Except Error Text := do
  let chains ← cycles.mapM chain
  let count : String := "  All simple cycles: " ++ toString cycles.length
  return line [] ++ line count ++ lines (chains.map fun c => "    " ++ c)

/-- The list of recommendations, if there are any. -/
def recommendationReport (color : Bool) (recommendations : List String) : Text :=
  if recommendations.isEmpty then []
  else
    line [] ++ line (inked color "  Recommendations:" [.bold])
      ++ lines (recommendations.map fun (r : String) => "    • " ++ r)

/-- The report on an analysis, with all cycles where they were asked for. -/
def analysisReport (color : Bool) (a : Analysis) (cycles : Option (List (List Text))) :
    Except Error Text := do
  let top := heading color "Anti-Patterns"
  if a.findings.isEmpty then return top ++ success color "No anti-patterns detected"
  let rows ← a.findings.mapM (findingRow color)
  let findings ← table color ["Type", "Nodes", "Severity", "Description"] rows
  let cycles ←
    match cycles with
    | some cycles => cycleReport cycles
    | none => pure []
  return top ++ findings ++ cycles ++ recommendationReport color a.recommendations

end Console

end Landscape
