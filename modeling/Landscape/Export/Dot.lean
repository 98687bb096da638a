import Landscape.Detection
import Landscape.Export.Palette
import Landscape.Number.Written

/-!
# Graphs in the DOT language

Two exports of a model. The first colours each element by its severity and marks the relations of a
cycle; what was found is listed in comments at the end. The second pins each element to its
position. Texts of the model stand in double-quoted strings, in which a backslash and a quote are
preceded by a backslash.
-/

namespace Landscape.Dot

open Landscape.Number

/-- A symbol inside a quoted string. -/
def escapeSymbol (s : Symbol) : Text :=
  if s == .char '\\' || s == .char '"' then [.char '\\', s] else [s]

/-- A quoted string. -/
def quote (t : Text) : Text := .char '"' :: t.flatMap escapeSymbol ++ [.char '"']

/-- Lines, each ended by a line feed. -/
def unlines (lines : List Text) : Text := lines.flatMap (· ++ [.char '\n'])

/-- The text of a relation's label, whatever its size; one that is empty or zero counts as none. -/
def labelText (r : Relation) : Text :=
  match r.label with
  | some (.text t) => t
  | some label => if label.isTruthy then label.shown else []
  | none => []

/-- Check that a label counts as none, or is a text, or can be spelled. -/
def checkLabel : Option Json → Except Error Unit
  | some label => if label.isTruthy then do let _ ← label.asText else .ok ()
  | none => .ok ()

/-- Check every label of a model. -/
def checkLabels (m : Model) : Except Error Unit := forM m.relations fun r => checkLabel r.label

/-- What the findings say about elements. -/
structure Marks where
  severities : List (Text × Severity)
  cycle : List Text
  isolated : List Text

/-- The marks of findings. -/
def Marks.ofFindings (findings : List Finding) : Except Error Marks := do
  return {
    severities := Landscape.severities findings
    cycle := cycleElements findings
    isolated := ← isolatedElements findings }

/-- The line of an element, and a comment on its position and severity. -/
def elementLines (marks : Marks) (e : Element) : List Text :=
  let severity := severityOf marks.severities e.id
  let shown := fixed 2 severity.toFloat
  let style := if marks.isolated.contains e.id then "filled,dashed" else "filled"
  let tooltip := if severity.isPositive then ", tooltip=\"Severity: " ++ shown ++ "\"" else ""
  let line : Text :=
    "  " ++ quote e.id ++ " [label=" ++ quote e.name ++ ", fillcolor=\"" ++ severity.color
      ++ "\", shape=" ++ e.kind.shape ++ ", style=\"" ++ style ++ "\"" ++ tooltip ++ "];"
  match e.position with
  | some p =>
    [line, "  // Position: (" ++ fixed 2 p.x ++ ", " ++ fixed 2 p.y ++ "), Severity: " ++ shown]
  | none => if severity.isPositive then [line, "  // Severity: " ++ shown] else [line]

/-- The line of a relation; inside a cycle it is thick and red. -/
def relationLine (marks : Marks) (r : Relation) : Text :=
  let look : String :=
    if marks.cycle.contains r.source && marks.cycle.contains r.target then
      "penwidth=3, color=\"" ++ Palette.cycle ++ "\""
    else "penwidth=" ++ general (penWidth r.weight)
  "  " ++ quote r.source ++ " -> " ++ quote r.target ++ " [label=" ++ quote (labelText r) ++ ", "
    ++ look ++ "];"

/-- What was found, in a comment. -/
def findingText (f : Finding) : Except Error Text := do
  let severity := fixed 2 f.severity.toFloat
  let degree := (f.degree.map fun n => (toString n : String)).getD "None"
  match f.smell with
  | .cycle => return "Cycle: " ++ (Json.list (f.elements.map .text)).shown
  | .bottleneck =>
    return "Bottleneck: " ++ (← f.element) ++ " (in_degree=" ++ degree ++ ", severity=" ++ severity
      ++ ")"
  | .overCoupling =>
    return "Over-coupled: " ++ (← f.element) ++ " (out_degree=" ++ degree ++ ", severity="
      ++ severity ++ ")"
  | .isolated => return "Isolated: " ++ (← f.element)

/-- The comments on what was found, if anything was. -/
def findingLines (findings : List Finding) : Except Error (List Text) := do
  if findings.isEmpty then return []
  let texts ← findings.mapM findingText
  return [] :: "  // Anti-patterns detected:" :: texts.map fun text => "  // " ++ text

/-- The last line of a graph. -/
def closing : Text := "\x7d"

/-- The graph of a model with its findings. -/
def ofModel (m : Model) (findings : List Finding) : Except Error Text := do
  let marks ← Marks.ofFindings findings
  let comments ← findingLines findings
  let top : List Text :=
    ["digraph Architecture \x7b",
      "  rankdir=TB;",
      "  splines=curved;",
      "  node [style=filled, fontsize=10, fontcolor=\"" ++ Palette.font ++ "\"];",
      "  edge [penwidth=1.5];",
      ""]
  return unlines <|
    top ++ m.elements.flatMap (elementLines marks) ++ [[]]
      ++ m.relations.map (relationLine marks) ++ comments ++ [closing]

/-- Write the graph of a model with its findings, if every label can be spelled. -/
def render (m : Model) (findings : List Finding) : Except Error Text := do
  let _ ← Marks.ofFindings findings
  checkLabels m
  ofModel m findings

/-- The line of an element that is pinned to its position. -/
def pinnedLine (e : Element) : Text :=
  let pin : String :=
    match e.position with
    | some p => ", pos=\"" ++ fixed 2 p.x ++ "," ++ fixed 2 p.y ++ "!\""
    | none => ""
  "  " ++ quote e.id ++ " [label=" ++ quote e.name ++ ", shape=" ++ e.kind.shape ++ pin ++ "];"

/-- The line of a relation between pinned elements. -/
def linkLine (r : Relation) : Text :=
  "  " ++ quote r.source ++ " -- " ++ quote r.target ++ " [label=" ++ quote (labelText r) ++ "];"

/-- The graph of a model with its elements at their positions. -/
def pinned (m : Model) : Text :=
  let top : List Text :=
    ["graph Architecture \x7b",
      "  layout=neato;",
      "  node [style=filled, fixedsize=true, width=1.5, height=0.8, fontsize=10, fontcolor=\""
        ++ Palette.font ++ "\"];",
      ""]
  unlines <| top ++ m.elements.map pinnedLine ++ [[]] ++ m.relations.map linkLine ++ [closing]

/-- Write the graph of a model with its elements at their positions, if every label can be spelled. -/
def renderPinned (m : Model) : Except Error Text := do
  checkLabels m
  return pinned m

end Landscape.Dot
