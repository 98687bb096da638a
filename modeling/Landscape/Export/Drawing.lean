import Landscape.Entries
import Landscape.Export.Palette
import Landscape.Finding
import Landscape.Model
import Landscape.Path

/-!
# Drawings of a layout

A drawing is what is to be drawn, without the drawing of it: an arrow for each relation whose ends
have positions, the elements with positions in groups by kind, their names, and the bands of severity
that occur.
-/

namespace Landscape

/-- A relation drawn as an arrow. -/
structure DrawnArrow where
  start : Point Float
  finish : Point Float
  color : String
  width : Float

/-- The elements of one kind, which share a marker. -/
structure DrawnGroup where
  kind : Kind
  points : List (Point Float)
  colors : List String

/-- What is to be drawn, and into which file. -/
structure Drawing where
  arrows : List DrawnArrow
  groups : List DrawnGroup
  names : List (Text × Point Float)
  levels : List Level
  title : Text
  path : Text
  format : Text
  resolution : Json

namespace Drawing

/-- How a drawing is made. -/
structure Style where
  title : Text := "Architecture Layout"
  /-- The dots per inch, of any kind of number. -/
  resolution : Json := .int 150
  showNames : Bool := true

/-- The positions of the elements that have one; the last of those with one id counts. -/
def positions (m : Model) : List (Text × Point Float) :=
  m.elements.foldl
    (fun found e =>
      match e.position with
      | some p => Entries.put found e.id p
      | none => found)
    []

/-- The arrow of a relation, if both its ends have positions; inside a cycle it is thick and red. -/
def arrow? (positions : List (Text × Point Float)) (cycle : List Text) (r : Relation) :
    Option DrawnArrow := do
  let start ← positions.lookup r.source
  let finish ← positions.lookup r.target
  return if cycle.contains r.source && cycle.contains r.target then
    ⟨start, finish, Palette.cycle, 3.0⟩
  else ⟨start, finish, Palette.relation, lineWidth r.weight⟩

/-- The group of a kind, if any element of it has a position. -/
def group? (positions : List (Text × Point Float)) (severities : List (Text × Severity))
    (m : Model) (kind : Kind) : Option DrawnGroup :=
  let members := m.elements.filterMap fun e =>
    if e.kind = kind then (positions.lookup e.id).map (e.id, ·) else none
  if members.isEmpty then none
  else
    some ⟨kind, members.map Prod.snd, members.map fun (id, _) => (severityOf severities id).color⟩

/-- The format of an image file, by its suffix. -/
def formatOf (path : Text) : Text :=
  let format := Text.lower ((Path.suffix path).dropWhile (· == .char '.'))
  if format.isEmpty then "png" else format

/-- The drawing of a model with its findings; a model without any position has none. -/
def ofModel (m : Model) (findings : List Finding) (path : Text) (style : Style := {}) :
    Except Error Drawing :=
  let positions := positions m
  if positions.isEmpty then .error .nothingPositioned
  else
    let severities := severities findings
    let occurring := positions.map fun (id, _) => (severityOf severities id).level
    .ok {
      arrows := m.relations.filterMap (arrow? positions (cycleElements findings))
      groups := Kind.all.filterMap (group? positions severities m)
      names :=
        if style.showNames then
          m.elements.filterMap fun e => (positions.lookup e.id).map (e.name, ·)
        else []
      levels := Level.all.filter (occurring.contains ·)
      title := style.title
      path := Path.normal path
      format := formatOf path
      resolution := style.resolution }

/-- Write a point. -/
private def pointJson (p : Point Float) : Json := .list [.float p.x, .float p.y]

/-- Write an arrow. -/
private def arrowJson (a : DrawnArrow) : Json :=
  .record [
    ("start", pointJson a.start), ("end", pointJson a.finish), ("color", .text a.color),
    ("linewidth", .float a.width)]

/-- Write a group. -/
private def groupJson (g : DrawnGroup) : Json :=
  .record [
    ("label", .text g.kind.name), ("marker", .text g.kind.marker),
    ("x", .list (g.points.map fun p => .float p.x)),
    ("y", .list (g.points.map fun p => .float p.y)),
    ("colors", .list (g.colors.map fun (color : String) => .text color))]

/-- Where the legends stand, by their titles. -/
def legends : List (Text × Text) := [("Type", "upper left"), ("Severity", "upper right")]

/-- Write a drawing as a document that a painter can follow. -/
def toJson (d : Drawing) : Json :=
  .record [
    ("edges", .list (d.arrows.map arrowJson)),
    ("groups", .list (d.groups.map groupJson)),
    ("labels", .list (d.names.map fun (name, p) => .list [.text name, pointJson p])),
    ("levels", .list (d.levels.map fun level => .list [.text level.name, .text level.color])),
    ("legends", .list (legends.map fun (title, place) => .list [.text title, .text place])),
    ("title", .text d.title),
    ("path", .text d.path),
    ("format", .text d.format),
    ("dpi", d.resolution)]

end Drawing

end Landscape
