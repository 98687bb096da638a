import Landscape.Element
import Landscape.Severity

/-!
# Shapes, markers and colours

How elements look in exports: the shape in a graph, the marker in a drawing and the colour of each
band of severity.
-/

namespace Landscape

/-- The shape of an element in an exported graph. -/
def Kind.shape : Kind → String
  | .system => "box3d"
  | .container => "component"
  | .component => "box"
  | .person => "ellipse"

/-- The marker of an element in a drawing. -/
def Kind.marker : Kind → String
  | .system => "D"
  | .container => "s"
  | .component => "p"
  | .person => "o"

/-- The colour of a band of severity. -/
def Level.color : Level → String
  | .critical => "#ff4444"
  | .high => "#ff8844"
  | .medium => "#ffcc44"
  | .low => "#cccccc"
  | .healthy => "#aaddaa"

/-- The colour of a severity. -/
def Severity.color (s : Severity) : String := s.level.color

namespace Palette

/-- The colour of relations inside a cycle. -/
def cycle : String := "#ff0000"

/-- The colour of all other relations. -/
def relation : String := "#555555"

/-- The colour of text. -/
def font : String := "#333333"

end Palette

/-- The width of the pen for a relation of a weight. -/
def penWidth (weight : Float) : Float := 1.0 + (weight - 1.0) * 0.5

/-- The width of a line for a relation of a weight, which is never too thin to see. -/
def lineWidth (weight : Float) : Float :=
  let width := penWidth weight
  if width < 0.5 then 0.5 else width

end Landscape
