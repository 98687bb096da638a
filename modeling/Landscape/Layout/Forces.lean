import Landscape.Model

/-!
# Forces between elements

Any two elements repel each other with a force that falls with the square of their distance. A
relation of positive weight also pulls its source towards its target, and only its source. The order
of the operations is part of the definition, for sums of doubles depend on it.
-/

namespace Landscape.Layout

/-- Added to squared distances, so that elements at one place do not divide by zero. -/
def softening : Float := 0.01

/-- The push on an element away from another, or the pull towards it where it is negative. -/
def magnitude (rest squared weight : Float) : Float :=
  let attraction := if 0 < weight then squared / rest * weight else 0.0
  rest * rest / squared - attraction

/-- The force on an element at `p` from one at `q`; an element exerts none on itself. -/
def force (rest : Float) (same : Bool) (p q : Point Float) (weight : Float) : Point Float :=
  let dx := p.x - q.x
  let dy := p.y - q.y
  let squared := dx * dx + dy * dy + softening
  let distance := squared.sqrt
  let size := if same then 0.0 else magnitude rest squared weight
  ⟨dx / distance * size, dy / distance * size⟩

/-- The sum of the forces on the element at place `i`, from the first element to the last. -/
def netForce (rest : Float) (positions : List (Point Float)) (weights : Matrix) (i : Nat)
    (p : Point Float) : Point Float :=
  ((positions.zip (weights.getD i [])).zipIdx).foldl
    (fun sum ((q, weight), j) =>
      let f := force rest (i == j) p q weight
      ⟨sum.x + f.x, sum.y + f.y⟩)
    ⟨0.0, 0.0⟩

/-- The forces on all elements. -/
def displacement (rest : Float) (positions : List (Point Float)) (weights : Matrix) :
    List (Point Float) :=
  positions.zipIdx.map fun (p, i) => netForce rest positions weights i p

/-- Bring a coordinate into the square; what is not a number stays so. -/
def clamp (side x : Float) : Float :=
  let raised := if x < 0.0 then 0.0 else x
  if side < raised then side else raised

/-- Move a position along a force and keep it in the square. -/
def move (side temperature : Float) (p f : Point Float) : Point Float :=
  ⟨clamp side (p.x + f.x * temperature), clamp side (p.y + f.y * temperature)⟩

end Landscape.Layout
