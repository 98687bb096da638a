import Landscape.Json.Value
import Landscape.Text.Classes
import Landscape.Text.Case

/-!
# Elements and relations

The vertices of an architecture description are its elements, the arrows its relations. An element
may have a place in the plane; a relation names the elements at its ends, which need not exist.
-/

namespace Landscape

/-- A place in the plane, with coordinates of any kind of number. -/
structure Point (α : Type) where
  x : α
  y : α
  deriving DecidableEq

/-- What an element is. -/
inductive Kind where
  | system
  | container
  | component
  | person
  deriving DecidableEq, Repr

namespace Kind

/-- Every kind, in order. -/
def all : List Kind := [.system, .container, .component, .person]

/-- The name of a kind. -/
def name : Kind → String
  | .system => "System"
  | .container => "Container"
  | .component => "Component"
  | .person => "Person"

/-- The kind of a name, whatever its case and the blanks around it. -/
def ofName? (t : Text) : Option Kind :=
  let wanted := Text.lower (Text.trim t)
  all.find? fun kind => Text.lower kind.name == wanted

/-- No kind is left out. -/
theorem mem_all (kind : Kind) : kind ∈ all := by cases kind <;> decide

end Kind

/-- A part of an architecture: a system, a container, a component or a person. -/
structure Element where
  id : Text
  name : Text
  kind : Kind
  technology : Option Json := none
  description : Option Json := none
  position : Option (Point Float) := none
  deriving DecidableEq

/-- An arrow between two elements, which are named by their ids. -/
structure Relation where
  source : Text
  target : Text
  label : Option Json := none
  weight : Float := 1.0
  deriving DecidableEq

namespace Relation

/-- Whether both ends are the same element. -/
def isLoop (r : Relation) : Bool := r.source == r.target

/-- Whether a relation names an element. -/
def touches (r : Relation) (id : Text) : Bool := r.source == id || r.target == id

end Relation

end Landscape
