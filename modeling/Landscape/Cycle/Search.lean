import Landscape.Model

/-!
# Searching for a cycle

A depth-first search from each element in order, with an explicit stack. Every id is unvisited, in
progress while it is on the stack, or done. The first relation that leads back to an id in progress
ends the search, and the cycle is read off the parent links. Each step of the search is a function
of its state, so that what holds of all states can be said.
-/

namespace Landscape

/-- The ids that the relations of an id lead to, in order and with repetitions. -/
def Model.targets (m : Model) (id : Text) : List Text :=
  (m.relations.filter (·.source == id)).map (·.target)

namespace CycleSearch

/-- How far the search is with an id. -/
inductive Colour where
  | unvisited
  | inProgress
  | done
  deriving DecidableEq, Repr

/-- An id on the stack, with the targets that are still to be looked at. -/
structure Frame where
  id : Text
  pending : List Text
  deriving DecidableEq, Repr

/-- The state of the search; the top of the stack comes first. -/
structure State where
  colours : List (Text × Colour)
  parents : List (Text × Text)
  stack : List Frame
  starts : List Text
  deriving DecidableEq, Repr

namespace State

/-- The colour of an id. -/
def colour (s : State) (id : Text) : Colour := (s.colours.lookup id).getD .unvisited

/-- Colour an id. -/
def paint (s : State) (id : Text) (c : Colour) : State :=
  { s with colours := Entries.put s.colours id c }

/-- Put an id on the stack. -/
def push (m : Model) (s : State) (id : Text) : State :=
  { s.paint id .inProgress with stack := ⟨id, m.targets id⟩ :: s.stack }

/-- Follow the parent links back from an id until the target is reached; `fuel` bounds the links. -/
def pathFrom (parents : List (Text × Text)) (target : Text) :
    (fuel : Nat) → (id : Text) → (path : List Text) → List Text
  | 0, id, path => id :: path
  | fuel + 1, id, path =>
    if id == target then id :: path
    else
      match parents.lookup id with
      | some parent => pathFrom parents target fuel parent (id :: path)
      | none => id :: path

/-- The path along parent links from one id down to another. -/
def path (s : State) (first last : Text) : List Text :=
  pathFrom s.parents first s.parents.length last []

end State

/-- What a step of the search leads to. -/
inductive Outcome where
  | searching (s : State)
  | found (cycle : List Text)
  | acyclic
  deriving DecidableEq, Repr

/-- One step of the search. -/
def step (m : Model) (s : State) : Outcome :=
  match s.stack with
  | [] =>
    match s.starts with
    | [] => .acyclic
    | start :: starts =>
      let s := { s with starts }
      .searching (if s.colour start = .unvisited then s.push m start else s)
  | ⟨current, []⟩ :: below => .searching { s.paint current .done with stack := below }
  | ⟨current, target :: pending⟩ :: below =>
    let s := { s with stack := ⟨current, pending⟩ :: below }
    match s.colour target with
    | .inProgress => .found (s.path target current)
    | .unvisited =>
      .searching (State.push m { s with parents := Entries.put s.parents target current } target)
    | .done => .searching s

/-- The state in which the search begins. -/
def start (m : Model) : State := ⟨[], [], [], m.elements.map (·.id)⟩

/-- At most so many steps, fewer if the search ends. -/
def run (m : Model) : (steps : Nat) → State → Outcome
  | 0, s => .searching s
  | steps + 1, s =>
    match step m s with
    | .searching s => run m steps s
    | outcome => outcome

/--
Enough steps for every search: each element is a start once, each relation is looked at once, and
each id that is named anywhere leaves the stack once.
-/
def bound (m : Model) : Nat := 2 * (m.elements.length + m.relations.length) + 1

end CycleSearch

/-- The cycle that the search finds, its ids in the order of the relations between them. -/
def Model.findCycle (m : Model) : Option (List Text) :=
  match CycleSearch.run m (CycleSearch.bound m) (CycleSearch.start m) with
  | .found cycle => some cycle
  | _ => none

end Landscape
