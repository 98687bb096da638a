import Landscape.Interchange
import Landscape.Json.Printer
import Landscape.Json.Reader

/-!
# Editing a model

Elements and relations may be changed where they stand, and added and removed without dropping the
cached matrix. Places are counted from the beginning, negative ones from the end. Main statements:
an element that is pushed and popped leaves the model as it was.
-/

namespace Landscape

/-- The place that an index means in a list of a given length. -/
def resolveIndex? (length : Nat) (index : Int) : Option Nat :=
  let place := if index < 0 then index + length else index
  if 0 ≤ place && place < length then some place.toNat else none

/-- Minus one means the last place. -/
theorem resolveIndex?_neg_one (length : Nat) : resolveIndex? (length + 1) (-1) = some length := by
  have hn : (-1 : Int) < 0 := by decide
  have hp : (-1 : Int) + ((length + 1 : Nat) : Int) = (length : Int) := by omega
  have hi : (decide (0 ≤ (length : Int)) && decide ((length : Int) < ((length + 1 : Nat) : Int))) =
      true := by
    rw [Bool.and_eq_true, decide_eq_true_iff, decide_eq_true_iff]
    omega
  unfold resolveIndex?
  rw [if_pos hn, hp]
  exact if_pos hi

/-- Whether an integer of 64 bits holds an index. -/
def isMachineSized (index : Int) : Bool :=
  Int64.minValue.toInt ≤ index && index ≤ Int64.maxValue.toInt

/-- Why there is nothing to be taken out of a list. -/
def popFault {α : Type} (items : List α) (index : Int) : IndexFault :=
  if !isMachineSized index then .popTooFar
  else if items.isEmpty then .popFromEmpty
  else .popOutOfRange

/-- Take an item out of a list. -/
def popAt {α : Type} (items : List α) (index : Int) : Except Error (α × List α) :=
  match (resolveIndex? items.length index).bind fun i => (items[i]?).map (·, items.eraseIdx i) with
  | some found => .ok found
  | none => .error (.index (popFault items index))

namespace Model

/-- Add an element and keep the matrix. -/
def pushElement (m : Model) (e : Element) : Model := { m with elements := m.elements ++ [e] }

/-- Add a relation and keep the matrix. -/
def pushRelation (m : Model) (r : Relation) : Model := { m with relations := m.relations ++ [r] }

/-- Remove an element and keep the matrix. -/
def popElement (m : Model) (index : Int) : Except Error (Element × Model) := do
  let (e, elements) ← popAt m.elements index
  return (e, { m with elements })

/-- Remove a relation and keep the matrix. -/
def popRelation (m : Model) (index : Int) : Except Error (Relation × Model) := do
  let (r, relations) ← popAt m.relations index
  return (r, { m with relations })

/-- Move the first element with an id. -/
def move? (m : Model) (id : Text) (p : Point Float) : Option Model :=
  m.update? id fun e => { e with position := some p }

/-- Change the name of the first element with an id. -/
def rename? (m : Model) (id name : Text) : Option Model :=
  m.update? id fun e => { e with name }

/-- Change the id of the first element with an id. -/
def reidentify? (m : Model) (id newId : Text) : Option Model :=
  m.update? id fun e => { e with id := newId }

/-- Change the weight of a relation to the number that a value stands for; the matrix stays. -/
def reweigh (m : Model) (index : Int) (value : Json) : Except Error Model := do
  let weight ← value.toFloat
  match resolveIndex? m.relations.length index with
  | some i => return { m with relations := m.relations.modify i fun r => { r with weight } }
  | none => throw (.index (if isMachineSized index then .outOfRange else .tooFar))

/-- Write a model as a text and read it again; the matrix is gone. -/
def reload (m : Model) : Except Error Model :=
  match Json.read (Json.print .oneLine m.toJson) with
  | .ok d => ofJson d
  | .error (.refused cause) => .error cause
  | .error (.malformed cause) => .error (.malformed (.invalidJson [] cause.message))

/-- What was pushed last is popped first, and the model is as before, its matrix included. -/
theorem popElement_pushElement (m : Model) (e : Element) :
    (m.pushElement e).popElement (-1) = .ok (e, m) := by
  simp [popElement, pushElement, popAt, resolveIndex?_neg_one, List.eraseIdx_append_of_length_le,
    Bind.bind, Except.bind, Pure.pure, Except.pure]

end Model

end Landscape
