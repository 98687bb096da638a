import Landscape.Text.Symbol

/-!
# JSON values

Documents carry values whose shape is not known beforehand: scalars, lists, and records whose fields
keep their order. Integers and doubles are kept apart.
-/

namespace Landscape

/-- A value without parts. -/
inductive Scalar where
  | null
  | bool (b : Bool)
  | int (n : Int)
  | float (x : Float)
  | text (t : Text)
  deriving DecidableEq

/-- A JSON value. -/
inductive Json where
  | scalar (s : Scalar)
  | list (items : List Json)
  | record (fields : List (Text × Json))

namespace Json

@[match_pattern] abbrev null : Json := .scalar .null
@[match_pattern] abbrev bool (b : Bool) : Json := .scalar (.bool b)
@[match_pattern] abbrev int (n : Int) : Json := .scalar (.int n)
@[match_pattern] abbrev float (x : Float) : Json := .scalar (.float x)
@[match_pattern] abbrev text (t : Text) : Json := .scalar (.text t)

instance : Inhabited Json := ⟨.null⟩

mutual

/-- Whether two values are the same, field order included. -/
protected def decEq : (a b : Json) → Decidable (a = b)
  | .scalar s, .scalar t => decidable_of_iff (s = t) (by simp)
  | .list xs, .list ys =>
    match Json.decEqList xs ys with
    | isTrue h => isTrue (by rw [h])
    | isFalse h => isFalse (by simpa using h)
  | .record fs, .record gs =>
    match Json.decEqFields fs gs with
    | isTrue h => isTrue (by rw [h])
    | isFalse h => isFalse (by simpa using h)
  | .scalar _, .list _ | .scalar _, .record _ | .list _, .scalar _ | .list _, .record _
  | .record _, .scalar _ | .record _, .list _ => isFalse (by simp)

/-- Whether two lists of values are the same. -/
protected def decEqList : (xs ys : List Json) → Decidable (xs = ys)
  | [], [] => isTrue rfl
  | [], _ :: _ | _ :: _, [] => isFalse (by simp)
  | x :: xs, y :: ys =>
    match Json.decEq x y, Json.decEqList xs ys with
    | isTrue h, isTrue hs => isTrue (by rw [h, hs])
    | isFalse h, _ => isFalse (by simp [h])
    | _, isFalse h => isFalse (by simp [h])

/-- Whether two lists of fields are the same. -/
protected def decEqFields :
    (fs gs : List (Text × Json)) → Decidable (fs = gs)
  | [], [] => isTrue rfl
  | [], _ :: _ | _ :: _, [] => isFalse (by simp)
  | (k, x) :: fs, (l, y) :: gs =>
    match decEq k l, Json.decEq x y, Json.decEqFields fs gs with
    | isTrue hk, isTrue h, isTrue hs => isTrue (by rw [hk, h, hs])
    | isFalse h, _, _ => isFalse (by simp [h])
    | _, isFalse h, _ => isFalse (by simp [h])
    | _, _, isFalse h => isFalse (by simp [h])

end

instance : DecidableEq Json := Json.decEq

/-- The value of a named field, if the value is a record that has it. -/
def get? (d : Json) (name : Text) : Option Json :=
  match d with
  | .record fields => fields.lookup name
  | _ => none

/-- A named field that is present and not null. -/
def given? (d : Json) (name : Text) : Option Json :=
  match d.get? name with
  | some .null | none => none
  | some v => some v

/-- A field with a value, if there is a value. -/
def fieldOf (name : Text) (value : Option Json) : List (Text × Json) :=
  (value.map (name, ·)).toList

/-- Whether a value counts as true: null, zero and everything empty do not. -/
def isTruthy : Json → Bool
  | .null => false
  | .bool b => b
  | .int n => n != 0
  | .float x => x != 0
  | .text t => !t.isEmpty
  | .list items => !items.isEmpty
  | .record fields => !fields.isEmpty

/-- The name of a value's type in messages. -/
def typeName : Json → String
  | .null => "NoneType"
  | .bool _ => "bool"
  | .int _ => "int"
  | .float _ => "float"
  | .text _ => "str"
  | .list _ => "list"
  | .record _ => "dict"

mutual

/--
Whether two values are equal as far as their numbers compare equal: not-a-number differs from
itself.
-/
def agrees : Json → Json → Bool
  | .scalar (.float x), .scalar (.float y) => x == y
  | .scalar s, .scalar t => s == t
  | .list xs, .list ys => agreesList xs ys
  | .record fs, .record gs => agreesFields fs gs
  | _, _ => false

/-- Whether two lists agree item by item. -/
def agreesList : List Json → List Json → Bool
  | [], [] => true
  | x :: xs, y :: ys => x.agrees y && agreesList xs ys
  | _, _ => false

/-- Whether two lists of fields agree field by field. -/
def agreesFields : List (Text × Json) → List (Text × Json) → Bool
  | [], [] => true
  | (k, x) :: fs, (l, y) :: gs => k == l && x.agrees y && agreesFields fs gs
  | _, _ => false

end

end Json

end Landscape
