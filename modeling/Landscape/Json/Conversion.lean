import Landscape.Error
import Landscape.Number.Reading

/-!
# Values as numbers and as texts

Where a document should hold a number, an integer, a truth value, and a text that reads as a number
serve as well. An integer beyond the range of doubles is an error of its own; a text in that range
reads as infinity.

Where a text is wanted, a text stands for itself and all else for its spelling. An integer with too
many digits has no spelling, and neither has a value that is nested too deeply to be followed; each
of these is an error of its own, also where the spelling was to be part of a message.
-/

namespace Landscape

/-- The exact value of a number, if the scalar is one that is finite. -/
def Scalar.toRat? : Scalar → Option Rat
  | .int n => some n
  | .bool b => some (if b then 1 else 0)
  | .float x => Number.toRat? x
  | .null | .text _ => none

/-- The digits of an integer, unless there are too many to be written. -/
def Number.spell (n : Int) : Except Error String :=
  let text : String := toString n
  if maxDigits + (if n < 0 then 1 else 0) < text.length then .error .unprintableInteger
  else .ok text

namespace Json

/-- The number that a value stands for. -/
def toFloat : Json → Except Error Float
  | .bool b => .ok (if b then 1.0 else 0.0)
  | .int n =>
    match Number.ofInt? n with
    | some x => .ok x
    | none => .error .numberTooLarge
  | .float x => .ok x
  | .text t =>
    match Number.readFloat? t with
    | some x => .ok x
    | none => .error (.notConvertible (.text t))
  | d => .error (.notConvertible d)

/-- Two values in a row: the items of a list, the symbols of a text, the names of a record. -/
def pair? : Json → Option (Json × Json)
  | .list [x, y] => some (x, y)
  | .record [(k, _), (l, _)] => some (.text k, .text l)
  | .text [a, b] => some (.text [a], .text [b])
  | _ => none

/--
How many lists and records that hold something may be nested in each other where a value is spelled
or written.
-/
def maxLevels : Nat := 995

mutual

/-- Check that a value can be spelled with so many levels of lists and records. -/
def checkSpelling : (levels : Nat) → Json → Except Error Unit
  | _, .scalar (.int n) => do let _ ← Number.spell n
  | _, .scalar _ => .ok ()
  | levels, .list items => checkItems levels items
  | levels, .record fields => checkFields levels fields

/-- Check that the items of a list can be spelled, which are one level further down. -/
def checkItems : (levels : Nat) → List Json → Except Error Unit
  | _, [] => .ok ()
  | 0, _ :: _ => .error (.tooDeep .value)
  | levels + 1, x :: xs => do
    checkSpelling levels x
    checkItems (levels + 1) xs

/-- Check that the fields of a record can be spelled, which are one level further down. -/
def checkFields : (levels : Nat) → List (Text × Json) → Except Error Unit
  | _, [] => .ok ()
  | 0, _ :: _ => .error (.tooDeep .value)
  | levels + 1, (_, x) :: fs => do
    checkSpelling levels x
    checkFields (levels + 1) fs

end

/-- The spelling of a value, if it can be spelled. -/
def spell (d : Json) : Except Error String := do
  d.checkSpelling maxLevels
  return d.shown

/-- The text a value stands for, if it is a text or can be spelled. -/
def asText : Json → Except Error Text
  | .text t => .ok t
  | d => Text.ofString <$> d.spell

end Json

end Landscape
