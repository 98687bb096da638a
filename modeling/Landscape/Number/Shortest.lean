import Landscape.Number.Binary

/-!
# The shortest decimal that reads back

Among the decimals that round to a given double, the one with the fewest digits, and of those the
one nearest to the double. For each count of digits only the two neighbours of the double on the
decimal grid can qualify, so these are tried for 1, 2, … 17 digits in exact arithmetic.
-/

namespace Landscape.Number

/-- How many decimal digits a natural has; zero has one. -/
def digitCount (n : Nat) : Nat := (Nat.toDigits 10 n).length

/-- The `k` with `10 ^ k ≤ num / den < 10 ^ (k + 1)`, for a positive quotient. -/
def leadingPlace (num den : Nat) : Int :=
  if den ≤ num then (digitCount (num / den) : Int) - 1
  else -(digitCount ((den - 1) / num) : Int)

/-- The quotient `num / den` counted in units of `10 ^ place`. -/
def inDecimalUnits (num den : Nat) (place : Int) : Nat × Nat :=
  (num * Nat.pow 10 (-place).toNat, den * Nat.pow 10 place.toNat)

/-- A positive decimal number `digits · 10 ^ place`. -/
structure Decimal where
  digits : Nat
  place : Int
  deriving DecidableEq, Repr

/-- Drop the zeros at the end of the digits. -/
def Decimal.trim (d : Decimal) : Decimal :=
  if h : d.digits ≠ 0 ∧ d.digits % 10 = 0 then
    Decimal.trim ⟨d.digits / 10, d.place + 1⟩
  else d
termination_by d.digits
decreasing_by omega

/--
The neighbour of `significand · 2 ^ exponent` on the grid `10 ^ place` that rounds back to it, the
nearer one if both do. The reals that round to the double reach half a unit to each side, a quarter
below a power of two, and include their ends when the significand is even.
-/
def gridNeighbour (significand : Nat) (exponent place : Int) : Option Decimal :=
  let (num, den) := scaled significand exponent
  let (value, unit) := inDecimalUnits num den place
  let step := Nat.pow 2 exponent.toNat * Nat.pow 10 (-place).toNat
  let low := value / unit
  let below := value % unit
  let above := unit - below
  let within (distance reach : Nat) : Bool :=
    if significand % 2 == 0 then distance ≤ reach else distance < reach
  let narrow := significand == Nat.pow 2 52 && -1074 < exponent
  let lowFits := low != 0 && within (4 * below) (if narrow then step else 2 * step)
  let highFits := within (4 * above) (2 * step)
  match lowFits, highFits with
  | true, true =>
    if below < above then some ⟨low, place⟩
    else if above < below then some ⟨low + 1, place⟩
    else some ⟨low + low % 2, place⟩
  | true, false => some ⟨low, place⟩
  | false, true => some ⟨low + 1, place⟩
  | false, false => none

/-- The shortest decimal that rounds to the positive double `significand · 2 ^ exponent`. -/
def shortest (significand : Nat) (exponent : Int) : Decimal :=
  let (num, den) := scaled significand exponent
  let top := leadingPlace num den
  let hit := (List.range 17).findSome? fun i => gridNeighbour significand exponent (top - (i : Nat))
  let (value, unit) := inDecimalUnits num den (top - 16)
  (hit.getD ⟨roundQuotient value unit, top - 16⟩).trim

end Landscape.Number
