/-!
# Doubles as exact numbers

A finite double is a sign, a significand and a power of two. This module takes a double apart,
rounds an exact quotient to the nearest double, and rounds a quotient of naturals to a natural.
Every exact decision about numbers in this library (their texts, their readings, long distances)
goes through these three.
-/

namespace Landscape.Number

/-- What a double stands for; a finite one is `± significand · 2 ^ exponent`. -/
inductive Binary where
  | nan
  | infinite (negative : Bool)
  | finite (negative : Bool) (significand : Nat) (exponent : Int)
  deriving DecidableEq, Repr

/-- Read the sign, the exponent field and the fraction field of a double. -/
def Binary.ofFloat (x : Float) : Binary :=
  let bits : Nat := x.toBits.toNat
  let negative : Bool := bits / Nat.pow 2 63 % 2 == 1
  let field : Nat := bits / Nat.pow 2 52 % Nat.pow 2 11
  let fraction : Nat := bits % Nat.pow 2 52
  if field == 2047 then
    if fraction == 0 then .infinite negative else .nan
  else if field == 0 then .finite negative fraction (-1074)
  else .finite negative (Nat.pow 2 52 + fraction) ((field : Int) - 1075)

/-- `significand · 2 ^ exponent` as a quotient of naturals. -/
def scaled (significand : Nat) (exponent : Int) : Nat × Nat :=
  (significand * Nat.pow 2 exponent.toNat, Nat.pow 2 (-exponent).toNat)

/-- The natural nearest to `num / den`; a tie goes to the even one. -/
def roundQuotient (num den : Nat) : Nat :=
  let low := num / den
  let twice := 2 * (num % den)
  if twice < den then low
  else if den < twice then low + 1
  else low + low % 2

/-- The double for positive infinity. -/
def infinity : Float := Float.ofBits 0x7ff0000000000000

/-- The double that is not a number. -/
def notANumber : Float := Float.ofBits 0x7ff8000000000000

/-- The quotient `num / den` counted in units of `2 ^ exponent`, still exact. -/
def inUnits (num den : Nat) (exponent : Int) : Nat × Nat :=
  (num * Nat.pow 2 (-exponent).toNat, den * Nat.pow 2 exponent.toNat)

/--
The exponent of the last place that the double nearest to `num / den` can hold: 53 binary digits
are kept, fewer below the normal range.
-/
def lastPlace (num den : Nat) : Int :=
  let guess := max (-1074) ((num.log2 : Int) - den.log2 - 53)
  let (a, b) := inUnits num den guess
  if Nat.pow 2 53 ≤ a / b then guess + 1 else guess

/--
The double nearest to `num / den`, a tie going to the even significand. A quotient beyond the
largest double gives infinity, a zero denominator gives zero.
-/
def nearest (num den : Nat) : Float :=
  if num == 0 || den == 0 then Float.ofBits 0
  else
    let place := lastPlace num den
    let (a, b) := inUnits num den place
    let bits := (place + 1074).toNat * Nat.pow 2 52 + roundQuotient a b
    if 0x7ff0000000000000 ≤ bits then infinity else Float.ofBits (UInt64.ofNat bits)

/-- Give a magnitude its sign. -/
def signed (negative : Bool) (x : Float) : Float := if negative then -x else x

/-- The double nearest to an integer, infinite beyond the range of doubles. -/
def ofInt (n : Int) : Float := signed (n < 0) (nearest n.natAbs 1)

/-- The double nearest to the quotient of two integers. -/
def ofRatio (num den : Int) : Float :=
  signed ((num < 0) != (den < 0)) (nearest num.natAbs den.natAbs)

/-- The double nearest to an integer, or nothing when the integer lies beyond every double. -/
def ofInt? (n : Int) : Option Float :=
  let x := ofInt n
  if x.isFinite then some x else none

/-- The greatest integer that is no greater than a finite double in magnitude, with its sign. -/
def truncate? (x : Float) : Option Int :=
  match Binary.ofFloat x with
  | .finite negative significand exponent =>
    let (num, den) := scaled significand exponent
    let whole : Int := (num / den : Nat)
    some (if negative then -whole else whole)
  | _ => none

/-- The exact value of a finite double. -/
def toRat? (x : Float) : Option Rat :=
  match Binary.ofFloat x with
  | .finite negative significand exponent =>
    let (num, den) := scaled significand exponent
    let magnitude := mkRat num den
    some (if negative then -magnitude else magnitude)
  | _ => none

/-- The double nearest to a rational number. -/
def ofRat (q : Rat) : Float := signed (q.num < 0) (nearest q.num.natAbs q.den)

end Landscape.Number
