import Landscape.Number.Binary

/-!
# Integer square roots and exact distances

`root n` is the greatest `r` with `r * r ≤ n`. The length of a hypotenuse is computed at a scale at
which the longer leg is near one: there it is the square root of an exact sum of squares, rounded
once. Brought back to its own scale, a length below the normal range loses digits once more. Legs
for which there is no such scale are divided by the longer one instead.
-/

namespace Landscape.Number

/-- The integer square root, two binary digits of the radicand at a time. -/
def root (n : Nat) : Nat :=
  if h : n = 0 then 0
  else
    let r := 2 * root (n / 4)
    if (r + 1) * (r + 1) ≤ n then r + 1 else r
termination_by n
decreasing_by omega

/--
The double nearest to `√n · 2 ^ exponent`. At least 55 digits of the root are computed; where the
root is not exact, a half below the last digit stands for the rest, which no rounding can tell
from it.
-/
def nearestRoot (n : Nat) (exponent : Int) : Float :=
  let shift := 56 - n.log2 / 2
  let radicand := n * Nat.pow 4 shift
  let r := root radicand
  let rest := if r * r == radicand then 0 else 1
  let (num, den) := scaled (2 * r + rest) (exponent - shift - 1)
  nearest num den

/-- The double nearest to `x · 2 ^ exponent` for a finite `x` that is not negative. -/
def scaleBy (x : Float) (exponent : Int) : Float :=
  match Binary.ofFloat x with
  | .finite _ significand place =>
    let (num, den) := scaled significand (place + exponent)
    nearest num den
  | _ => x

/-- The least power of two that is a scale, that is, whose inverse is a double. -/
def leastScale : Int := -1023

/--
The length of the hypotenuse of two legs that are divided by the longer one; what is lost in each
addition is added at the end.
-/
def shortHypotenuse (x y : Float) : Float :=
  let longer := if x.abs < y.abs then y.abs else x.abs
  let addSquare (total : Float × Float) (leg : Float) : Float × Float :=
    let (sum, lost) := total
    let part := leg.abs / longer
    let square := part * part
    let next := sum + square
    (next, lost + ((sum - next) + square))
  let (sum, lost) := [x, y].foldl addSquare (1.0, 0.0)
  longer * (sum - 1.0 + lost).sqrt

/-- The length of the hypotenuse with the given legs. -/
def hypotenuse (x y : Float) : Float :=
  match Binary.ofFloat x, Binary.ofFloat y with
  | .infinite _, _ | _, .infinite _ => infinity
  | .nan, _ | _, .nan => notANumber
  | .finite _ m p, .finite _ n q =>
    let low := min p q
    let a := m * Nat.pow 2 (p - low).toNat
    let b := n * Nat.pow 2 (q - low).toNat
    let scale := ((max a b).log2 : Int) + 1 + low
    if a == 0 && b == 0 then Float.ofBits 0
    else if scale < leastScale then shortHypotenuse x y
    else scaleBy (nearestRoot (a * a + b * b) (low - scale)) scale

end Landscape.Number
