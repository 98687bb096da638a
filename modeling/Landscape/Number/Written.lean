import Landscape.Number.Shortest

/-!
# Written numbers

Three ways to write a double: the shortest text that reads back, a fixed count of decimal places,
and six significant digits. All three round the exact binary value once, a tie going to the even
digit.
-/

namespace Landscape.Number

/-- A minus sign where the number carries one, `-0.0` included. -/
def withSign (negative : Bool) (text : String) : String :=
  if negative then "-" ++ text else text

/-- As many zeros as asked for. -/
def zeros (n : Nat) : String := String.ofList (List.replicate n '0')

/-- The exponent of a number in scientific form: a sign and at least two digits. -/
def exponentText (e : Int) : String :=
  let digits := toString e.natAbs
  (if e < 0 then "e-" else "e+") ++ zeros (2 - digits.length) ++ digits

/-- Digits with a point after the first, and the exponent of the first digit. -/
def scientific (digits : String) (e : Int) : String :=
  let tail := (digits.drop 1).toString
  (digits.take 1).toString ++ (if tail.isEmpty then "" else "." ++ tail) ++ exponentText e

/--
Digits with a point after the first `point` of them. `whole` is what follows a number without a
fraction.
-/
def positional (digits : String) (point : Int) (whole : String) : String :=
  if point ≤ 0 then "0." ++ zeros (-point).toNat ++ digits
  else if digits.length ≤ point then
    digits ++ zeros (point.toNat - digits.length) ++ whole
  else (digits.take point.toNat).toString ++ "." ++ (digits.drop point.toNat).toString

/--
The shortest text that reads back as the same double. It is positional from `0.0001` up to below
`10 ^ 16`, with at least one decimal place, and scientific elsewhere.
-/
def text (x : Float) : String :=
  match Binary.ofFloat x with
  | .nan => "nan"
  | .infinite negative => withSign negative "inf"
  | .finite negative 0 _ => withSign negative "0.0"
  | .finite negative significand exponent =>
    let d := shortest significand exponent
    let digits := toString d.digits
    let point := digits.length + d.place
    withSign negative <|
      if -4 < point && point ≤ 16 then positional digits point ".0"
      else scientific digits (point - 1)

/-- A count of hundredths, thousandths, … written with its point. -/
def placed (places count : Nat) : String :=
  let digits := toString count
  let padded := zeros (places + 1 - digits.length) ++ digits
  if places == 0 then padded
  else (padded.take (padded.length - places)).toString ++ "."
    ++ (padded.drop (padded.length - places)).toString

/-- A double with the given number of decimal places. -/
def fixed (places : Nat) (x : Float) : String :=
  match Binary.ofFloat x with
  | .nan => "nan"
  | .infinite negative => withSign negative "inf"
  | .finite negative significand exponent =>
    let (num, den) := scaled significand exponent
    withSign negative (placed places (roundQuotient (num * Nat.pow 10 places) den))

/-- The six most significant decimal digits of a positive quotient. -/
def sixDigits (num den : Nat) : Decimal :=
  let place := leadingPlace num den - 5
  let (value, unit) := inDecimalUnits num den place
  ⟨roundQuotient value unit, place⟩

/--
A double with at most six significant digits and no zeros at the end, positional from `0.0001` up
to below a million.
-/
def general (x : Float) : String :=
  match Binary.ofFloat x with
  | .nan => "nan"
  | .infinite negative => withSign negative "inf"
  | .finite negative 0 _ => withSign negative "0"
  | .finite negative significand exponent =>
    let (num, den) := scaled significand exponent
    let d := (sixDigits num den).trim
    let digits := toString d.digits
    let point := digits.length + d.place
    withSign negative <|
      if -4 < point && point ≤ 6 then positional digits point ""
      else scientific digits (point - 1)

end Landscape.Number
