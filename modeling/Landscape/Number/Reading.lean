import Landscape.Number.Binary
import Landscape.Text.Classes

/-!
# Reading numbers

Integers and doubles as people write them: blanks around the number, an optional sign, digits of
any script, and single low lines between digits. A double may also have a fraction, an exponent, or
be one of the words for infinity and not-a-number.
-/

namespace Landscape.Number

open Landscape.Text

/-- Blanks that may surround a number; the information separators may not. -/
def isNumberBlank (c : Char) : Bool := isBlank c && !(0x1c ≤ c.toNat && c.toNat ≤ 0x1f)

/-- A text without the blanks that may surround a number. -/
def trimNumber (cs : List Char) : List Char :=
  ((cs.dropWhile isNumberBlank).reverse.dropWhile isNumberBlank).reverse

/-- An optional sign; whether it is a minus, and what follows. -/
def splitSign : List Char → Bool × List Char
  | '-' :: rest => (true, rest)
  | '+' :: rest => (false, rest)
  | rest => (false, rest)

/--
The digits that continue a run, each of them after at most one low line: their values, and what
follows.
-/
def moreDigits : List Char → List Nat × List Char
  | [] => ([], [])
  | '_' :: c :: rest =>
    match digitValue? c with
    | some d => (moreDigits rest).map (d :: ·) id
    | none => ([], '_' :: c :: rest)
  | c :: rest =>
    match digitValue? c with
    | some d => (moreDigits rest).map (d :: ·) id
    | none => ([], c :: rest)

/-- The leading run of digits with single low lines between them. -/
def digitRun : List Char → List Nat × List Char
  | [] => ([], [])
  | c :: rest =>
    match digitValue? c with
    | some d => (moreDigits rest).map (d :: ·) id
    | none => ([], c :: rest)

/-- The natural with the given decimal digits. -/
def ofDigits (ds : List Nat) : Nat := ds.foldl (fun n d => 10 * n + d) 0

/-- The most digits that the text of an integer may have. -/
def maxDigits : Nat := 4300

/-- The integer that some characters spell. -/
def intOfChars? (cs : List Char) : Option Int :=
  let (negative, rest) := splitSign (trimNumber cs)
  match digitRun rest with
  | ([], _) => none
  | (ds, []) =>
    if maxDigits < ds.length then none
    else
      let n : Int := ofDigits ds
      some (if negative then -n else n)
  | _ => none

/-- Read an integer. -/
def readInt? (t : Text) : Option Int := t.chars?.bind intOfChars?

/--
The double nearest to `digits · 10 ^ place`. Magnitudes that are far outside the range of doubles
are settled without computing the power.
-/
def ofDecimal (digits : List Nat) (place : Int) : Float :=
  let significant := digits.dropWhile (· == 0)
  let size := significant.length + place
  if significant.isEmpty || size < -400 then Float.ofBits 0
  else if 400 < size then infinity
  else nearest (ofDigits significant * Nat.pow 10 place.toNat) (Nat.pow 10 (-place).toNat)

/-- Read the words for infinity and not-a-number, in any case. -/
def readSpecial? (cs : List Char) : Option Float :=
  let word := String.ofList (cs.map Char.toLower)
  if word == "inf" || word == "infinity" then some infinity
  else if word == "nan" then some notANumber
  else none

/-- The fraction after the whole digits, if a point stands there. -/
def splitFraction : List Char → Option (List Nat × List Char)
  | '.' :: rest => some (digitRun rest)
  | _ => none

/-- An exponent that must reach the end of the text; an absent one is zero. -/
def readExponent? : List Char → Option Int
  | [] => some 0
  | c :: rest =>
    if c == 'e' || c == 'E' then
      let (negative, rest) := splitSign rest
      match digitRun rest with
      | ([], _) => none
      | (ds, []) => some (if negative then -(ofDigits ds : Int) else (ofDigits ds : Int))
      | _ => none
    else none

/-- Read a magnitude: whole digits, a fraction, an exponent, at least one digit in the first two. -/
def readMagnitude? (cs : List Char) : Option Float :=
  let (whole, rest) := digitRun cs
  let (fraction, rest) := (splitFraction rest).getD ([], rest)
  if whole.isEmpty && fraction.isEmpty then none
  else (readExponent? rest).map fun e => ofDecimal (whole ++ fraction) (e - fraction.length)

/-- The double that some characters spell. -/
def floatOfChars? (cs : List Char) : Option Float :=
  let (negative, rest) := splitSign (trimNumber cs)
  ((readSpecial? rest).or (readMagnitude? rest)).map (signed negative)

/-- Read a double. -/
def readFloat? (t : Text) : Option Float := t.chars?.bind floatOfChars?

end Landscape.Number
