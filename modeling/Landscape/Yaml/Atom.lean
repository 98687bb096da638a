import Landscape.Json.Conversion
import Landscape.Text.Case
import Landscape.Yaml.Cursor
import Landscape.Yaml.Resolution

/-!
# Values without parts in YAML texts

How the text of a scalar becomes a value of its type. A tag may give a scalar a type that its
spelling does not show, so that every reading here is of any text and may fail. Values without parts
name the fields of records; numbers that are equal name the same field.
-/

namespace Landscape.Yaml

/-- A value without parts. -/
inductive Atom where
  | scalar (s : Scalar)
  /--
  Not a number. It is equal to itself only where it is the same value: all that are spelled out
  share one, and every other one belongs to its node.
  -/
  | nan (origin : Option Nat)
  | bytes (data : List UInt8)
  | date (d : Date)
  | moment (m : Moment)
  deriving DecidableEq

namespace Atom

/-- The atom of a text. -/
abbrev text (t : Text) : Atom := .scalar (.text t)

/-- The name of an atom's type in messages. -/
def typeName : Atom → String
  | .scalar s => (Json.scalar s).typeName
  | .nan _ => "float"
  | .bytes _ => "bytes"
  | .date _ => "date"
  | .moment _ => "datetime"

/-- Whether two scalars are equal, as numbers if they are numbers. -/
def isSameScalar (s t : Scalar) : Bool :=
  match s, t with
  | .float x, .float y => x == y
  | s, t => s == t || (s.toRat?.isSome && s.toRat? == t.toRat?)

/-- Whether two atoms name the same field. -/
def isSame : Atom → Atom → Bool
  | .scalar s, .scalar t => isSameScalar s t
  | .moment m, .moment n => m.isSame n
  | a, b => a == b

/-- A byte between quotes of a given kind. -/
def showByte (quote : Char) (b : UInt8) : List Char :=
  if b < 0x80 then
    let c := Char.ofNat b.toNat
    if c.toNat == 0x7f then Text.showCode c.toNat else Text.showChar quote c
  else Text.showCode b.toNat

/-- Bytes between quotes. -/
def showBytes (data : List UInt8) : String :=
  let quote := Text.quoteFor (data.map fun b => .char (Char.ofNat b.toNat))
  String.ofList ('b' :: quote :: data.flatMap (showByte quote) ++ [quote])

/-- How an atom is spelled. -/
def shown : Atom → Except Error String
  | .scalar (.int n) => Number.spell n
  | .scalar s => .ok s.shown
  | .nan _ => .ok (Number.text Number.notANumber)
  | .bytes data => .ok (showBytes data)
  | .date d => .ok d.shown
  | .moment m => .ok m.shown

end Atom

/-- A failure to read a text as a number of a base. -/
def notANumeral {α : Type} (base : Nat) (t : Text) : Attempt α :=
  .error (.failure (.numeral (.notANumeral base t)))

/-- A failure to find the first symbol of an empty text. -/
def noSymbol {α : Type} : Attempt α := .error (.failure (.index .emptyText))

/-- The value of a digit of a base, in any script. -/
def digitIn? (base : Nat) (c : Char) : Option Nat :=
  ((Text.digitValue? c).or (Json.hexValue? c)).filter (· < base)

/-- Digits of a base without the mark that may stand before them. -/
def dropBaseMark (base : Nat) (cs : List Char) : List Char :=
  let marked : List Char := if base == 16 then ['x', 'X'] else if base == 8 then ['o', 'O']
    else if base == 2 then ['b', 'B'] else []
  match cs with
  | '0' :: mark :: rest => if marked.contains mark then rest else cs
  | _ => cs

/-- The integer that a text spells in a base. -/
def integerIn (base : Nat) (t : Text) : Attempt Int :=
  match t.chars? with
  | none => notANumeral base t
  | some cs =>
    let (negative, rest) := Number.splitSign (Number.trimNumber cs)
    let rest := dropBaseMark base rest
    let digits := (rest.takeWhile fun c => (digitIn? base c).isSome).filterMap (digitIn? base)
    if base == 10 && Number.maxDigits < digits.length then
      .error (.failure (.numeral (.tooLong digits.length)))
    else if digits.isEmpty || digits.length < rest.length then notANumeral base t
    else
      let n : Int := (digits.foldl (fun n d => base * n + d) 0 : Nat)
      .ok (if negative then -n else n)

/-- A text without low lines. -/
def dropLowLines (t : Text) : Text := t.filter (· != .char '_')

/-- Whether a text begins with a minus, and the text without its first sign. -/
def dropSign : Text → Bool × Text
  | .char '-' :: rest => (true, rest)
  | .char '+' :: rest => (false, rest)
  | t => (false, t)

/-- The parts of a text between colons. -/
def colonParts (t : Text) : List Text := t.splitOn (.char ':')

/-- The integer of a text without low lines and without a sign, in the base that it shows. -/
def naturalOfText (t : Text) : Attempt Int :=
  match t with
  | [] => noSymbol
  | [.char '0'] => .ok 0
  | .char '0' :: .char 'b' :: digits => integerIn 2 digits
  | .char '0' :: .char 'x' :: digits => integerIn 16 digits
  | .char '0' :: _ => integerIn 8 t
  | _ =>
    if t.contains (.char ':') then do
      let parts ← (colonParts t).mapM (integerIn 10)
      return parts.foldl (fun n part => 60 * n + part) 0
    else integerIn 10 t

/-- The integer of a text. -/
def intOfText (t : Text) : Attempt Int :=
  let t := dropLowLines t
  if t.isEmpty then noSymbol
  else
    let (negative, t) := dropSign t
    (naturalOfText t).map fun n => if negative then -n else n

/-- The double that a text spells. -/
def doubleOf (t : Text) : Attempt Float :=
  match Number.readFloat? t with
  | some x => .ok x
  | none => .error (.failure (.notConvertible (.text t)))

/-- Add up the parts of a number in base sixty, from the last one on, with the power of the next. -/
def addSixtieths : (parts : List Float) → (sum : Float) → (power : Nat) → Attempt Float
  | [], sum, _ => .ok sum
  | part :: parts, sum, power =>
    match Number.ofInt? power with
    | some x => addSixtieths parts (sum + part * x) (60 * power)
    | none => .error (.failure .numberTooLarge)

/-- The double of a text in small letters without low lines and without a sign. -/
def magnitudeOfText (t : Text) : Attempt Float :=
  if t == ".inf" then .ok Number.infinity
  else if t.contains (.char ':') then do
    let parts ← (colonParts t).mapM doubleOf
    addSixtieths parts.reverse 0.0 1
  else doubleOf t

/-- The double of a text, for the node at a place. -/
def floatOfText (origin : Nat) (t : Text) : Attempt Atom :=
  let t := Text.lower (dropLowLines t)
  if t.isEmpty then noSymbol
  else
    let (negative, t) := dropSign t
    if t == ".nan" then .ok (.nan none)
    else do
      let x := Number.signed negative (← magnitudeOfText t)
      return if x.isNaN then .nan (some origin) else .scalar (.float x)

/-- The truth value of a text. -/
def boolOfText (t : Text) : Attempt Bool :=
  let word := Text.lower t
  match truthWords.find? fun (truth, _) => word == truth with
  | some (_, b) => .ok b
  | none => .error (.failure (.notATruthValue word))

/-- The six bits that a character stands for. -/
def sixBits? (c : Char) : Option Nat :=
  if 'A' ≤ c && c ≤ 'Z' then some (c.toNat - 'A'.toNat)
  else if 'a' ≤ c && c ≤ 'z' then some (c.toNat - 'a'.toNat + 26)
  else if '0' ≤ c && c ≤ '9' then some (c.toNat - '0'.toNat + 52)
  else if c == '+' then some 62
  else if c == '/' then some 63
  else none

/--
Bytes of which every character gives six bits: how many characters of a group of four have been
read, the bits left over, and how many marks of padding came last. Other characters are passed over,
and enough padding ends the bytes.
-/
def sextets (phase left pads : Nat) : List Char → Option (List UInt8)
  | [] => if phase == 0 then some [] else none
  | c :: rest =>
    if c == '=' then
      if phase < 2 then sextets phase left pads rest
      else if 4 ≤ phase + pads + 1 then some []
      else sextets phase left (pads + 1) rest
    else
      match sixBits? c with
      | none => sextets phase left pads rest
      | some v =>
        match phase with
        | 0 => sextets 1 v 0 rest
        | 1 => (sextets 2 (v % 16) 0 rest).map ((left * 4 + v / 16).toUInt8 :: ·)
        | 2 => (sextets 3 (v % 4) 0 rest).map ((left * 16 + v / 4).toUInt8 :: ·)
        | _ => (sextets 0 0 0 rest).map ((left * 64 + v).toUInt8 :: ·)

/-- The bytes of a text, which has to be ASCII. -/
def bytesOfText (t : Text) : Attempt (List UInt8) := do
  let cs ← orMalformed t.chars?
  if cs.any fun c => 0x80 ≤ c.toNat then throw .malformed
  orMalformed (sextets 0 0 0 cs)

/-- The number of some decimal digits. -/
def naturalOf (digits : List Char) : Nat :=
  digits.foldl (fun n c => 10 * n + (c.toNat - '0'.toNat)) 0

/-- The microseconds of a fraction, of which six digits count. -/
def microsecondsOf (fraction : List Char) : Nat :=
  let digits := fraction.take 6
  naturalOf digits * Nat.pow 10 (6 - digits.length)

/-- The seconds of an offset. -/
def OffsetParts.seconds (p : OffsetParts) : Int :=
  let size : Int := (naturalOf p.hour * 60 + naturalOf p.minute) * 60
  if p.negative then -size else size

/-- The date or the moment of its parts. -/
def TimestampParts.atom (p : TimestampParts) : Except CalendarFault Atom :=
  let year := naturalOf p.year
  let month := naturalOf p.month
  let day := naturalOf p.day
  match p.time with
  | none => Atom.date <$> Date.ofParts year month day
  | some t =>
    let offset := t.offset.map fun parts => (parts.map OffsetParts.seconds).getD 0
    Atom.moment <$> Moment.ofParts year month day (naturalOf t.hour) (naturalOf t.minute)
      (naturalOf t.second) (microsecondsOf t.fraction) offset

/-- The date or the moment of a text. -/
def timeOfText (t : Text) : Attempt Atom :=
  match (t.chars?.map dropLineFeed).bind timestampParts? with
  | none => .error (.failure .notATimestamp)
  | some parts => parts.atom.mapError fun fault => .failure (.calendar fault)

end Landscape.Yaml
