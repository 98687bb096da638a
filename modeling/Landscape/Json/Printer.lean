import Landscape.Json.Conversion
import Landscape.Number.Written

/-!
# Printing JSON

The printed text is ASCII: every other character is written as one or two `\u` escapes of its UTF-16
units, and a half of a pair as one. On one line, items are separated by a comma and a space; with an
indent, each item has a line of its own.

A text is written piece by piece. An integer with too many digits stops this, and so does a value
that is nested too deeply to be followed; what was written before is there then.
-/

namespace Landscape.Json

open Landscape.Text

/-- The `\u` escape of a 16-bit unit. -/
def unitEscape (n : Nat) : List Char := '\\' :: 'u' :: hexDigits 4 n

/-- A character inside a JSON string. -/
def escapeChar (c : Char) : List Char :=
  if c == '"' then ['\\', '"']
  else if c == '\\' then ['\\', '\\']
  else if c == '\n' then ['\\', 'n']
  else if c == '\r' then ['\\', 'r']
  else if c == '\t' then ['\\', 't']
  else if c.toNat == 8 then ['\\', 'b']
  else if c.toNat == 12 then ['\\', 'f']
  else if 0x20 ≤ c.toNat && c.toNat < 0x7f then [c]
  else if c.toNat < 0x10000 then unitEscape c.toNat
  else
    let n := c.toNat - 0x10000
    unitEscape (0xd800 + n / 0x400) ++ unitEscape (0xdc00 + n % 0x400)

/-- A symbol inside a JSON string. -/
def escapeSymbol : Symbol → List Char
  | .char c => escapeChar c
  | .half n => unitEscape (Symbol.half n).code

/-- A JSON string. -/
def stringText (t : Text) : String :=
  String.ofList ('"' :: t.flatMap escapeSymbol ++ ['"'])

/-- A JSON number, or the words that stand for the doubles JSON has no number for. -/
def numberText (x : Float) : String :=
  match Number.Binary.ofFloat x with
  | .nan => "NaN"
  | .infinite negative => if negative then "-Infinity" else "Infinity"
  | .finite _ _ _ => Number.text x

/-- A scalar. -/
def scalarText : Scalar → String
  | .null => "null"
  | .bool b => if b then "true" else "false"
  | .int n => toString n
  | .float x => numberText x
  | .text t => stringText t

/--
What stands around and between items: on one line, or on lines of their own at a given depth of
indentation.
-/
inductive Layout where
  | oneLine
  | indented (width : Nat)
  deriving DecidableEq, Repr

/-- A line break and the indentation of a depth. -/
def Layout.line (layout : Layout) (depth : Nat) : String :=
  match layout with
  | .oneLine => ""
  | .indented width => "\n" ++ String.ofList (List.replicate (width * depth) ' ')

/-- What separates two items. -/
def Layout.separator (layout : Layout) (depth : Nat) : String :=
  match layout with
  | .oneLine => ", "
  | .indented _ => "," ++ layout.line depth

mutual

/-- Print a value at a depth. -/
def printAt (layout : Layout) (depth : Nat) : Json → String
  | .scalar s => scalarText s
  | .list [] => "[]"
  | .list (x :: xs) =>
    "[" ++ layout.line (depth + 1) ++ printAt layout (depth + 1) x
      ++ printItems layout (depth + 1) xs ++ layout.line depth ++ "]"
  | .record [] => "\x7b\x7d"
  | .record ((k, x) :: fs) =>
    "\x7b" ++ layout.line (depth + 1) ++ stringText k ++ ": " ++ printAt layout (depth + 1) x
      ++ printFields layout (depth + 1) fs ++ layout.line depth ++ "\x7d"

/-- Print the items after the first. -/
def printItems (layout : Layout) (depth : Nat) : List Json → String
  | [] => ""
  | x :: xs => layout.separator depth ++ printAt layout depth x ++ printItems layout depth xs

/-- Print the fields after the first. -/
def printFields (layout : Layout) (depth : Nat) : List (Text × Json) → String
  | [] => ""
  | (k, x) :: fs =>
    layout.separator depth ++ stringText k ++ ": " ++ printAt layout depth x
      ++ printFields layout depth fs

end

/-- Print a value. -/
def print (layout : Layout) (value : Json) : String := printAt layout 0 value

/-- Steps that write a text, which is the state; where they fail, what was written stays. -/
abbrev Writing := EStateM Error String

/-- Write a piece. -/
def put (piece : String) : Writing Unit := modify (· ++ piece)

/-- Write a scalar behind what stands before it; the two are one piece. -/
def writeScalar (before : String) (s : Scalar) : Writing Unit :=
  match s with
  | .int n =>
    match Number.spell n with
    | .ok digits => put (before ++ digits)
    | .error e => throw e
  | s => put (before ++ scalarText s)

mutual

/-- Write a value at a depth behind what stands before it, with so many levels left. -/
def writeAt (layout : Layout) : (levels depth : Nat) → (before : String) → Json → Writing Unit
  | _, _, before, .scalar s => writeScalar before s
  | _, _, before, .list [] => put (before ++ "[]")
  | _, _, before, .record [] => put (before ++ "\x7b\x7d")
  | 0, _, before, .list (_ :: _) | 0, _, before, .record (_ :: _) => do
    put before
    throw (.tooDeep .written)
  | levels + 1, depth, before, .list (x :: xs) => do
    put before
    writeAt layout levels (depth + 1) ("[" ++ layout.line (depth + 1)) x
    writeItems layout levels (depth + 1) xs
    put (layout.line depth ++ "]")
  | levels + 1, depth, before, .record ((k, x) :: fs) => do
    put (before ++ "\x7b" ++ layout.line (depth + 1) ++ stringText k ++ ": ")
    writeAt layout levels (depth + 1) "" x
    writeFields layout levels (depth + 1) fs
    put (layout.line depth ++ "\x7d")

/-- Write the items after the first. -/
def writeItems (layout : Layout) : (levels depth : Nat) → List Json → Writing Unit
  | _, _, [] => pure ()
  | levels, depth, x :: xs => do
    writeAt layout levels depth (layout.separator depth) x
    writeItems layout levels depth xs

/-- Write the fields after the first. -/
def writeFields (layout : Layout) : (levels depth : Nat) → List (Text × Json) → Writing Unit
  | _, _, [] => pure ()
  | levels, depth, (k, x) :: fs => do
    put (layout.separator depth ++ stringText k ++ ": ")
    writeAt layout levels depth "" x
    writeFields layout levels depth fs

end

/-- Write a value. -/
def write (layout : Layout) (value : Json) : Writing Unit := writeAt layout maxLevels 0 "" value

end Landscape.Json
