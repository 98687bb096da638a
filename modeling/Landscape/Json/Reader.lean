import Landscape.Entries
import Landscape.Error
import Landscape.Number.Reading
import Landscape.Text.Classes

/-!
# Reading JSON

The reader takes the words `NaN`, `Infinity` and `-Infinity` for numbers, keeps integers of any size
apart from doubles, and lets the last of several fields of one name win at the place of the first.
Where the text goes wrong, the error says what was expected and where. A text that is right may
still be refused: for an integer with too many digits, or for lists and records nested too deeply.

Every function takes the characters still to be read and gives back those it left. A fault is placed
by how many characters were left there.
-/

namespace Landscape.Json

open Landscape.Number

/-- What was expected where the text goes wrong. -/
inductive Problem where
  | value
  | fieldName
  | colon
  | comma
  | endOfText
  | closingQuote
  | noControl
  | escape
  | unicodeEscape
  | noByteOrderMark
  deriving DecidableEq, Repr

/-- The problem in words. -/
def Problem.message : Problem → String
  | .value => "Expecting value"
  | .fieldName => "Expecting property name enclosed in double quotes"
  | .colon => "Expecting ':' delimiter"
  | .comma => "Expecting ',' delimiter"
  | .endOfText => "Extra data"
  | .closingQuote => "Unterminated string starting at"
  | .noControl => "Invalid control character at"
  | .escape => "Invalid \\escape"
  | .unicodeEscape => "Invalid \\uXXXX escape"
  | .noByteOrderMark => "Unexpected UTF-8 BOM (decode using utf-8-sig)"

/-- A failed reading: a problem with so many characters left, or a text that is refused. -/
inductive Fault where
  | problem (kind : Problem) (left : Nat)
  | refusal (cause : Error)
  deriving DecidableEq

/-- The outcome of reading a part: the part and the characters after it. -/
abbrev Step (α : Type) := Except Fault (α × List Char)

/-- Whether a character is JSON's white space. -/
def isSpace (c : Char) : Bool := c == ' ' || c == '\t' || c == '\n' || c == '\r'

/-- Pass over white space. -/
def skipSpace (cs : List Char) : List Char := cs.dropWhile isSpace

/-- The value of a hexadecimal digit. -/
def hexValue? (c : Char) : Option Nat :=
  if '0' ≤ c && c ≤ '9' then some (c.toNat - '0'.toNat)
  else if 'a' ≤ c && c ≤ 'f' then some (c.toNat - 'a'.toNat + 10)
  else if 'A' ≤ c && c ≤ 'F' then some (c.toNat - 'A'.toNat + 10)
  else none

/-- The value of four hexadecimal digits. -/
def hexValue4? (a b c d : Char) : Option Nat := do
  let high := (← hexValue? a) * 0x10 + (← hexValue? b)
  let low := (← hexValue? c) * 0x10 + (← hexValue? d)
  return high * 0x100 + low

/-- The character that a one-letter escape stands for. -/
def escaped? (c : Char) : Option Char :=
  match c with
  | '"' => some '"'
  | '\\' => some '\\'
  | '/' => some '/'
  | 'b' => some (Char.ofNat 8)
  | 'f' => some (Char.ofNat 12)
  | 'n' => some '\n'
  | 'r' => some '\r'
  | 't' => some '\t'
  | _ => none

/-- Whether a unit is the first half of a pair. -/
def isHighHalf (n : Nat) : Bool := 0xd800 ≤ n && n ≤ 0xdbff

/-- Whether a unit is the second half of a pair. -/
def isLowHalf (n : Nat) : Bool := 0xdc00 ≤ n && n ≤ 0xdfff

/-- A part of a string: a character, or the 16-bit unit of a `\u` escape. -/
inductive Piece where
  | char (c : Char)
  | unit (n : Nat)
  deriving DecidableEq, Repr

/-- The symbol of a unit. -/
def unitSymbol (n : Nat) : Symbol := (Symbol.ofCode? n).getD default

/-- The character of two halves. -/
def joinHalves (high low : Nat) : Char :=
  Char.ofNat (0x10000 + (high - 0xd800) * 0x400 + (low - 0xdc00))

/-- The text of the parts of a string, halves that stand side by side joined. -/
def joinPieces : List Piece → Text
  | [] => []
  | .char c :: rest => .char c :: joinPieces rest
  | [.unit n] => [unitSymbol n]
  | .unit n :: .unit m :: rest =>
    if isHighHalf n && isLowHalf m then .char (joinHalves n m) :: joinPieces rest
    else unitSymbol n :: joinPieces (.unit m :: rest)
  | .unit n :: .char c :: rest => unitSymbol n :: .char c :: joinPieces rest

/-- Put a part in front of those that have been read. -/
def Step.cons (p : Piece) : Step (List Piece) → Step (List Piece)
  | .ok (ps, rest) => .ok (p :: ps, rest)
  | .error e => .error e

/-- Read the inside of a string and its closing quote; `opened` begins at the opening quote. -/
def stringBody (opened : List Char) : List Char → Step (List Piece)
  | [] => .error (.problem .closingQuote opened.length)
  | '"' :: rest => .ok ([], rest)
  | '\\' :: 'u' :: a :: b :: c :: d :: rest =>
    match hexValue4? a b c d with
    | some n =>
      if rest.isEmpty then .error (.problem .unicodeEscape (rest.length + 5))
      else .cons (.unit n) (stringBody opened rest)
    | none => .error (.problem .unicodeEscape (rest.length + 5))
  | ['\\'] => .error (.problem .closingQuote opened.length)
  | '\\' :: c :: rest =>
    if c == 'u' then .error (.problem .unicodeEscape (rest.length + 1))
    else
      match escaped? c with
      | some d => .cons (.char d) (stringBody opened rest)
      | none => .error (.problem .escape (rest.length + 2))
  | c :: rest =>
    if c.toNat < 0x20 then .error (.problem .noControl (rest.length + 1))
    else .cons (.char c) (stringBody opened rest)

/-- Read a string after its opening quote. -/
def string (opened cs : List Char) : Step Text :=
  match stringBody opened cs with
  | .ok (pieces, rest) => .ok (joinPieces pieces, rest)
  | .error e => .error e

/-- The values of the leading ASCII digits, and what follows them. -/
def asciiDigits : List Char → List Nat × List Char
  | [] => ([], [])
  | c :: rest =>
    if c.isDigit then
      let (ds, tail) := asciiDigits rest
      ((c.toNat - '0'.toNat) :: ds, tail)
    else ([], c :: rest)

/-- The whole digits of a number: a zero alone, or digits that start with another one. -/
def wholeDigits : List Char → List Nat × List Char
  | '0' :: rest => ([0], rest)
  | cs => asciiDigits cs

/-- A point and at least one digit. -/
def fractionDigits? : List Char → Option (List Nat × List Char)
  | '.' :: rest =>
    match asciiDigits rest with
    | ([], _) => none
    | found => some found
  | _ => none

/-- An exponent letter, an optional sign and at least one digit. -/
def exponentDigits? : List Char → Option (Int × List Char)
  | c :: rest =>
    if c == 'e' || c == 'E' then
      let (negative, rest) := splitSign rest
      match asciiDigits rest with
      | ([], _) => none
      | (ds, tail) => some (if negative then -(ofDigits ds : Int) else (ofDigits ds : Int), tail)
    else none
  | [] => none

/-- An optional minus sign: whether it is there, and what follows. -/
def splitMinus : List Char → Bool × List Char
  | '-' :: rest => (true, rest)
  | rest => (false, rest)

/-- Read a number. -/
def number (start : List Char) : Step Json :=
  let (negative, cs) := splitMinus start
  match wholeDigits cs with
  | ([], _) => .error (.problem .value start.length)
  | (whole, rest) =>
    let fraction := fractionDigits? rest
    let (places, rest) := fraction.getD ([], rest)
    match fraction, exponentDigits? rest with
    | none, none =>
      if maxDigits < whole.length then .error (.refusal (.numeral (.tooLong whole.length)))
      else
        let n : Int := ofDigits whole
        .ok (.int (if negative then -n else n), rest)
    | _, exponent =>
      let (e, rest) := exponent.getD (0, rest)
      .ok (.float (signed negative (ofDecimal (whole ++ places) (e - places.length))), rest)

mutual

/--
Read a value; `fuel` bounds the parts that are read, and `depth` how far they may be nested. A
bracket opens two parts, so that twice the characters are enough.
-/
def value : (fuel depth : Nat) → List Char → Step Json
  | 0, _, cs => .error (.problem .value cs.length)
  | fuel + 1, depth, cs =>
    match cs with
    | '"' :: rest =>
      match string cs rest with
      | .ok (s, rest) => .ok (.text s, rest)
      | .error e => .error e
    | '\x7b' :: rest =>
      if depth == 0 then .error (.refusal (.tooDeep .record))
      else
        match skipSpace rest with
        | '\x7d' :: rest => .ok (.record [], rest)
        | rest => fields fuel (depth - 1) [] rest
    | '[' :: rest =>
      if depth == 0 then .error (.refusal (.tooDeep .list))
      else
        match skipSpace rest with
        | ']' :: rest => .ok (.list [], rest)
        | rest => items fuel (depth - 1) [] rest
    | 'n' :: 'u' :: 'l' :: 'l' :: rest => .ok (.null, rest)
    | 't' :: 'r' :: 'u' :: 'e' :: rest => .ok (.bool true, rest)
    | 'f' :: 'a' :: 'l' :: 's' :: 'e' :: rest => .ok (.bool false, rest)
    | 'N' :: 'a' :: 'N' :: rest => .ok (.float notANumber, rest)
    | 'I' :: 'n' :: 'f' :: 'i' :: 'n' :: 'i' :: 't' :: 'y' :: rest => .ok (.float infinity, rest)
    | '-' :: 'I' :: 'n' :: 'f' :: 'i' :: 'n' :: 'i' :: 't' :: 'y' :: rest =>
      .ok (.float (-infinity), rest)
    | cs => number cs

/-- Read the items of a list up to its closing bracket; those already read come in reverse. -/
def items : (fuel depth : Nat) → (found : List Json) → List Char → Step Json
  | 0, _, _, cs => .error (.problem .value cs.length)
  | fuel + 1, depth, found, cs =>
    match value fuel depth cs with
    | .error e => .error e
    | .ok (x, rest) =>
      match skipSpace rest with
      | ']' :: rest => .ok (.list (x :: found).reverse, rest)
      | ',' :: rest => items fuel depth (x :: found) (skipSpace rest)
      | rest => .error (.problem .comma rest.length)

/-- Read the fields of a record up to its closing brace. -/
def fields : (fuel depth : Nat) → (found : List (Text × Json)) → List Char → Step Json
  | 0, _, _, cs => .error (.problem .value cs.length)
  | fuel + 1, depth, found, cs =>
    match cs with
    | '"' :: rest =>
      match string cs rest with
      | .error e => .error e
      | .ok (name, rest) =>
        match skipSpace rest with
        | ':' :: rest =>
          match value fuel depth (skipSpace rest) with
          | .error e => .error e
          | .ok (x, rest) =>
            let found := Entries.put found name x
            match skipSpace rest with
            | '\x7d' :: rest => .ok (.record found, rest)
            | ',' :: rest => fields fuel depth found (skipSpace rest)
            | rest => .error (.problem .comma rest.length)
        | rest => .error (.problem .colon rest.length)
    | cs => .error (.problem .fieldName cs.length)

end

/-- How many lists and records may be nested in each other. -/
def maxDepth : Nat := 993

/-- Read a whole text as one value. -/
def document (cs : List Char) : Except Fault Json :=
  match cs with
  | [] => .error (.problem .value 0)
  | first :: _ =>
    if first.toNat == 0xfeff then .error (.problem .noByteOrderMark cs.length)
    else
      match value (2 * cs.length + 2) maxDepth (skipSpace cs) with
      | .error e => .error e
      | .ok (x, rest) =>
        match skipSpace rest with
        | [] => .ok x
        | rest => .error (.problem .endOfText rest.length)

/-- What is wrong with a text that is no JSON, with line, column and offset. -/
structure Misreading where
  problem : Problem
  line : Nat
  column : Nat
  offset : Nat
  deriving DecidableEq, Repr

/-- A misreading in words. -/
def Misreading.message (m : Misreading) : String :=
  m.problem.message ++ ": line " ++ toString m.line ++ " column " ++ toString m.column
    ++ " (char " ++ toString m.offset ++ ")"

/-- A failed reading of a text: it is no JSON, or it is refused. -/
inductive ReadError where
  | malformed (cause : Misreading)
  | refused (cause : Error)
  deriving DecidableEq

/-- Place a fault in its text. -/
def Fault.inText (cs : List Char) : Fault → ReadError
  | .problem kind left =>
    let offset := cs.length - left
    let (line, column) := Text.lineAndColumn cs offset
    .malformed ⟨kind, line, column, offset⟩
  | .refusal cause => .refused cause

/-- Read some characters as one JSON value. -/
def readChars (cs : List Char) : Except ReadError Json :=
  match document cs with
  | .ok x => .ok x
  | .error fault => .error (fault.inText cs)

/-- Read a string as one JSON value. -/
def read (text : String) : Except ReadError Json := readChars text.toList

end Landscape.Json
