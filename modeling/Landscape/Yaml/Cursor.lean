import Landscape.Error

/-!
# A place in a YAML text

What is still to be read, with the line and the column of its first character. YAML has five line
ends; two of them, beyond ASCII, are kept in the text as they are.

A text that is not YAML, or not of the part of YAML that is read here, is malformed. A few texts
follow the grammar and still fail, in a number or a character that they spell; these faults keep
their cause.
-/

namespace Landscape.Yaml

/-- What is wrong with a YAML text. -/
inductive Fault where
  | malformed
  | failure (cause : Error)
  deriving DecidableEq

/-- The outcome of an operation on a YAML text. -/
abbrev Attempt := Except Fault

/-- What is there, or else a malformed text. -/
def orMalformed {α : Type} : Option α → Attempt α
  | some a => .ok a
  | none => .error .malformed

/-- A place in a text. -/
structure Cursor where
  rest : List Char
  index : Nat := 0
  line : Nat := 0
  column : Nat := 0

/-- Whether a character ends a line. -/
def isBreak (c : Char) : Bool :=
  c == '\n' || c == '\r' || c.toNat == 0x85 || c.toNat == 0x2028 || c.toNat == 0x2029

/-- Whether a character is a space, a tab or a line end. -/
def isGap (c : Char) : Bool := c == ' ' || c == '\t' || isBreak c

/-- The mark that may stand at the beginning of a text and takes no column. -/
def byteOrderMark : Char := Char.ofNat 0xfeff

namespace Cursor

/-- The character so many places on. -/
def peek? (c : Cursor) (n : Nat := 0) : Option Char := c.rest[n]?

/-- Whether a given character comes next. -/
def sees (c : Cursor) (expected : Char) : Bool := c.peek? == some expected

/-- Whether a line end or the end of the text comes so many places on. -/
def endsLine (c : Cursor) (n : Nat := 0) : Bool := (c.peek? n).all isBreak

/-- Whether a gap or the end of the text comes so many places on. -/
def endsWord (c : Cursor) (n : Nat := 0) : Bool := (c.peek? n).all isGap

/-- Go on by one character. -/
def next (c : Cursor) : Cursor :=
  match c.rest with
  | [] => c
  | '\r' :: '\n' :: rest => { c with rest := '\n' :: rest, index := c.index + 1 }
  | first :: rest =>
    if isBreak first then { rest, index := c.index + 1, line := c.line + 1, column := 0 }
    else
      { c with
        rest, index := c.index + 1
        column := if first == byteOrderMark then c.column else c.column + 1 }

/-- Go on by several characters. -/
def skip (c : Cursor) : (count : Nat) → Cursor
  | 0 => c
  | count + 1 => c.next.skip count

/-- The characters up to the first that fails a test, and the place after them. -/
def span (c : Cursor) (p : Char → Bool) : List Char × Cursor :=
  let run := c.rest.takeWhile p
  (run, c.skip run.length)

/-- The place after all spaces. -/
def skipSpaces (c : Cursor) : Cursor := (c.span (· == ' ')).2

/-- The place at the end of the line. -/
def skipLine (c : Cursor) : Cursor := (c.span fun ch => !isBreak ch).2

/-- A line end as it enters the text, and the place after it; nothing where there is none. -/
def lineBreak? (c : Cursor) : Option (Char × Cursor) :=
  match c.rest with
  | '\r' :: '\n' :: _ => some ('\n', c.skip 2)
  | first :: _ =>
    if !isBreak first then none
    else if first.toNat == 0x2028 || first.toNat == 0x2029 then some (first, c.next)
    else some ('\n', c.next)
  | [] => none

/-- Whether three given characters stand here as a word. -/
def seesMark (c : Cursor) (mark : List Char) : Bool := mark.isPrefixOf c.rest && c.endsWord 3

/-- Whether a document begins or ends here, wherever that is in the line. -/
def seesSeparator (c : Cursor) : Bool :=
  c.seesMark ['-', '-', '-'] || c.seesMark ['.', '.', '.']

end Cursor

end Landscape.Yaml
