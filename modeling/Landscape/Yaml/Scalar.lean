import Landscape.Json.Reader
import Landscape.Yaml.Cursor

/-!
# Scalars of a YAML text

Scalars stand plain, between quotes, or as indented blocks. Lines of a plain or quoted scalar are
folded: one line end becomes a space, further ones are kept. Every function gives the text of the
scalar and the place after it; loops are bounded by the characters left. Only an escape can spell a
symbol that is no character.
-/

namespace Landscape.Yaml

/-- Fold a line end and the further ones after it. -/
def foldBreaks (first : Char) (breaks : List Char) : List Char :=
  if first != '\n' then first :: breaks
  else if breaks.isEmpty then [' ']
  else breaks

/-- Characters that end a plain scalar inside brackets. -/
def isFlowMark (c : Char) : Bool := c == ',' || c == '[' || c == ']' || c == '\x7b' || c == '\x7d'

/-- The part of a plain scalar up to the next gap or mark. -/
def plainRun (flow : Bool) : List Char → List Char
  | [] => []
  | c :: rest =>
    let colonEnds := c == ':' && rest.head?.all fun d => isGap d || (flow && isFlowMark d)
    if isGap c || colonEnds || (flow && (isFlowMark c || c == '?')) then []
    else c :: plainRun flow rest

/-- Spaces and line ends; nothing when a document separator stands at the beginning of a line. -/
def plainBreaks : (fuel : Nat) → Cursor → (breaks : List Char) → Option (List Char) × Cursor
  | 0, c, breaks => (some breaks, c)
  | fuel + 1, c, breaks =>
    if c.sees ' ' then plainBreaks fuel c.next breaks
    else
      match c.lineBreak? with
      | none => (some breaks, c)
      | some (ch, c) =>
        if c.seesSeparator then (none, c) else plainBreaks fuel c (breaks ++ [ch])

/-- The gap inside a plain scalar, whether it crosses a line end, and the place after it. -/
def plainGap (c : Cursor) : List Char × Bool × Cursor :=
  let (spaces, c) := c.span (· == ' ')
  match c.lineBreak? with
  | none => (spaces, false, c)
  | some (first, c) =>
    if c.seesSeparator then ([], true, c)
    else
      match plainBreaks (c.rest.length + 1) c [] with
      | (none, c) => ([], true, c)
      | (some breaks, c) => (foldBreaks first breaks, true, c)

/-- A plain scalar that goes on after a gap, and whether it ends after a line end. -/
def plainScalarFrom (flow : Bool) (indent : Int) :
    (fuel : Nat) → (gap : List Char) → (crossed : Bool) → Cursor → List Char × Bool × Cursor
  | 0, _, crossed, c => ([], crossed, c)
  | fuel + 1, gap, crossed, c =>
    if c.sees '#' then ([], crossed, c)
    else
      match plainRun flow c.rest with
      | [] => ([], crossed, c)
      | run =>
        let (next, crossed, c) := plainGap (c.skip run.length)
        if next.isEmpty || c.sees '#' || (!flow && (c.column : Int) < indent) then
          (gap ++ run, crossed, c)
        else
          let (more, crossed, c) := plainScalarFrom flow indent fuel next crossed c
          (gap ++ run ++ more, crossed, c)

/-- A plain scalar in brackets or not, with the least column of its further lines. -/
def plainScalar (flow : Bool) (indent : Int) (c : Cursor) : List Char × Bool × Cursor :=
  plainScalarFrom flow indent (c.rest.length + 1) [] false c

/-- Line ends inside quotes, with the spaces around them left out. -/
def quotedBreaks : (fuel : Nat) → Cursor → (breaks : List Char) → Option (List Char × Cursor)
  | 0, _, _ => none
  | fuel + 1, c, breaks =>
    if c.seesSeparator then none
    else
      let c := (c.span fun ch => ch == ' ' || ch == '\t').2
      match c.lineBreak? with
      | some (ch, c) => quotedBreaks fuel c (breaks ++ [ch])
      | none => some (breaks, c)

/-- The characters that escapes of one letter stand for. -/
def escapes : List (Char × Nat) :=
  [('0', 0), ('a', 7), ('b', 8), ('t', 9), ('\t', 9), ('n', 10), ('v', 11), ('f', 12), ('r', 13),
   ('e', 27), (' ', 32), ('"', 34), ('\\', 92), ('/', 47), ('N', 0x85), ('_', 0xa0), ('L', 0x2028),
   ('P', 0x2029)]

/-- How many hexadecimal digits an escape by code point has. -/
def escapeWidths : List (Char × Nat) := [('x', 2), ('u', 4), ('U', 8)]

/-- The number of some hexadecimal digits. -/
def hexNumber? (digits : List Char) : Option Nat :=
  digits.foldlM (fun n c => (Json.hexValue? c).map (16 * n + ·)) 0

/-- The symbol of a code point, which may be beyond the last one. -/
def symbolOf (n : Nat) : Attempt Symbol :=
  match Symbol.ofCode? n with
  | some s => .ok s
  | none => .error (.failure (.codePoint (if n < 0x80000000 then .outOfRange else .tooLarge)))

/-- An escape after its backslash. -/
def quotedEscape (c : Cursor) : Attempt (Text × Cursor) :=
  match c.peek? with
  | none => .error .malformed
  | some ch =>
    match escapes.lookup ch, escapeWidths.lookup ch with
    | some n, _ => .ok ([.char (Char.ofNat n)], c.next)
    | none, some width => do
      let digits := c.next.rest.take width
      if digits.length < width then throw .malformed
      let s ← symbolOf (← orMalformed (hexNumber? digits))
      return ([s], c.next.skip width)
    | none, none => do
      let (_, c) ← orMalformed c.lineBreak?
      let (breaks, c) ← orMalformed (quotedBreaks (c.rest.length + 1) c [])
      return (Text.ofChars breaks, c)

/-- A gap inside quotes. -/
def quotedGap (c : Cursor) : Option (List Char × Cursor) :=
  let (spaces, c) := c.span fun ch => ch == ' ' || ch == '\t'
  match c.lineBreak? with
  | none => if c.rest.isEmpty then none else some (spaces, c)
  | some (first, c) => do
    let (breaks, c) ← quotedBreaks (c.rest.length + 1) c []
    return (foldBreaks first breaks, c)

/-- The next piece of a quoted scalar; nothing more at its closing quote. -/
def quotedPiece (double : Bool) (c : Cursor) : Attempt (Option Text × Cursor) :=
  match c.peek? with
  | none => .error .malformed
  | some ch =>
    if ch == '\'' && !double then
      if c.peek? 1 == some '\'' then .ok (some [.char ch], c.skip 2) else .ok (none, c.next)
    else if ch == '"' && double then .ok (none, c.next)
    else if ch == '\\' && double then do
      let (piece, c) ← quotedEscape c.next
      return (some piece, c)
    else if isGap ch then do
      let (gap, c) ← orMalformed (quotedGap c)
      return (some (Text.ofChars gap), c)
    else .ok (some [.char ch], c.next)

/-- The inside of a quoted scalar and its closing quote. -/
def quotedBody (double : Bool) : (fuel : Nat) → Cursor → Attempt (Text × Cursor)
  | 0, _ => .error .malformed
  | fuel + 1, c => do
    match ← quotedPiece double c with
    | (none, c) => return ([], c)
    | (some piece, c) =>
      let (text, c) ← quotedBody double fuel c
      return (piece ++ text, c)

/-- A quoted scalar from its opening quote on. -/
def quotedScalar (double : Bool) (c : Cursor) : Attempt (Text × Cursor) :=
  quotedBody double (c.rest.length + 1) c.next

/-- What becomes of the line ends after a block scalar. -/
inductive Chomping where
  | strip
  | clip
  | keep
  deriving DecidableEq, Repr

/-- A sign that says what becomes of the last line ends. -/
def chomping? (c : Cursor) : Option (Chomping × Cursor) :=
  match c.peek? with
  | some '+' => some (.keep, c.next)
  | some '-' => some (.strip, c.next)
  | _ => none

/-- A digit that says how far a block is indented; zero is refused. -/
def increment? (c : Cursor) : Option (Option Nat × Cursor) :=
  match c.peek? with
  | some ch =>
    if !ch.isDigit then some (none, c)
    else if ch == '0' then none
    else some (some (ch.toNat - '0'.toNat), c.next)
  | none => some (none, c)

/-- The sign and the digit after the mark of a block scalar, in either order. -/
def blockHeader (c : Cursor) : Option (Chomping × Option Nat × Cursor) :=
  match chomping? c with
  | some (chomping, c) => (increment? c).map fun (increment, c) => (chomping, increment, c)
  | none => do
    let (increment, c) ← increment? c
    match increment, chomping? c with
    | some n, some (chomping, c) => return (chomping, some n, c)
    | _, _ => return (.clip, increment, c)

/-- The rest of the line of a block header: spaces, a comment and the line end. -/
def headerEnd (c : Cursor) : Option Cursor :=
  if !(c.sees ' ' || c.endsLine) then none
  else
    let c := c.skipSpaces
    let c := if c.sees '#' then c.skipLine else c
    match c.lineBreak? with
    | some (_, c) => some c
    | none => if c.rest.isEmpty then some c else none

/-- Empty lines before a block of unknown indentation, and the greatest column among them. -/
def blockIndentation : (fuel : Nat) → Cursor → (breaks : List Char) → (widest : Nat) →
    List Char × Nat × Cursor
  | 0, c, breaks, widest => (breaks, widest, c)
  | fuel + 1, c, breaks, widest =>
    if c.sees ' ' then
      let c := c.next
      blockIndentation fuel c breaks (max widest c.column)
    else
      match c.lineBreak? with
      | some (ch, c) => blockIndentation fuel c (breaks ++ [ch]) widest
      | none => (breaks, widest, c)

/-- Spaces up to a column. -/
def spacesUpTo (indent : Nat) : (fuel : Nat) → Cursor → Cursor
  | 0, c => c
  | fuel + 1, c => if c.column < indent && c.sees ' ' then spacesUpTo indent fuel c.next else c

/-- Empty lines inside a block of a known indentation. -/
def blockBreaks (indent : Nat) : (fuel : Nat) → Cursor → (breaks : List Char) → List Char × Cursor
  | 0, c, breaks => (breaks, c)
  | fuel + 1, c, breaks =>
    let c := spacesUpTo indent (c.rest.length + 1) c
    match c.lineBreak? with
    | some (ch, c) => blockBreaks indent fuel c (breaks ++ [ch])
    | none => (breaks, c)

/-- Whether the line of a block begins with a space or a tab. -/
def beginsWithSpace (c : Cursor) : Bool := c.sees ' ' || c.sees '\t'

/-- The lines of a block after some empty ones, the last line end, and the empty lines after it. -/
def blockLines (folded : Bool) (indent : Nat) :
    (fuel : Nat) → (breaks : List Char) → Cursor → List Char × List Char × List Char × Cursor
  | 0, breaks, c => ([], [], breaks, c)
  | fuel + 1, breaks, c =>
    if c.column != indent || c.rest.isEmpty then ([], [], breaks, c)
    else
      let plainStart := !beginsWithSpace c
      let (content, c) := c.span fun ch => !isBreak ch
      let (lineEnd, c) :=
        match c.lineBreak? with
        | some (ch, c) => ([ch], c)
        | none => ([], c)
      let (after, c) := blockBreaks indent (c.rest.length + 1) c []
      if c.column != indent || c.rest.isEmpty then (breaks ++ content, lineEnd, after, c)
      else
        let joint :=
          if folded && lineEnd == ['\n'] && plainStart && !beginsWithSpace c then
            if after.isEmpty then [' '] else []
          else lineEnd
        let (more, lineEnd, tail, c) := blockLines folded indent fuel after c
        (breaks ++ content ++ joint ++ more, lineEnd, tail, c)

/-- A block scalar from its mark on, inside a block of the given indentation. -/
def blockScalar (folded : Bool) (parent : Int) (c : Cursor) : Option (List Char × Cursor) := do
  let (chomping, increment, c) ← blockHeader c.next
  let c ← headerEnd c
  let least := max 1 (parent + 1).toNat
  let fuel := c.rest.length + 1
  let (breaks, indent, c) :=
    match increment with
    | none =>
      let (breaks, widest, c) := blockIndentation fuel c [] 0
      (breaks, max least widest, c)
    | some n =>
      let indent := least + n - 1
      let (breaks, c) := blockBreaks indent fuel c []
      (breaks, indent, c)
  let (text, lineEnd, tail, c) := blockLines folded indent fuel breaks c
  return (match chomping with
    | .strip => text
    | .clip => text ++ lineEnd
    | .keep => text ++ lineEnd ++ tail, c)

end Landscape.Yaml
