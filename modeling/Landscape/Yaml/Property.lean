import Landscape.Text.Utf8
import Landscape.Yaml.Scalar

/-!
# Names, tags and directives of a YAML text

A node may carry an anchor by which it is repeated later, and a tag that names its type, and a
document may begin with directives. Every function gives what it read and the place after it.
-/

namespace Landscape.Yaml

/-- Characters of the names of anchors and of the handles of tags. -/
def isNameChar (c : Char) : Bool := c.isAlphanum || c == '-' || c == '_'

/-- A name after its mark; only some characters may follow. -/
def nodeName (c : Cursor) : Option (String × Cursor) :=
  let (name, c) := c.next.span isNameChar
  let closed := (c.peek? 0).all fun ch => isGap ch || "?:,]\x7d%@`".toList.contains ch
  if name.isEmpty || !closed then none else some (String.ofList name, c)

/-- The tag of a node: a suffix after one of the handles that a document knows, or in full. -/
structure Tag where
  handle : Option String
  suffix : String
  deriving DecidableEq, Repr

/-- Characters of the suffix of a tag, apart from escapes. -/
def isTagChar (c : Char) : Bool := c.isAlphanum || "-;/?:@&=+$,_.!~*'()[]".toList.contains c

/-- Bytes written as escapes with two hexadecimal digits. -/
def escapedBytes : (fuel : Nat) → Cursor → Option (List UInt8 × Cursor)
  | 0, c => some ([], c)
  | fuel + 1, c =>
    if !c.sees '%' then some ([], c)
    else do
      let digits := c.next.rest.take 2
      if digits.length < 2 then none
      else
        let n ← hexNumber? digits
        let (bytes, c) ← escapedBytes fuel (c.skip 3)
        return (n.toUInt8 :: bytes, c)

/-- The suffix of a tag, which may be empty here. -/
def tagPieces : (fuel : Nat) → Cursor → Option (List Char × Cursor)
  | 0, c => some ([], c)
  | fuel + 1, c => do
    let (run, c) := c.span isTagChar
    if c.sees '%' then
      let (bytes, c) ← escapedBytes (c.rest.length + 1) c
      let text ← (Text.decodeUtf8 bytes).toOption
      let (more, c) ← tagPieces fuel c
      return (run ++ text ++ more, c)
    else return (run, c)

/-- The suffix of a tag. -/
def tagSuffix (c : Cursor) : Option (String × Cursor) := do
  let (text, c) ← tagPieces (c.rest.length + 1) c
  if text.isEmpty then none else return (String.ofList text, c)

/-- The handle of a tag: a mark alone, or a name between two. -/
def tagHandle (c : Cursor) : Option (String × Cursor) :=
  if !c.sees '!' then none
  else if c.peek? 1 == some ' ' then some ("!", c.next)
  else
    let (name, after) := c.next.span isNameChar
    if after.sees '!' then some ("!" ++ String.ofList name ++ "!", after.next) else none

/-- Whether a space, a line end or the end of the text comes next. -/
def endsTag (c : Cursor) : Bool := c.sees ' ' || c.endsLine

/-- A tag from its mark on. -/
def tag (c : Cursor) : Option (Tag × Cursor) := do
  let (tag, c) ←
    if c.peek? 1 == some '<' then do
      let (suffix, c) ← tagSuffix (c.skip 2)
      if c.sees '>' then some ((⟨none, suffix⟩ : Tag), c.next) else none
    else if c.endsWord 1 then some ((⟨none, "!"⟩ : Tag), c.next)
    else do
      let word := c.next.rest.takeWhile fun ch => ch != ' ' && !isBreak ch
      let (handle, c) ← if word.contains '!' then tagHandle c else some ("!", c.next)
      let (suffix, c) ← tagSuffix c
      pure (⟨some handle, suffix⟩, c)
  if endsTag c then return (tag, c) else none

/-- What stands before a document. -/
inductive Directive where
  | version (major : Nat)
  | handle (name meaning : String)
  | reserved
  deriving DecidableEq, Repr

/-- A decimal number, which may have too many digits. -/
def number (c : Cursor) : Attempt (Nat × Cursor) :=
  let (digits, c) := c.span Char.isDigit
  if digits.isEmpty then .error .malformed
  else if Number.maxDigits < digits.length then
    .error (.failure (.numeral (.tooLong digits.length)))
  else .ok (digits.foldl (fun n d => 10 * n + (d.toNat - '0'.toNat)) 0, c)

/-- The version of the language. -/
def versionDirective (c : Cursor) : Attempt (Directive × Cursor) := do
  let (major, c) ← number c.skipSpaces
  if !c.sees '.' then throw .malformed
  let (_, c) ← number c.next
  if !endsTag c then throw .malformed
  return (.version major, c)

/-- A handle of tags and what it stands for. -/
def handleDirective (c : Cursor) : Option (Directive × Cursor) := do
  let (name, c) ← tagHandle c.skipSpaces
  if !c.sees ' ' then none
  else
    let (meaning, c) ← tagSuffix c.skipSpaces
    if endsTag c then return (.handle name meaning, c) else none

/-- A directive from its mark on, with the rest of its line. -/
def directive (c : Cursor) : Attempt (Directive × Cursor) := do
  let (name, c) := c.next.span isNameChar
  if name.isEmpty || !endsTag c then throw .malformed
  let (directive, c) ←
    match String.ofList name with
    | "YAML" => versionDirective c
    | "TAG" => orMalformed (handleDirective c)
    | _ => pure (.reserved, c.skipLine)
  let c ← orMalformed (headerEnd c)
  return (directive, c)

end Landscape.Yaml
