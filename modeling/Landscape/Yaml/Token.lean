import Landscape.Yaml.Property

/-!
# Tokens of a YAML text

A text is cut into tokens: scalars, properties of nodes, marks, and the beginnings and ends of
blocks, which follow from the indentation. A key on one line is recognised only when its colon is
reached; the token that marks the key is then put before the tokens of the key itself. Tokens are
settled once no mark can come before them any more.
-/

namespace Landscape.Yaml

/-- A token of a text. -/
inductive Token where
  | directive (d : Directive)
  | documentStart
  | documentEnd
  | listBlock
  | recordBlock
  | blockEnd
  | listOpen
  | listClose
  | recordOpen
  | recordClose
  | comma
  | item
  | key
  | value
  | alias (name : String)
  | anchor (name : String)
  | tag (t : Tag)
  | scalar (text : Text) (plain : Bool)
  | textEnd
  deriving DecidableEq, Repr

/-- A place where a key may have begun: how many tokens stand before it, and where it is. -/
structure Candidate where
  tokens : Nat
  required : Bool
  start : Cursor

/-- What the tokens so far leave open. -/
structure Scan where
  cursor : Cursor
  /-- The tokens, the last one first. -/
  tokens : List Token := []
  /-- How many tokens there are. -/
  count : Nat := 0
  /-- The columns of the open blocks, innermost first. -/
  blocks : List Nat := []
  /-- The candidates of the brackets around the present ones. -/
  outer : List (Option Candidate) := []
  candidate : Option Candidate := none
  /-- Whether a key may begin here. -/
  keyAllowed : Bool := true

namespace Scan

/-- Whether the place is inside brackets. -/
def inFlow (s : Scan) : Bool := !s.outer.isEmpty

/-- The column of the innermost block, or the one before the first. -/
def indent (s : Scan) : Int := (s.blocks.head?.map Int.ofNat).getD (-1)

/-- Add a token and go on elsewhere. -/
def emit (s : Scan) (t : Token) (c : Cursor) : Scan :=
  { s with tokens := t :: s.tokens, count := s.count + 1, cursor := c }

/-- Put tokens, the last one first, before those of a candidate. -/
def insert (s : Scan) (place : Nat) (ts : List Token) : Scan :=
  let later := s.count - place
  { s with
    tokens := s.tokens.take later ++ ts ++ s.tokens.drop later, count := s.count + ts.length }

/-- Begin a block at a column if it lies deeper than the innermost one. -/
def openBlock (s : Scan) (column : Nat) : Option Scan :=
  if s.indent < column then some { s with blocks := column :: s.blocks } else none

/-- The blocks that are still open at a column, and how many end before it. -/
def closing (column : Int) : List Nat → List Nat × Nat
  | [] => ([], 0)
  | block :: rest =>
    if column < block then (closing column rest).map id (· + 1) else (block :: rest, 0)

/-- End the blocks that lie deeper than a column; brackets keep them open. -/
def closeBlocks (s : Scan) (column : Int) : Scan :=
  if s.inFlow then s
  else
    let (blocks, ended) := closing column s.blocks
    { s with
      blocks, tokens := List.replicate ended .blockEnd ++ s.tokens, count := s.count + ended }

/-- Give up the candidate; one that had to become a key is an error. -/
def dropCandidate (s : Scan) : Attempt Scan :=
  if s.candidate.any (·.required) then .error .malformed else .ok { s with candidate := none }

/-- Note that a key may begin here. -/
def noteCandidate (s : Scan) : Attempt Scan :=
  if !s.keyAllowed then .ok s
  else do
    let required := !s.inFlow && s.indent == s.cursor.column
    let s ← s.dropCandidate
    return { s with candidate := some ⟨s.count, required, s.cursor⟩ }

/-- The longest key on one line. -/
def maxKeyLength : Nat := 1024

/-- Whether a candidate is too far back to be a key. -/
def isStale (c : Cursor) (candidate : Candidate) : Bool :=
  candidate.start.line != c.line || maxKeyLength < c.index - candidate.start.index

/-- Give up all candidates that are too far back. -/
def dropStale (s : Scan) : Attempt Scan :=
  let stale := (s.candidate :: s.outer).filterMap fun o => o.filter (isStale s.cursor)
  if stale.any (·.required) then .error .malformed
  else
    let keep := fun (o : Option Candidate) => o.filter fun c => !isStale s.cursor c
    .ok { s with candidate := keep s.candidate, outer := s.outer.map keep }

/-- The tokens before every candidate. -/
def settled (s : Scan) : List Token :=
  let places := (s.candidate :: s.outer).filterMap fun o => o.map (·.tokens)
  (s.tokens.drop (s.count - places.foldl min s.count)).reverse

/-- Go to the next token: over spaces, comments and line ends. -/
def skipGaps : (fuel : Nat) → Scan → Scan
  | 0, s => s
  | fuel + 1, s =>
    let c := s.cursor.skipSpaces
    let c := if c.sees '#' then c.skipLine else c
    match c.lineBreak? with
    | none => { s with cursor := c }
    | some (_, c) => skipGaps fuel { s with cursor := c, keyAllowed := s.keyAllowed || !s.inFlow }

/-- A token between documents. -/
def document (read : Cursor → Attempt (Token × Cursor)) (s : Scan) : Attempt Scan := do
  let s ← (s.closeBlocks (-1)).dropCandidate
  let (t, c) ← read s.cursor
  return { s with keyAllowed := false }.emit t c

/-- A mark of three characters between documents. -/
def separator (t : Token) : Scan → Attempt Scan := document fun c => .ok (t, c.skip 3)

/-- An opening bracket. -/
def openFlow (t : Token) (s : Scan) : Attempt Scan := do
  let s ← s.noteCandidate
  return { s with
    outer := s.candidate :: s.outer, candidate := none, keyAllowed := true }.emit t s.cursor.next

/-- A closing bracket. -/
def closeFlow (t : Token) (s : Scan) : Attempt Scan :=
  match s.outer with
  | [] => .error .malformed
  | candidate :: outer =>
    .ok ({ s with candidate, outer, keyAllowed := false }.emit t s.cursor.next)

/-- Begin a block here if it is deeper; inside brackets there are none. -/
def enterBlock (t : Token) (s : Scan) : Attempt Scan :=
  if s.inFlow then .ok s
  else if !s.keyAllowed then .error .malformed
  else
    match s.openBlock s.cursor.column with
    | some s => .ok (s.emit t s.cursor)
    | none => .ok s

/-- A comma between brackets. -/
def comma (s : Scan) : Attempt Scan := do
  let s ← s.dropCandidate
  return { s with keyAllowed := true }.emit .comma s.cursor.next

/-- The dash of an item. -/
def item (s : Scan) : Attempt Scan := do
  let s ← (← s.enterBlock .listBlock).dropCandidate
  return { s with keyAllowed := true }.emit .item s.cursor.next

/-- The mark of an explicit key. -/
def key (s : Scan) : Attempt Scan := do
  let s ← (← s.enterBlock .recordBlock).dropCandidate
  return { s with keyAllowed := !s.inFlow }.emit .key s.cursor.next

/-- A colon: the candidate becomes a key, or the value has an explicit key. -/
def value (s : Scan) : Attempt Scan :=
  match s.candidate with
  | some candidate =>
    let s := { s with candidate := none, keyAllowed := false }
    let s :=
      match (if s.inFlow then none else s.openBlock candidate.start.column) with
      | some s => s.insert candidate.tokens [.key, .recordBlock]
      | none => s.insert candidate.tokens [.key]
    .ok (s.emit .value s.cursor.next)
  | none => do
    let s ← (← s.enterBlock .recordBlock).dropCandidate
    return { s with keyAllowed := !s.inFlow }.emit .value s.cursor.next

/-- A token with which a key may begin. -/
def leaf (read : Cursor → Attempt (Token × Cursor)) (s : Scan) : Attempt Scan := do
  let s ← s.noteCandidate
  let (t, c) ← read s.cursor
  return { s with keyAllowed := false }.emit t c

/-- A scalar between quotes. -/
def quoted (double : Bool) : Scan → Attempt Scan :=
  leaf fun c => (quotedScalar double c).map fun (text, c) => (.scalar text false, c)

/-- A plain scalar; a key may follow when it ends with its line. -/
def plain (s : Scan) : Attempt Scan := do
  let s ← s.noteCandidate
  let (text, crossed, c) := plainScalar s.inFlow (s.indent + 1) s.cursor
  return { s with keyAllowed := crossed }.emit (.scalar (Text.ofChars text) true) c

/-- A scalar as an indented block. -/
def block (folded : Bool) (s : Scan) : Attempt Scan := do
  let s ← s.dropCandidate
  let (text, c) ← orMalformed (blockScalar folded s.indent s.cursor)
  return { s with keyAllowed := true }.emit (.scalar (Text.ofChars text) false) c

/-- Marks that begin no plain scalar. -/
def marks : List Char := "-?:,[]\x7b\x7d#&*!|>'\"%@`".toList

/-- Whether a plain scalar begins here. -/
def beginsPlain (s : Scan) (ch : Char) : Bool :=
  if !isGap ch && !marks.contains ch then true
  else !s.cursor.endsWord 1 && (ch == '-' || (!s.inFlow && (ch == '?' || ch == ':')))

/-- A name after its mark, as a token. -/
def named (toToken : String → Token) : Scan → Attempt Scan :=
  leaf fun c => (orMalformed (nodeName c)).map fun (name, c) => (toToken name, c)

/-- The token that begins with a character. -/
def token (s : Scan) (ch : Char) : Attempt Scan :=
  let c := s.cursor
  let atLineStart := c.column == 0
  let apart := s.inFlow || c.endsWord 1
  if ch == '%' && atLineStart then
    document (fun c => (directive c).map fun (d, c) => (.directive d, c)) s
  else if atLineStart && c.seesMark ['-', '-', '-'] then separator .documentStart s
  else if atLineStart && c.seesMark ['.', '.', '.'] then separator .documentEnd s
  else if ch == '[' then openFlow .listOpen s
  else if ch == '\x7b' then openFlow .recordOpen s
  else if ch == ']' then closeFlow .listClose s
  else if ch == '\x7d' then closeFlow .recordClose s
  else if ch == ',' then comma s
  else if ch == '-' && c.endsWord 1 then item s
  else if ch == '?' && apart then key s
  else if ch == ':' && apart then value s
  else if ch == '*' then named .alias s
  else if ch == '&' then named .anchor s
  else if ch == '!' then
    leaf (fun c => (orMalformed (Yaml.tag c)).map fun (t, c) => (.tag t, c)) s
  else if ch == '|' && !s.inFlow then block false s
  else if ch == '>' && !s.inFlow then block true s
  else if ch == '\'' then quoted false s
  else if ch == '"' then quoted true s
  else if s.beginsPlain ch then plain s
  else .error .malformed

/--
Go on by one token or, at the end of the text, by the last ones; `fuel` bounds the lines that are
passed over.
-/
def advance (fuel : Nat) (s : Scan) : Attempt Scan := do
  let s := skipGaps fuel s
  let s ← s.dropStale
  let s := s.closeBlocks s.cursor.column
  match s.cursor.peek? with
  | none => return (← (s.closeBlocks (-1)).dropCandidate).emit .textEnd s.cursor
  | some ch => s.token ch

/-- Whether the last token has been reached. -/
def isOver (s : Scan) : Bool := s.tokens.head? == some .textEnd

end Scan

/-- The tokens of a text, up to its end or to a failure that is not one of the grammar. -/
structure TokenStream where
  tokens : List Token
  failure : Option Error := none

namespace Scan

/-- All further tokens. Each takes at least one character, so that the fuel outlasts the text. -/
def run : (fuel : Nat) → Scan → Attempt TokenStream
  | 0, _ => .error .malformed
  | fuel + 1, s => do
    let s ← s.dropStale
    match s.advance (fuel + 1) with
    | .error .malformed => throw .malformed
    | .error (.failure e) => return ⟨s.settled, some e⟩
    | .ok next => if next.isOver then return ⟨next.tokens.reverse, none⟩ else run fuel next

end Scan

/-- Whether a character may stand in a text. -/
def isAllowed (c : Char) : Bool :=
  c == '\t' || c == '\n' || c == '\r' || (' ' ≤ c && c ≤ '~') || c.toNat == 0x85
    || (0xa0 ≤ c.toNat && c.toNat ≤ 0xfffd) || 0x10000 ≤ c.toNat

/-- The tokens of a text, if it can be cut into some. -/
def TokenStream.ofChars (cs : List Char) : Attempt TokenStream :=
  if !cs.all isAllowed then .error .malformed
  else
    let start : Cursor := ⟨cs, 0, 0, 0⟩
    let start := if start.sees byteOrderMark then start.next else start
    Scan.run (cs.length + 2) { cursor := start }

end Landscape.Yaml
