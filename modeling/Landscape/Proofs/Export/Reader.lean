import Landscape.Text.Symbol

/-!
# A reader of graphs

How a text in the DOT language is taken. Symbol by symbol it is split into tokens: a quoted string
ends at the first quote that no backslash escapes and stands for its text without the backslashes
before quotes and backslashes; a comment begins with two slashes outside of strings and ends with
its line. Then the tokens are put together as statements. Whatever is neither in a string nor in a
comment counts, so that a text which leaves either of them shows up in the graph.
-/

namespace Landscape.Dot

/-- What a graph is written with. -/
inductive Token where
  | word (t : Text)
  | quoted (t : Text)
  /-- What joins the ends of an edge, in a directed graph or in another one. -/
  | join (directed : Bool)
  | mark (c : Char)
  deriving DecidableEq, Repr

/-- Where a reader is: outside of strings with the word so far, if any, behind a dash or a slash
there, in a string with what it holds so far, behind a backslash there, or in a comment. -/
inductive Mode where
  | plain (word : Text)
  | dash (word : Text)
  | slash (word : Text)
  | string (inside : Text)
  | escape (inside : Text)
  | comment
  deriving DecidableEq, Repr

/-- The symbols that are tokens by themselves. -/
def marks : List Char := ['\x7b', '\x7d', '[', ']', '=', ',', ';']

/-- The token of a word that ends, if there is one. -/
def wordIfAny (word : Text) : List Token := if word.isEmpty then [] else [.word word]

/-- Take a symbol outside of strings, where two dashes or slashes in a row have been looked for. -/
def stepPlain (word : Text) (s : Symbol) : Mode × List Token :=
  match s with
  | .half _ => (.plain (word ++ [s]), [])
  | .char c =>
    if c = '"' then (.string [], wordIfAny word)
    else if c = '-' then (.dash word, [])
    else if c = '/' then (.slash word, [])
    else if c.isWhitespace then (.plain [], wordIfAny word)
    else if c ∈ marks then (.plain [], wordIfAny word ++ [.mark c])
    else (.plain (word ++ [s]), [])

/-- Take a symbol; the tokens that end with it. -/
def step (mode : Mode) (s : Symbol) : Mode × List Token :=
  match mode with
  | .plain word => stepPlain word s
  | .dash word =>
    if s = .char '>' then (.plain [], wordIfAny word ++ [.join true])
    else if s = .char '-' then (.plain [], wordIfAny word ++ [.join false])
    else stepPlain (word ++ [.char '-']) s
  | .slash word =>
    if s = .char '/' then (.comment, wordIfAny word) else stepPlain (word ++ [.char '/']) s
  | .string inside =>
    if s = .char '"' then (.plain [], [.quoted inside])
    else if s = .char '\\' then (.escape inside, [])
    else (.string (inside ++ [s]), [])
  | .escape inside =>
    if s = .char '"' ∨ s = .char '\\' then (.string (inside ++ [s]), [])
    else (.string (inside ++ [.char '\\', s]), [])
  | .comment => if s = .char '\n' then (.plain [], []) else (.comment, [])

/-- Take the symbols of a text. -/
def run (mode : Mode) : Text → Mode × List Token
  | [] => (mode, [])
  | s :: t => ((run (step mode s).1 t).1, (step mode s).2 ++ (run (step mode s).1 t).2)

/-- What the end of a text adds; within a string it may not end. -/
def Mode.atEnd? : Mode → Option (List Token)
  | .plain word => some (wordIfAny word)
  | .dash word => some [.word (word ++ [.char '-'])]
  | .slash word => some [.word (word ++ [.char '/'])]
  | .comment => some []
  | .string _ | .escape _ => none

/-- The tokens of a text. -/
def tokens? (t : Text) : Option (List Token) :=
  (run (.plain []) t).1.atEnd?.map ((run (.plain []) t).2 ++ ·)

/-- What a list in brackets says, in its order. -/
abbrev Attributes := List (Text × Text)

/-- A statement of a graph. -/
inductive Statement where
  | setting (name value : Text)
  | defaults (sort : Text) (attributes : Attributes)
  | node (id : Text) (attributes : Attributes)
  | edge (source target : Text) (attributes : Attributes)
  deriving DecidableEq, Repr

/-- A graph as it is written. -/
structure Graph where
  directed : Bool
  name : Text
  statements : List Statement
  deriving DecidableEq, Repr

/-- The text of a token that may stand as a name. -/
def Token.text? : Token → Option Text
  | .word t | .quoted t => some t
  | .join _ | .mark _ => none

/-- What stands up to a closing bracket, and what follows it. -/
def attributes? : List Token → Option (Attributes × List Token)
  | .mark ']' :: rest => some ([], rest)
  | .mark ',' :: rest | .mark ';' :: rest => attributes? rest
  | name :: .mark '=' :: value :: rest => do
    let name ← name.text?
    let value ← value.text?
    let (more, rest) ← attributes? rest
    return ((name, value) :: more, rest)
  | _ => none

/-- A list in brackets where there is one, and what follows it. -/
def attributesIfAny? : List Token → Option (Attributes × List Token)
  | .mark '[' :: rest => attributes? rest
  | rest => some ([], rest)

/-- The words that begin a statement on all that follow. -/
def sorts : List Text := ["graph", "node", "edge"]

/-- A statement, and what follows it. -/
def statement? (directed : Bool) : List Token → Option (Statement × List Token)
  | name :: .mark '=' :: value :: rest => do
    return (.setting (← name.text?) (← value.text?), rest)
  | source :: .join arrow :: target :: rest => do
    guard (arrow = directed)
    let (attributes, rest) ← attributesIfAny? rest
    return (.edge (← source.text?) (← target.text?) attributes, rest)
  | .word t :: rest => do
    let (attributes, rest) ← attributesIfAny? rest
    return (if t ∈ sorts then .defaults t attributes else .node t attributes, rest)
  | .quoted t :: rest => do
    let (attributes, rest) ← attributesIfAny? rest
    return (.node t attributes, rest)
  | _ => none

/-- The statements up to a closing brace, and what follows it. -/
def statements? (directed : Bool) (tokens : List Token) :
    Option (List Statement × List Token) :=
  match tokens with
  | [] => none
  | t :: rest =>
    if t = .mark '\x7d' then some ([], rest)
    else if t = .mark ';' then statements? directed rest
    else
      match statement? directed (t :: rest) with
      | none => none
      | some (s, left) =>
        if left.length ≤ rest.length then
          (statements? directed left).map fun (more, left) => (s :: more, left)
        else none
termination_by tokens.length
decreasing_by all_goals simp only [List.length_cons]; omega

/-- The graph of a text. -/
def Graph.read (t : Text) : Option Graph := do
  match ← tokens? t with
  | .word sort :: name :: .mark '\x7b' :: rest =>
    let directed := sort == "digraph"
    guard (directed || sort == "graph")
    let (statements, []) ← statements? directed rest | none
    return { directed, name := ← name.text?, statements }
  | _ => none

end Landscape.Dot
