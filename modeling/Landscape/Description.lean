import Landscape.Model
import Landscape.Text.Classes
import Landscape.Text.Word

/-!
# Architecture descriptions

A description is a text in which some lines declare elements and relations:

    system Shop "Shop"
    container Api "API gateway" "HTTP"
    person Clerk "Clerk"
    Clerk -> Api "asks"

Each sort of statement is looked for on its own, from the first line to the last, and the elements
are listed by sort: containers, components, persons, systems. A text that begins no statement is
passed over. Blanks between the words of a statement may include line ends.
-/

namespace Landscape.Description

open Landscape.Text

/-- At least one blank; what follows the blanks. -/
def blanks? : Text → Option Text
  | [] => none
  | s :: rest => if s.isA isBlank then some (skipBlanks rest) else none

/-- The word at the beginning, and what follows it. -/
def word? (t : Text) : Option (Text × Text) :=
  match t.takeWhile (·.isA isWord) with
  | [] => none
  | word => some (word, t.dropWhile (·.isA isWord))

/-- A given text at the beginning; what follows it. -/
def literal? : (expected : Text) → Text → Option Text
  | [], t => some t
  | e :: expected, s :: rest => if e == s then literal? expected rest else none
  | _ :: _, [] => none

/-- A text between double quotes that is not empty, and what follows the closing quote. -/
def quoted? : Text → Option (Text × Text)
  | .char '"' :: rest =>
    match rest.takeWhile (· != .char '"'), rest.dropWhile (· != .char '"') with
    | [], _ | _, [] => none
    | inside, _ :: rest => some (inside, rest)
  | _ => none

/-- Blanks and a quoted text where they stand; otherwise nothing is taken. -/
def optionalQuoted (t : Text) : Option Text × Text :=
  match (blanks? t).bind quoted? with
  | some (inside, rest) => (some inside, rest)
  | none => (none, t)

/-- What a declaration says: an id, a name and perhaps a technology. -/
structure Declaration where
  id : Text
  name : Text
  technology : Option Text
  deriving DecidableEq, Repr

/-- What a relation says: two ids and perhaps a label. -/
structure Arrow where
  source : Text
  target : Text
  label : Option Text
  deriving DecidableEq, Repr

/-- A declaration that begins with a keyword, at the beginning of a text. -/
def declaration? (keyword : Text) (withTechnology : Bool) (t : Text) :
    Option (Declaration × Text) := do
  let rest ← literal? keyword (skipBlanks t)
  let (id, rest) ← word? (← blanks? rest)
  let (name, rest) ← quoted? (← blanks? rest)
  let (technology, rest) := if withTechnology then optionalQuoted rest else (none, rest)
  return (⟨id, name, technology⟩, rest)

/-- A relation at the beginning of a text. -/
def arrow? (t : Text) : Option (Arrow × Text) := do
  let (source, rest) ← word? (skipBlanks t)
  let rest ← literal? "->" (skipBlanks rest)
  let (target, rest) ← word? (skipBlanks rest)
  let (label, rest) := optionalQuoted rest
  return (⟨source, target, label⟩, rest)

/--
Every statement that begins at the beginning of a line, each search going on where the last
statement ended. No statement ends with a line feed, so none begins right where another ended.
-/
def scan {α : Type} (statement? : Text → Option (α × Text)) (atLineStart : Bool)
    (t : Text) : List α :=
  match t with
  | [] => []
  | s :: rest =>
    match if atLineStart then statement? (s :: rest) else none with
    | none => scan statement? (s == .char '\n') rest
    | some (a, tail) =>
      if tail.length ≤ rest.length then a :: scan statement? false tail else [a]
termination_by t.length
decreasing_by all_goals simp only [List.length_cons]; omega

/-- The keyword of a kind, and whether its declarations may name a technology. -/
def keyword : Kind → Text × Bool
  | .system => ("system", false)
  | .container => ("container", true)
  | .component => ("component", true)
  | .person => ("person", false)

/-- The order in which the kinds are listed. -/
def kindOrder : List Kind := [.container, .component, .person, .system]

/-- The declarations of a kind in a text. -/
def declarations (kind : Kind) (t : Text) : List Declaration :=
  scan (declaration? (keyword kind).1 (keyword kind).2) true t

/-- The relations in a text. -/
def arrows (t : Text) : List Arrow := scan arrow? true t

/-- The element that a declaration declares. -/
def Declaration.toElement (kind : Kind) (d : Declaration) : Element where
  id := d.id
  name := d.name
  kind := kind
  technology := d.technology.map .text

/-- The relation that an arrow declares. -/
def Arrow.toRelation (a : Arrow) : Relation where
  source := a.source
  target := a.target
  label := a.label.map .text

/-- The model that a text describes. -/
def parse (t : Text) : Model where
  elements := kindOrder.flatMap fun kind => (declarations kind t).map (Declaration.toElement kind)
  relations := (arrows t).map Arrow.toRelation

end Landscape.Description
