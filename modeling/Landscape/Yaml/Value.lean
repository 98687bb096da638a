import Landscape.Yaml.Atom

/-!
# Values of YAML texts

What a text says, as a tree: lists, pairs in order, sets, and records that are named by atoms. A
list or a record that stands inside itself is a loop.
-/

namespace Landscape.Yaml

/-- What brackets a value has when it is spelled. -/
inductive Brackets where
  | square
  | curly
  deriving DecidableEq, Repr

/-- A value. -/
inductive Value where
  | atom (a : Atom)
  | list (items : List Value)
  | pairs (items : List (Value × Value))
  | set (items : List Atom)
  | record (fields : List (Atom × Value))
  | loop (brackets : Brackets)

namespace Value

instance : Inhabited Value := ⟨.atom (.scalar .null)⟩

/-- Words between brackets. -/
def bracketed (brackets : Brackets) (words : List String) : String :=
  let inside := ", ".intercalate words
  match brackets with
  | .square => "[" ++ inside ++ "]"
  | .curly => "\x7b" ++ inside ++ "\x7d"

/-- How a set is spelled. -/
def shownSet (items : List Atom) : Except Error String := do
  if items.isEmpty then return "set()"
  return bracketed .curly (← items.mapM Atom.shown)

mutual

/-- How a value is spelled, if all integers in it can be written. -/
def shown : Value → Except Error String
  | .atom a => a.shown
  | .list items => return bracketed .square (← shownItems items)
  | .pairs items => return bracketed .square (← shownPairs items)
  | .set items => shownSet items
  | .record fields => return bracketed .curly (← shownFields fields)
  | .loop brackets => return bracketed brackets ["..."]

/-- How the items of a list are spelled. -/
def shownItems : List Value → Except Error (List String)
  | [] => return []
  | x :: xs => do
    let word ← x.shown
    return word :: (← shownItems xs)

/-- How pairs are spelled. -/
def shownPairs : List (Value × Value) → Except Error (List String)
  | [] => return []
  | (x, y) :: rest => do
    let first ← x.shown
    let second ← y.shown
    return ("(" ++ first ++ ", " ++ second ++ ")") :: (← shownPairs rest)

/-- How the fields of a record are spelled. -/
def shownFields : List (Atom × Value) → Except Error (List String)
  | [] => return []
  | (name, x) :: rest => do
    let name ← name.shown
    let word ← x.shown
    return (name ++ ": " ++ word) :: (← shownFields rest)

end

end Value

end Landscape.Yaml
