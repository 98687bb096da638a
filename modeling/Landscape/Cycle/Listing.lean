import Landscape.Error
import Landscape.Model

/-!
# Listing all cycles

Every simple cycle of a model's graph, each once: it is listed from its least id on, and found as a
path from that id through greater ones that comes back. Cycles come in the order of their lists of
ids. A path is only extended to ids from which it can still come back, so that every extension leads
to a cycle, and the search for a limited number of cycles ends as soon as these are found.
-/

namespace Landscape

/-- A set of places in a list, as the bits of a number. -/
abbrev PlaceSet := Nat

namespace PlaceSet

/-- Whether a place is in a set. -/
def has (s : PlaceSet) (i : Nat) : Bool := Nat.testBit s i

/-- The set of one place. -/
def single (i : Nat) : PlaceSet := 1 <<< i

/-- A set with one more place. -/
def insert (s : PlaceSet) (i : Nat) : PlaceSet := s ||| single i

/-- A set without one place. -/
def erase (s : PlaceSet) (i : Nat) : PlaceSet := if s.has i then s ^^^ single i else s

/-- The places after one, up to a bound. -/
def between (i bound : Nat) : PlaceSet := ((1 <<< bound) - 1) ^^^ ((1 <<< (i + 1)) - 1)

end PlaceSet

/-- A graph on places: where the arcs of each place lead to and come from, in ascending order. -/
structure PlaceGraph where
  targets : Array (List Nat)
  sources : Array (List Nat)

namespace PlaceGraph

/-- The number of places. -/
def size (g : PlaceGraph) : Nat := g.targets.size

/-- Where the arcs of a place lead to. -/
def targetsOf (g : PlaceGraph) (i : Nat) : List Nat := g.targets.getD i []

/-- Where the arcs to a place come from. -/
def sourcesOf (g : PlaceGraph) (i : Nat) : List Nat := g.sources.getD i []

/--
Add to some places all others that lead to them through places of a given set; the places whose
sources are still to be looked at wait in a list.
-/
def gather (g : PlaceGraph) (through : PlaceSet) :
    (fuel : Nat) → (waiting : List Nat) → (found : PlaceSet) → PlaceSet
  | fuel + 1, i :: waiting, found =>
    let fresh := (g.sourcesOf i).filter fun j => through.has j && !found.has j
    gather g through fuel (fresh ++ waiting) (fresh.foldl PlaceSet.insert found)
  | _, _, found => found

/-- A place and all others that lead to it through places of a given set. -/
def leadingTo (g : PlaceGraph) (through : PlaceSet) (i : Nat) : PlaceSet :=
  g.gather through (g.size + 1) [i] (PlaceSet.single i)

end PlaceGraph

namespace CycleListing

/-- How many more may be found once some have been; no limit stays none. -/
def remaining (limit : Option Nat) (found : Nat) : Option Nat := limit.map (· - found)

/-- What is found for each item in turn, until the limit is reached. -/
def searchAll {α β : Type} (search : Option Nat → α → List β) :
    (limit : Option Nat) → List α → List β
  | _, [] => []
  | limit, a :: rest =>
    if limit == some 0 then []
    else
      let found := search limit a
      found ++ searchAll search (remaining limit found.length) rest

/--
The cycles that go on from a path, no more of them than the limit; the path is given from its end
back to the least place, with the places it may still go to.
-/
def extend (g : PlaceGraph) (least : Nat) :
    (fuel : Nat) → (limit : Option Nat) → (free : PlaceSet) → (path : List Nat) → List (List Nat)
  | fuel + 1, limit, free, current :: before =>
    let path := current :: before
    let next := g.targetsOf current
    let closed := if next.contains least && limit != some 0 then [path.reverse] else []
    let onward := next.filter free.has
    if onward.isEmpty then closed
    else
      let live := g.leadingTo free least
      closed ++ searchAll (fun limit i => extend g least fuel limit (free.erase i) (i :: path))
        (remaining limit closed.length) (onward.filter live.has)
  | _, _, _, _ => []

/-- The cycles from a least place on, no more of them than the limit. -/
def fromLeast (g : PlaceGraph) (limit : Option Nat) (least : Nat) : List (List Nat) :=
  extend g least g.size limit (PlaceSet.between least g.size) [least]

/-- The cycles of a graph, no more of them than the limit. -/
def ofGraph (g : PlaceGraph) (limit : Option Nat) : List (List Nat) :=
  searchAll (fromLeast g) limit (List.range g.size)

end CycleListing

namespace Model

/-- The ids of a model's graph in ascending order. -/
def sortedIds (m : Model) : List Text := (m.digraph.vertices.map Prod.fst).mergeSort (· ≤ ·)

/-- The graph of a model on the places of its ids in ascending order. -/
def placeGraph (m : Model) : PlaceGraph :=
  let g := m.digraph
  let ids := m.sortedIds
  let arcs := g.arcs.map fun arc => (ids.idxOf arc.1.1, ids.idxOf arc.1.2)
  let places := List.range ids.length
  {
    targets := (places.map fun i =>
      ((arcs.filter (·.1 == i)).map Prod.snd).mergeSort (· ≤ ·)).toArray
    sources := (places.map fun i =>
      ((arcs.filter (·.2 == i)).map Prod.fst).mergeSort (· ≤ ·)).toArray }

/-- The simple cycles of a model in ascending order, no more of them than the limit. -/
def listCycles (m : Model) (limit : Option Nat) : List (List Text) :=
  let ids := m.sortedIds.toArray
  (CycleListing.ofGraph m.placeGraph limit).map fun cycle => cycle.map fun i => ids.getD i []

/-- All simple cycles of a model, each from its least id on, in ascending order. -/
def cycles (m : Model) : List (List Text) := m.listCycles none

/-- The greatest limit that can be set. -/
def maxLimit : Int := Int64.maxValue.toInt

/-- At most so many of the cycles; no limit gives all. -/
def cyclesUpTo (m : Model) (limit : Option Int) : Except Error (List (List Text)) :=
  match limit with
  | none => .ok m.cycles
  | some limit =>
    if limit < 0 || maxLimit < limit then .error .negativeLimit
    else .ok (m.listCycles (some limit.toNat))

end Model

end Landscape
