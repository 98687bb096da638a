import Landscape.Digest.Sha256
import Landscape.Json.Conversion
import Landscape.Model
import Landscape.Number.Root

/-!
# The quality of a layout

A layout is better the fewer of its relations cross and the fewer of its elements are too close. Two
relations cross when their straight segments meet in one inner point of both; relations that share an
end are not compared. A fingerprint tells which graph a score belongs to.
-/

namespace Landscape.Layout

/-- Twice the signed area of a triangle: positive when it is walked around to the left. -/
def orientation {α : Type} [Sub α] [Mul α] (a b c : Point α) : α :=
  (b.x - a.x) * (c.y - a.y) - (b.y - a.y) * (c.x - a.x)

/-- Whether two segments cross: the ends of each lie strictly on different sides of the other. -/
def segmentsCross {α : Type} [Sub α] [Mul α] [OfNat α 0] [LT α] [DecidableLT α]
    (p₁ p₂ q₁ q₂ : Point α) : Bool :=
  orientation q₁ q₂ p₁ * orientation q₁ q₂ p₂ < 0 && orientation p₁ p₂ q₁ * orientation p₁ p₂ q₂ < 0

/-- A relation drawn as a straight segment. -/
structure Segment where
  source : Text
  target : Text
  first : Point Float
  last : Point Float

/-- The positions of the elements that have one; the first of those with one id counts. -/
def positionsById (m : Model) : List (Text × Point Float) :=
  m.elements.foldl
    (fun found e =>
      match e.position with
      | some p => Entries.add found e.id p
      | none => found)
    []

/-- The segment of a relation, unless it is a loop or an end of it has no position. -/
def segment? (positions : List (Text × Point Float)) (r : Relation) : Option Segment := do
  if r.isLoop then none
  let first ← positions.lookup r.source
  let last ← positions.lookup r.target
  return ⟨r.source, r.target, first, last⟩

/-- The segments of a model's relations, in order. -/
def segments (m : Model) : List Segment := m.relations.filterMap (segment? (positionsById m))

/-- Whether two segments have an end in common. -/
def Segment.sharesEnd (s t : Segment) : Bool :=
  s.source == t.source || s.source == t.target || s.target == t.source || s.target == t.target

/-- Whether two segments count as crossing. -/
def Segment.crosses (s t : Segment) : Bool :=
  !s.sharesEnd t && segmentsCross s.first s.last t.first t.last

/-- The pairs of a list, each item with every later one. -/
def pairs {α : Type} : List α → List (α × α)
  | [] => []
  | a :: rest => rest.map (a, ·) ++ pairs rest

/-- How many pairs of segments cross. -/
def crossings (m : Model) : Nat := (pairs (segments m)).countP fun (s, t) => s.crosses t

/-- The distance between two places. -/
def distance (p q : Point Float) : Float := Number.hypotenuse (p.x - q.x) (p.y - q.y)

/-- The pairs of the positions of a model's elements. -/
def positionPairs (m : Model) : List (Point Float × Point Float) :=
  pairs (m.elements.filterMap (·.position))

/-- What two elements lack to the least distance. -/
def shortfall (least : Float) (p q : Point Float) : Option Float :=
  let distance := distance p q
  if distance < least then some (least - distance) else none

/-- What all pairs of elements lack to the least distance. -/
def overlapPenalty (m : Model) (least : Float) : Float :=
  (positionPairs m).foldl
    (fun sum (p, q) =>
      match shortfall least p q with
      | some x => sum + x
      | none => sum)
    0.0

/--
What all pairs of elements lack to a least distance that may be any number. An integer beyond the
doubles is either greater than every finite distance or less than all of them; the difference to a
finite one cannot be told.
-/
def penaltyOf (m : Model) (least : Json) : Except Error Float :=
  match least, least.toFloat with
  | _, .ok x => .ok (overlapPenalty m x)
  | .int n, .error e =>
    if 0 < n && (positionPairs m).any fun (p, q) => (distance p q).isFinite then .error e
    else .ok 0.0
  | _, .error e => .error e

/-- What a fingerprint takes from an element. -/
def elementLine (e : Element) : Text := "n:" ++ e.id ++ "\n"

/-- What a fingerprint takes from a relation. -/
def relationLine (r : Relation) : Text :=
  "e:" ++ r.source ++ "->" ++ r.target ++ ":" ++ Number.text r.weight ++ "\n"

/-- The lines that the fingerprint of a model is computed from. -/
def fingerprintLines (m : Model) : List Text :=
  m.elements.map elementLine ++ m.relations.map relationLine

/-- The bytes of these lines, if all symbols in them are characters. -/
def fingerprintBytes (m : Model) : Except Error (List UInt8) := do
  let lines ← ((fingerprintLines m).mapM Text.encodeUtf8).mapError .unencodable
  return lines.flatten

/-- The fingerprint of some bytes: the first quarter of a digest, in hexadecimal. -/
def fingerprintOf (bytes : List UInt8) : String :=
  String.ofList (((Sha256.digest bytes).take 8).flatMap fun b => Text.hexDigits 2 b.toNat)

/-- The fingerprint of a model. -/
def fingerprint (m : Model) : Except Error String := fingerprintOf <$> fingerprintBytes m

/-- How good a layout is. -/
structure Quality where
  fingerprint : String
  crossings : Nat
  penalty : Float
  score : Float

/-- The quality of a model's layout, judged by a least distance between elements. -/
def evaluate (m : Model) (least : Json := .float 1.0) : Except Error Quality := do
  let crossings := crossings m
  let penalty ← penaltyOf m least
  let fingerprint ← fingerprint m
  return ⟨fingerprint, crossings, penalty, 1.0 / (1.0 + Number.ofInt crossings + penalty)⟩

/-- Write a quality. -/
def Quality.toJson (q : Quality) : Json :=
  .record [
    ("graph_hash", .text q.fingerprint),
    ("edge_crossings", .int q.crossings),
    ("overlap_penalty", .float q.penalty),
    ("quality_score", .float q.score)]

end Landscape.Layout
