import Landscape.Proofs.Interchange.Legibility
import Landscape.Proofs.Json.Refusals
import Landscape.Proofs.Number.Range

/-!
# How reading a model can fail

What is wrong with an interchange document is said as an error about malformed contents. Two things
escape this: an integer beyond the range of doubles where a number should be, and a value that has to
be spelled and cannot be, for an integer with too many digits or for its nesting. A file holds no
value of the latter sort, but its text may be refused for the same reasons. None of these errors is
reported by the command line, which ends with an error line for everything else.
-/

namespace Landscape

variable {α β : Type} {Other Other' : Error → Prop}

/-- Whether an error is about malformed contents. -/
def Error.IsMalformed (e : Error) : Prop := ∃ cause, e = .malformed cause

/-- Whatever goes wrong is about malformed contents, or it is one of the other errors. -/
def FailsAs (Other : Error → Prop) (r : Except Error α) : Prop :=
  ∀ e, r = .error e → e.IsMalformed ∨ Other e

namespace FailsAs

/-- Nothing goes wrong. -/
theorem ok (a : α) : FailsAs Other (.ok a : Except Error α) := nofun

/-- Malformed contents. -/
theorem malformed (cause : Malformed) :
    FailsAs Other (.error (.malformed cause) : Except Error α) :=
  fun _ h => .inl ⟨cause, (Except.error.inj h).symm⟩

/-- One of the other errors. -/
theorem other {e : Error} (he : Other e) : FailsAs Other (.error e : Except Error α) :=
  fun _ h => .inr (Except.error.inj h ▸ he)

/-- The other errors may be among more. -/
theorem mono {r : Except Error α} (h : FailsAs Other r) (hother : ∀ e, Other e → Other' e) :
    FailsAs Other' r :=
  fun e he => (h e he).imp id (hother e)

/-- Two steps fail as each of them does. -/
theorem bind {x : Except Error α} {f : α → Except Error β} (hx : FailsAs Other x)
    (hf : ∀ a, x = .ok a → FailsAs Other (f a)) : FailsAs Other (x >>= f) := by
  cases x with
  | error e => exact fun _ h => hx _ (congrArg _ (Except.error.inj h))
  | ok a => exact hf a rfl

/-- Steps for one entry after the other fail as that for one of them. -/
theorem mapM {read : α → Except Error β} {xs : List α} (h : ∀ x ∈ xs, FailsAs Other (read x)) :
    FailsAs Other (xs.mapM read) := by
  induction xs with
  | nil => exact ok []
  | cons x xs ih =>
    rw [List.forall_mem_cons] at h
    rw [List.mapM_cons]
    exact bind h.1 fun y _ => bind (ih h.2) fun ys _ => ok (y :: ys)

end FailsAs

/-- An integer beyond the range of doubles. -/
def Json.Overflows (d : Json) : Prop :=
  ∃ n : Int, d = .int n ∧ Number.leastOverflow ≤ n.natAbs

/-- A value is no number because it does not stand for one, or because it is too large. -/
theorem Json.toFloat_eq_error {d : Json} {e : Error} (h : d.toFloat = .error e) :
    (∃ v, e = .notConvertible v) ∨ e = .numberTooLarge ∧ d.Overflows := by
  unfold toFloat at h
  split at h
  · cases h
  next n =>
    split at h
    · cases h
    next hnone =>
      exact .inr ⟨(Except.error.inj h).symm, n, rfl, Number.ofInt?_eq_none_iff.mp hnone⟩
  · cases h
  · split at h
    · cases h
    · exact .inl ⟨_, (Except.error.inj h).symm⟩
  · exact .inl ⟨_, (Except.error.inj h).symm⟩

/-- An integer beyond the range of doubles is too large. -/
theorem Json.Overflows.toFloat {d : Json} (h : d.Overflows) :
    d.toFloat = .error .numberTooLarge := by
  obtain ⟨n, rfl, hn⟩ := h
  rw [Json.toFloat, Number.ofInt?_eq_none_iff.mpr hn]

/-- The fields of a node that are texts or that a message may spell. -/
def Element.spelledFields : List Text := ["id", "name", "type", "position"]

/-- The fields of an edge that are texts or that a message may spell. -/
def Relation.spelledFields : List Text := ["from", "to", "weight"]

/-- The errors of a node that are not about malformed contents: for a number of its position that is
too large, or for what is in the way of spelling one of its fields. -/
inductive Element.Escapes (node : Json) : Error → Prop
  | number {position x y : Json} (hposition : node.given? "position" = some position)
    (hpair : position.pair? = some (x, y)) (hoverflows : x.Overflows ∨ y.Overflows) :
    Escapes node .numberTooLarge
  | spelling {key : Text} {v : Json} {e : Error} (hkey : key ∈ spelledFields)
    (hget : node.get? key = some v) (he : v.Obstacle Json.maxLevels .value e) : Escapes node e

/-- The errors of an edge that are not about malformed contents. -/
inductive Relation.Escapes (edge : Json) : Error → Prop
  | number {weight : Json} (hweight : edge.given? "weight" = some weight)
    (hoverflows : weight.Overflows) : Escapes edge .numberTooLarge
  | spelling {key : Text} {v : Json} {e : Error} (hkey : key ∈ spelledFields)
    (hget : edge.get? key = some v) (he : v.Obstacle Json.maxLevels .value e) : Escapes edge e

/-- The errors of a document that are not about malformed contents are those of its nodes and
edges. -/
inductive Json.Escapes (d : Json) : Error → Prop
  | node {nodes : List Json} {node : Json} {e : Error}
    (hnodes : d.get? "nodes" = some (.list nodes)) (hnode : node ∈ nodes)
    (he : Element.Escapes node e) : Escapes d e
  | edge {edges : List Json} {edge : Json} {e : Error}
    (hedges : d.get? "edges" = some (.list edges)) (hedge : edge ∈ edges)
    (he : Relation.Escapes edge e) : Escapes d e

/-- What is refused is malformed, or it cannot be spelled. -/
theorem failsAs_refuse (d : Json) (cause : Malformed) :
    FailsAs (d.Obstacle Json.maxLevels .value) (refuse d cause : Except Error α) := by
  unfold refuse
  rcases d.spell_cases with ⟨hspell, -⟩ | ⟨e, he, hspell⟩
  · rw [hspell]
    exact .malformed cause
  · rw [hspell]
    exact .other he

/-- What stands for no text cannot be spelled. -/
theorem Json.failsAs_asText (d : Json) : FailsAs (d.Obstacle maxLevels .value) d.asText :=
  fun _ h => .inr (obstacle_of_asText h)

/-- What names no kind is malformed, or it cannot be spelled. -/
theorem Kind.failsAs_ofJson (d : Json) :
    FailsAs (d.Obstacle Json.maxLevels .value) (Kind.ofJson d) := by
  unfold ofJson
  refine d.failsAs_asText.bind fun _ _ => ?_
  split
  · exact .ok _
  · exact failsAs_refuse d _

/-- What is no record is malformed. -/
theorem Part.failsAs_fields (part : Part) (d : Json) : FailsAs Other (part.fields d) := by
  unfold fields
  split
  · exact .ok ()
  · exact .malformed _

/-- What lacks a field is malformed. -/
theorem Part.failsAs_required (part : Part) (d : Json) (key : String) :
    FailsAs Other (part.required d key) := by
  unfold required
  split
  · exact .ok _
  · exact .malformed _

/-- What lacks an array is malformed. -/
theorem Model.failsAs_arrayOfJson (d : Json) (key : String) :
    FailsAs Other (arrayOfJson d key) := by
  unfold arrayOfJson
  split
  · exact .malformed _
  · exact .ok _
  · exact .malformed _

/-- What is no position is malformed, unless it escapes. -/
theorem Element.failsAs_positionOfJson {node position : Json}
    (hposition : node.given? "position" = some position) (id : Text) :
    FailsAs (Escapes node) (positionOfJson id position) := by
  have hrefuse : FailsAs (Escapes node)
      (refuse position (.badPosition id position) : Except Error (Point Float)) :=
    (failsAs_refuse position _).mono fun _ he =>
      .spelling (by decide) (Json.given?_eq_some_iff.mp hposition).1 he
  unfold positionOfJson
  cases hpair : position.pair? with
  | none => exact hrefuse
  | some pair =>
    obtain ⟨x, y⟩ := pair
    dsimp only
    cases hx : x.toFloat with
    | error e =>
      rw [error_bind]
      rcases Json.toFloat_eq_error hx with ⟨v, rfl⟩ | ⟨rfl, hoverflows⟩
      · exact hrefuse
      · exact .other (.number hposition hpair (.inl hoverflows))
    | ok a =>
      cases hy : y.toFloat with
      | error e =>
        rw [ok_bind, error_bind]
        rcases Json.toFloat_eq_error hy with ⟨v, rfl⟩ | ⟨rfl, hoverflows⟩
        · exact hrefuse
        · exact .other (.number hposition hpair (.inr hoverflows))
      | ok b => exact .ok _

/-- An element has a name, unless it escapes. -/
theorem Element.failsAs_nameOfJson (id : Text) (node : Json) :
    FailsAs (Escapes node) (nameOfJson id node) := by
  unfold nameOfJson
  split
  next name hget =>
    split
    · exact name.failsAs_asText.mono fun _ he => .spelling (by decide) hget he
    · exact .ok _
  · exact .ok _

/-- What is no element is malformed, unless it escapes. -/
theorem Element.failsAs_ofJson (node : Json) : FailsAs (Escapes node) (ofJson node) := by
  unfold ofJson
  refine (Part.failsAs_fields _ node).bind fun _ _ =>
    (Part.failsAs_required _ node _).bind fun id hid =>
    (Part.failsAs_required _ node _).bind fun kind hkind => ?_
  have hid := (Json.given?_eq_some_iff.mp (Part.required_eq_ok.mp hid)).1
  have hkind := (Json.given?_eq_some_iff.mp (Part.required_eq_ok.mp hkind)).1
  refine (id.failsAs_asText.mono fun _ he => .spelling (by decide) hid he).bind fun _ _ =>
    (failsAs_nameOfJson _ node).bind fun _ _ =>
    ((Kind.failsAs_ofJson kind).mono fun _ he => .spelling (by decide) hkind he).bind fun _ _ => ?_
  cases hposition : node.given? "position" with
  | none => exact .ok _
  | some position =>
    exact FailsAs.bind ((failsAs_positionOfJson hposition _).bind fun _ _ => .ok _) fun _ _ => .ok _

/-- What is no relation is malformed, unless it escapes. -/
theorem Relation.failsAs_ofJson (edge : Json) : FailsAs (Escapes edge) (ofJson edge) := by
  unfold ofJson
  refine (Part.failsAs_fields _ edge).bind fun _ _ =>
    (Part.failsAs_required _ edge _).bind fun source hsource =>
    (Part.failsAs_required _ edge _).bind fun target htarget => ?_
  have hsource := (Json.given?_eq_some_iff.mp (Part.required_eq_ok.mp hsource)).1
  have htarget := (Json.given?_eq_some_iff.mp (Part.required_eq_ok.mp htarget)).1
  have hends (weight : Float) : FailsAs (Escapes edge) (do
      return {
        source := ← source.asText
        target := ← target.asText
        label := edge.given? "label"
        weight : Relation }) :=
    (source.failsAs_asText.mono fun _ he => .spelling (by decide) hsource he).bind fun _ _ =>
    (target.failsAs_asText.mono fun _ he => .spelling (by decide) htarget he).bind fun _ _ => .ok _
  cases hgiven : edge.given? "weight" with
  | none => exact hends 1.0
  | some weight =>
    refine FailsAs.bind ?_ fun weight _ => hends weight
    cases hweight : weight.toFloat with
    | error e =>
      rcases Json.toFloat_eq_error hweight with ⟨v, rfl⟩ | ⟨rfl, hoverflows⟩
      · exact (failsAs_refuse weight (.badWeight weight)).mono fun _ he =>
          .spelling (by decide) (Json.given?_eq_some_iff.mp hgiven).1 he
      · exact .other (.number hgiven hoverflows)
    | ok a => exact .ok _

/-- A relation is not read if its weight is too large. -/
theorem Relation.ofJson_of_overflows {fs : List (Text × Json)} {source target weight : Json}
    (hsource : (Json.record fs).given? "from" = some source)
    (htarget : (Json.record fs).given? "to" = some target)
    (hweight : (Json.record fs).given? "weight" = some weight) (hoverflows : weight.Overflows) :
    ofJson (.record fs) = .error .numberTooLarge := by
  unfold ofJson
  rw [Part.required_eq_ok.mpr hsource, Part.required_eq_ok.mpr htarget, hweight]
  dsimp only
  rw [hoverflows.toFloat]
  rfl

/-- What is no model is malformed, unless it escapes. -/
theorem Model.failsAs_ofJson (d : Json) : FailsAs d.Escapes (ofJson d) := by
  unfold ofJson
  refine (Part.failsAs_fields _ d).bind fun _ _ =>
    (failsAs_arrayOfJson d _).bind fun nodes hnodes =>
    (failsAs_arrayOfJson d _).bind fun edges hedges => ?_
  have hnodes := arrayOfJson_eq_ok hnodes
  have hedges := arrayOfJson_eq_ok hedges
  exact FailsAs.bind (.mapM fun node hnode =>
      (Element.failsAs_ofJson node).mono fun _ he => .node hnodes hnode he) fun _ _ =>
    FailsAs.bind (.mapM fun edge hedge =>
      (Relation.failsAs_ofJson edge).mono fun _ he => .edge hedges hedge he) fun _ _ => .ok _

/-- Of a document that can be read back and is not deeper than spelling follows, only numbers that
are too large escape. -/
theorem Json.Escapes.eq_numberTooLarge {levels : Nat} {d : Json} {e : Error} (h : d.Escapes e)
    (hd : d.Fits (levels + 3)) (hlevels : levels ≤ maxLevels) : e = .numberTooLarge := by
  cases h with
  | node hnodes hnode he =>
    cases he with
    | number => rfl
    | spelling hkey hget he =>
      have hfits := ((hd.get? hnodes).of_mem _ hnode).get? hget
      exact absurd he (hfits.not_obstacle hlevels .value e)
  | edge hedges hedge he =>
    cases he with
    | number => rfl
    | spelling hkey hget he =>
      have hfits := ((hd.get? hedges).of_mem _ hedge).get? hget
      exact absurd he (hfits.not_obstacle hlevels .value e)

/-- Bytes that are refused as a text of JSON are characters that are refused. -/
theorem Json.refused_of_ofBytes {bytes : List UInt8} {e : Error}
    (h : Json.ofBytes bytes = .error (.text (.refused e))) :
    ∃ cs, Files.strictChars bytes = .ok cs ∧ Refused maxDepth cs e := by
  unfold ofBytes at h
  cases hchars : Files.strictChars bytes with
  | error e =>
    rw [hchars] at h
    cases h
  | ok cs =>
    refine ⟨cs, rfl, refused_of_document ?_⟩
    rw [hchars] at h
    change (readChars cs).mapError FileError.text = _ at h
    unfold readChars at h
    cases hdocument : document cs with
    | ok d =>
      rw [hdocument] at h
      cases h
    | error fault =>
      rw [hdocument] at h
      cases fault with
      | problem kind left => cases h
      | refusal cause =>
        cases h
        rfl

/-- The errors of a file that are not about malformed contents: a number that is too large in what
was read, or a text that is refused for what it has. -/
inductive Model.Escapes (bytes : List UInt8) : Error → Prop
  | number {d : Json} (hread : Json.ofBytes bytes = .ok d) (he : d.Escapes .numberTooLarge) :
    Escapes bytes .numberTooLarge
  | text {cs : List Char} {e : Error} (hchars : Files.strictChars bytes = .ok cs)
    (hrefused : Json.Refused Json.maxDepth cs e) : Escapes bytes e

/-- What holds no model is malformed, unless it escapes. -/
theorem Model.failsAs_ofBytes (path : Text) (bytes : List UInt8) :
    FailsAs (Escapes bytes) (ofBytes path bytes) := by
  unfold ofBytes
  cases hread : Json.ofBytes bytes with
  | ok d =>
    -- reading follows fewer levels than spelling does
    have hfits : d.Fits (Json.maxDepth - 3 + 3) := Json.fits_of_ofBytes hread
    refine (failsAs_ofJson d).mono fun e he => ?_
    obtain rfl := he.eq_numberTooLarge hfits (by decide)
    exact .number hread he
  | error cause =>
    cases cause with
    | encoding e => exact .malformed _
    | text cause =>
      cases cause with
      | malformed e => exact .malformed _
      | refused e =>
        obtain ⟨cs, hchars, hrefused⟩ := Json.refused_of_ofBytes hread
        exact .other (.text hchars hrefused)

/-- Loading a file that can be read fails as its bytes do. -/
theorem Model.load_eq {files : Files} {path : Text} {bytes : List UInt8}
    (hfile : files.read path = .ok bytes) : load files path = ofBytes path bytes := by
  rw [load, hfile, ok_bind]

end Landscape
