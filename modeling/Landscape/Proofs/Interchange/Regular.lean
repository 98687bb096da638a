import Landscape.Interchange
import Landscape.Proofs.Results

/-!
# Regular models are read back

A model is regular when its elements have names, be it their ids, and when no null stands where a
value may be left out. What is written for a regular model is read as the model, without its matrix.
-/

namespace Landscape

/-- An element that has a name and holds no null. -/
structure Element.Regular (e : Element) : Prop where
  name : e.name ≠ [] ∨ e.name = e.id
  technology : e.technology ≠ some .null
  description : e.description ≠ some .null

/-- A relation that holds no null. -/
def Relation.Regular (r : Relation) : Prop := r.label ≠ some .null

/-- A model whose parts are all regular. -/
structure Model.Regular (m : Model) : Prop where
  elements : ∀ e ∈ m.elements, e.Regular
  relations : ∀ r ∈ m.relations, r.Regular

namespace Json

/-- Names of fields are compared as strings. -/
@[simp] theorem beq_ofString (s t : String) : (Text.ofString s == Text.ofString t) = (s == t) := by
  rw [Bool.eq_iff_iff, beq_iff_eq, beq_iff_eq, Text.ofString_inj]

/-- A field that may be left out has the value it was written with. -/
@[simp] theorem lookup_fieldOf (name other : Text) (value : Option Json) :
    (fieldOf name value).lookup other = if other == name then value else none := by
  cases value with
  | none => simp [fieldOf]
  | some d =>
    change List.lookup other [(name, d)] = _
    rw [List.lookup_cons, List.lookup_nil]
    cases other == name <;> rfl

/-- What is not null is given as it stands. -/
theorem given?_eq {d : Json} {name : Text} {value : Option Json} (hget : d.get? name = value)
    (hvalue : value ≠ some .null) : d.given? name = value := by
  rw [given?, hget]
  split
  next h => exact absurd rfl hvalue
  next => rfl
  next => rfl

end Json

/-- Values that are read one by one from what was written for them are read all together. -/
theorem mapM_map_eq_ok {α β ε : Type} {write : α → β} {read : β → Except ε α} {xs : List α}
    (h : ∀ x ∈ xs, read (write x) = .ok x) : (xs.map write).mapM read = .ok xs := by
  have hread : xs.mapM (read ∘ write) = .ok (xs.map id) := mapM_eq_map h
  rw [List.mapM_map, hread, List.map_id]

/-- A kind is read from its name. -/
theorem Kind.ofName?_name (kind : Kind) : Kind.ofName? kind.name = some kind := by
  cases kind <;> rfl

/-- The fields of a written element. -/
theorem Element.get?_toJson (e : Element) :
    e.toJson.get? "id" = some (.text e.id) ∧ e.toJson.get? "name" = some (.text e.name) ∧
      e.toJson.get? "type" = some (.text e.kind.name) ∧
      e.toJson.get? "technology" = e.technology ∧ e.toJson.get? "description" = e.description ∧
      e.toJson.get? "position" = e.position.map fun p => .list [.float p.x, .float p.y] := by
  simp [toJson, Json.get?, List.lookup_append, List.lookup_cons]

/-- A regular element is read from what is written for it. -/
theorem Element.ofJson_toJson {e : Element} (h : e.Regular) : Element.ofJson e.toJson = .ok e := by
  obtain ⟨hid, hname, htype, htechnology, hdescription, hposition⟩ := e.get?_toJson
  have hid' := Json.given?_eq hid (by simp)
  have htype' := Json.given?_eq htype (by simp)
  have htechnology' := Json.given?_eq htechnology h.technology
  have hdescription' := Json.given?_eq hdescription h.description
  have hposition' := Json.given?_eq hposition (by cases e.position <;> simp)
  have hfields : Part.node.fields e.toJson = .ok () := rfl
  have hkind : Kind.ofJson (.text e.kind.name) = .ok e.kind := by
    rw [Kind.ofJson, Json.asText, ok_bind, Kind.ofName?_name]
    rfl
  have hname' : nameOfJson e.id e.toJson = .ok e.name := by
    rw [nameOfJson, hname]
    dsimp only
    rcases h.name with hne | heq
    · rw [Json.isTruthy, if_pos (by simpa using hne), Json.asText]
    · rw [Json.asText, ← heq, ite_self]
  obtain ⟨id, name, kind, technology, description, position⟩ := e
  rw [ofJson, hfields]
  simp only [Part.required, hid', htype', htechnology', hdescription', hposition', ok_bind,
    Json.asText, hname', hkind]
  cases position with
  | none => rfl
  | some p => rfl

/-- The fields of a written relation. -/
theorem Relation.get?_toJson (r : Relation) :
    r.toJson.get? "from" = some (.text r.source) ∧ r.toJson.get? "to" = some (.text r.target) ∧
      r.toJson.get? "label" = some (r.label.getD .null) ∧
      r.toJson.get? "weight" = some (.float r.weight) := by
  simp [toJson, Json.get?, List.lookup_cons]

/-- A regular relation is read from what is written for it. -/
theorem Relation.ofJson_toJson {r : Relation} (h : r.Regular) :
    Relation.ofJson r.toJson = .ok r := by
  obtain ⟨hsource, htarget, hlabel, hweight⟩ := r.get?_toJson
  have hsource' := Json.given?_eq hsource (by simp)
  have htarget' := Json.given?_eq htarget (by simp)
  have hweight' := Json.given?_eq hweight (by simp)
  have hlabel' : r.toJson.given? "label" = r.label := by
    cases hr : r.label with
    | none => rw [Json.given?, hlabel, hr, Option.getD_none]
    | some d =>
      rw [hr, Option.getD_some] at hlabel
      exact Json.given?_eq hlabel (hr ▸ h)
  have hfields : Part.edge.fields r.toJson = .ok () := rfl
  rw [ofJson, hfields]
  simp only [Part.required, hsource', htarget', hlabel', hweight', ok_bind]
  rfl

/-- A regular model is read from what is written for it; its matrix is not written. -/
theorem Model.ofJson_toJson {m : Model} (h : m.Regular) :
    Model.ofJson m.toJson = .ok { m with matrix := none } := by
  have hnodes : arrayOfJson m.toJson "nodes" = .ok (m.elements.map Element.toJson) := by
    simp [arrayOfJson, toJson, Json.get?]
  have hedges : arrayOfJson m.toJson "edges" = .ok (m.relations.map Relation.toJson) := by
    simp [arrayOfJson, toJson, Json.get?, List.lookup_cons]
  have helements := mapM_map_eq_ok fun e he => Element.ofJson_toJson (h.elements e he)
  have hrelations := mapM_map_eq_ok fun r hr => Relation.ofJson_toJson (h.relations r hr)
  have hfields : Part.model.fields m.toJson = .ok () := rfl
  rw [ofJson, hfields]
  simp only [hnodes, hedges, helements, hrelations, ok_bind]
  rfl

end Landscape
