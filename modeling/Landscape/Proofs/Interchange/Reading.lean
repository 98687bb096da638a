import Landscape.Proofs.Interchange.Regular
import Landscape.Proofs.Json.Numbers
import Landscape.Proofs.Json.Spelling

/-!
# What is read is regular

Reading a model takes a field as it is given, and a null as nothing. A name that counts for nothing
gives way to the id. So whatever is accepted makes a regular model.
-/

namespace Landscape

/-- A number is never written as nothing. -/
theorem Number.toList_text_ne_nil (x : Float) : (Number.text x).toList ≠ [] := by
  cases h : Binary.ofFloat x with
  | nan => simp [Number.text, h]
  | infinite negative => cases negative <;> simp [Number.text, h, Number.withSign]
  | finite negative significand exponent =>
    obtain ⟨n, hn, htext, -⟩ := Number.text_eq_numeral h
    rw [htext, Numeral.chars]
    exact fun hnil => hn.whole_ne (List.append_eq_nil_iff.mp (List.append_eq_nil_iff.mp hnil).2).1

namespace Json

/-- Every value that is not a text is shown as something. -/
theorem toList_shown_ne_nil {d : Json} (htext : ∀ t, d ≠ .text t) : d.shown.toList ≠ [] := by
  cases d with
  | scalar s =>
    cases s with
    | null => decide
    | bool b =>
      cases b with
      | true => decide
      | false => decide
    | int n =>
      change (toString n : String).toList ≠ []
      rw [toList_toString_int]
      exact fun hnil => Nat.toDigits_ne_nil (List.append_eq_nil_iff.mp hnil).2
    | float x => exact Number.toList_text_ne_nil x
    | text t => exact absurd rfl (htext t)
  | list xs => simp [shown]
  | record fs => simp [shown]

/-- What counts as true stands for a text that is not empty. -/
theorem asText_ne_nil {d : Json} {t : Text} (htruthy : d.isTruthy = true)
    (h : d.asText = .ok t) : t ≠ [] := by
  rcases asText_eq_ok h with rfl | ⟨htext, rfl⟩
  · simpa [isTruthy] using htruthy
  · exact fun hnil => toList_shown_ne_nil htext (List.map_eq_nil_iff.mp hnil)

/-- What is given is there and not null. -/
theorem given?_eq_some_iff {d v : Json} {name : Text} :
    d.given? name = some v ↔ d.get? name = some v ∧ v ≠ .null := by
  unfold given?
  split
  next h =>
    rw [h]
    constructor
    · rintro ⟨⟩
    · rintro ⟨heq, hne⟩
      exact absurd (Option.some.inj heq).symm hne
  next h => simp [h]
  next w hne h =>
    rw [h, Option.some.injEq]
    exact ⟨fun heq => ⟨heq, fun hnull => hne (heq.trans hnull)⟩, And.left⟩

/-- No null is given. -/
theorem given?_ne_null (d : Json) (name : Text) : d.given? name ≠ some .null :=
  fun h => (given?_eq_some_iff.mp h).2 rfl

end Json

/-- A field that is required is one that is given. -/
theorem Part.required_eq_ok {part : Part} {d v : Json} {key : String} :
    part.required d key = .ok v ↔ d.given? key = some v := by
  unfold required
  split
  next h => rw [h, Except.ok.injEq, Option.some.injEq]
  next h => simp [h]

/-- An array that is read is a list that is there. -/
theorem Model.arrayOfJson_eq_ok {d : Json} {key : String} {entries : List Json}
    (h : arrayOfJson d key = .ok entries) : d.get? key = some (.list entries) := by
  unfold arrayOfJson at h
  split at h
  · cases h
  next hget =>
    rw [hget, Except.ok.inj h]
  · cases h

/-- Each value of those that are read one by one is read from one of them. -/
theorem exists_of_mapM_eq_ok {α β ε : Type} {read : α → Except ε β} {xs : List α} {ys : List β}
    (h : xs.mapM read = .ok ys) {y : β} (hy : y ∈ ys) : ∃ x ∈ xs, read x = .ok y := by
  induction xs generalizing ys with
  | nil =>
    obtain rfl := Except.ok.inj h
    exact absurd hy List.not_mem_nil
  | cons x xs ih =>
    rw [List.mapM_cons] at h
    obtain ⟨z, hz, h⟩ := bind_eq_ok_iff.mp h
    obtain ⟨zs, hzs, h⟩ := bind_eq_ok_iff.mp h
    obtain rfl := Except.ok.inj h
    rcases List.mem_cons.mp hy with rfl | hy
    · exact ⟨x, List.mem_cons_self, hz⟩
    · obtain ⟨x', hx', hread⟩ := ih hzs hy
      exact ⟨x', List.mem_cons_of_mem x hx', hread⟩

/-- An element is named by its id or by what its record gives as its name. -/
theorem Element.nameOfJson_eq_ok {id name : Text} {d : Json} (h : nameOfJson id d = .ok name) :
    name = id ∨
      ∃ given, d.get? "name" = some given ∧ given.isTruthy = true ∧ given.asText = .ok name := by
  unfold nameOfJson at h
  split at h
  next given hget =>
    split at h
    next htruthy => exact .inr ⟨given, hget, htruthy, h⟩
    · exact .inl (Except.ok.inj h).symm
  · exact .inl (Except.ok.inj h).symm

/-- What an element is read from. -/
theorem Element.ofJson_eq_ok {d : Json} {e : Element} (h : Element.ofJson d = .ok e) :
    ∃ id, d.get? "id" = some id ∧ id.asText = .ok e.id ∧
      (e.name = e.id ∨
        ∃ name, d.get? "name" = some name ∧ name.isTruthy = true ∧ name.asText = .ok e.name) ∧
      e.technology = d.given? "technology" ∧ e.description = d.given? "description" := by
  unfold ofJson at h
  obtain ⟨_, -, h⟩ := bind_eq_ok_iff.mp h
  obtain ⟨given, hgiven, h⟩ := bind_eq_ok_iff.mp h
  obtain ⟨_, -, h⟩ := bind_eq_ok_iff.mp h
  obtain ⟨id, hid, h⟩ := bind_eq_ok_iff.mp h
  obtain ⟨name, hname, h⟩ := bind_eq_ok_iff.mp h
  obtain ⟨kind, -, h⟩ := bind_eq_ok_iff.mp h
  refine ⟨given, (Json.given?_eq_some_iff.mp (Part.required_eq_ok.mp hgiven)).1, ?_⟩
  have hname := nameOfJson_eq_ok hname
  cases hposition : d.given? "position" with
  | none =>
    rw [hposition] at h
    obtain rfl := Except.ok.inj h
    exact ⟨hid, hname, rfl, rfl⟩
  | some position =>
    rw [hposition] at h
    obtain ⟨position, -, h⟩ := bind_eq_ok_iff.mp h
    obtain rfl := Except.ok.inj h
    exact ⟨hid, hname, rfl, rfl⟩

/-- What a relation is read from. -/
theorem Relation.ofJson_eq_ok {d : Json} {r : Relation} (h : Relation.ofJson d = .ok r) :
    ∃ source target, d.get? "from" = some source ∧ d.get? "to" = some target ∧
      source.asText = .ok r.source ∧ target.asText = .ok r.target ∧
      r.label = d.given? "label" := by
  unfold ofJson at h
  obtain ⟨_, -, h⟩ := bind_eq_ok_iff.mp h
  obtain ⟨source, hsource, h⟩ := bind_eq_ok_iff.mp h
  obtain ⟨target, htarget, h⟩ := bind_eq_ok_iff.mp h
  refine ⟨source, target, (Json.given?_eq_some_iff.mp (Part.required_eq_ok.mp hsource)).1,
    (Json.given?_eq_some_iff.mp (Part.required_eq_ok.mp htarget)).1, ?_⟩
  obtain ⟨weight, h⟩ : ∃ weight, (do
      return {
        source := ← source.asText
        target := ← target.asText
        label := d.given? "label"
        weight }) = Except.ok r := by
    split at h
    · obtain ⟨weight, -, h⟩ := bind_eq_ok_iff.mp h
      exact ⟨weight, h⟩
    · exact ⟨1.0, h⟩
  obtain ⟨first, hfirst, h⟩ := bind_eq_ok_iff.mp h
  obtain ⟨last, hlast, h⟩ := bind_eq_ok_iff.mp h
  obtain rfl := Except.ok.inj h
  exact ⟨hfirst, hlast, rfl⟩

/-- What a model is read from. -/
theorem Model.ofJson_eq_ok {d : Json} {m : Model} (h : Model.ofJson d = .ok m) :
    ∃ nodes edges, d.get? "nodes" = some (.list nodes) ∧ d.get? "edges" = some (.list edges) ∧
      (∀ e ∈ m.elements, ∃ node ∈ nodes, Element.ofJson node = .ok e) ∧
      (∀ r ∈ m.relations, ∃ edge ∈ edges, Relation.ofJson edge = .ok r) := by
  unfold ofJson at h
  obtain ⟨_, -, h⟩ := bind_eq_ok_iff.mp h
  obtain ⟨nodes, hnodes, h⟩ := bind_eq_ok_iff.mp h
  obtain ⟨edges, hedges, h⟩ := bind_eq_ok_iff.mp h
  obtain ⟨elements, helements, h⟩ := bind_eq_ok_iff.mp h
  obtain ⟨relations, hrelations, h⟩ := bind_eq_ok_iff.mp h
  obtain rfl := Except.ok.inj h
  exact ⟨nodes, edges, arrayOfJson_eq_ok hnodes, arrayOfJson_eq_ok hedges,
    fun e he => exists_of_mapM_eq_ok helements he, fun r hr => exists_of_mapM_eq_ok hrelations hr⟩

/-- A model that was read has no matrix. -/
theorem Model.matrix_of_ofJson {d : Json} {m : Model} (h : Model.ofJson d = .ok m) :
    m.matrix = none := by
  unfold ofJson at h
  obtain ⟨_, -, h⟩ := bind_eq_ok_iff.mp h
  obtain ⟨_, -, h⟩ := bind_eq_ok_iff.mp h
  obtain ⟨_, -, h⟩ := bind_eq_ok_iff.mp h
  obtain ⟨_, -, h⟩ := bind_eq_ok_iff.mp h
  obtain ⟨_, -, h⟩ := bind_eq_ok_iff.mp h
  obtain rfl := Except.ok.inj h
  rfl

/-- An element that has been read is regular. -/
theorem Element.regular_of_ofJson {d : Json} {e : Element} (h : Element.ofJson d = .ok e) :
    e.Regular := by
  obtain ⟨id, -, -, hname, htechnology, hdescription⟩ := Element.ofJson_eq_ok h
  refine ⟨?_, htechnology ▸ Json.given?_ne_null d _, hdescription ▸ Json.given?_ne_null d _⟩
  rcases hname with heq | ⟨name, -, htruthy, heq⟩
  · exact .inr heq
  · exact .inl (Json.asText_ne_nil htruthy heq)

/-- A relation that has been read is regular. -/
theorem Relation.regular_of_ofJson {d : Json} {r : Relation} (h : Relation.ofJson d = .ok r) :
    r.Regular := by
  obtain ⟨_, _, -, -, -, -, hlabel⟩ := Relation.ofJson_eq_ok h
  rw [Relation.Regular, hlabel]
  exact Json.given?_ne_null d _

/-- A model that has been read is regular. -/
theorem Model.regular_of_ofJson {d : Json} {m : Model} (h : Model.ofJson d = .ok m) :
    m.Regular := by
  obtain ⟨_, _, -, -, helements, hrelations⟩ := Model.ofJson_eq_ok h
  refine ⟨fun e he => ?_, fun r hr => ?_⟩
  · obtain ⟨_, -, hread⟩ := helements e he
    exact Element.regular_of_ofJson hread
  · obtain ⟨_, -, hread⟩ := hrelations r hr
    exact Relation.regular_of_ofJson hread

end Landscape
