import Landscape.Proofs.Description.Parts
import Landscape.Proofs.Interchange.Reading
import Landscape.Proofs.Layout.Placement

/-!
# Where models come from

A model is described, or read from an interchange document; then it may be laid out and its elements
moved, as often as one likes. Nothing but positions and the cached matrix changes on the way:
whatever holds of all parts at the beginning and is not about positions holds of them at the end.
-/

namespace Landscape

/-- What a model is made from. -/
inductive Source where
  | description (t : Text)
  | document (d : Json)

/-- The model that is made from a source. -/
def Source.model : Source → Except Error Model
  | .description t => .ok (Description.parse t)
  | .document d => Model.ofJson d

/-- The models that come from a source by building matrices, laying out and writing positions. -/
inductive Obtained (source : Source) : Model → Prop
  | read {m : Model} (hm : source.model = .ok m) : Obtained source m
  | built {m : Model} (h : Obtained source m) : Obtained source m.build
  | laidOut {m m' : Model} {plan : Layout.Plan} {fallback : Nat} {outcome : Layout.Outcome}
      (h : Obtained source m) (hm : Layout.run plan fallback m = .ok (m', outcome)) :
      Obtained source m'
  | placed {m m' : Model} {id : Text} {position : Option (Point Float)} (h : Obtained source m)
      (hm : m.update? id (fun e => { e with position }) = some m') : Obtained source m'

/-- An element of a model after a position was written is one of before, perhaps moved. -/
theorem Model.exists_of_mem_update? {m m' : Model} {id : Text} {position : Option (Point Float)}
    (hm : m.update? id (fun e => { e with position }) = some m') :
    m'.relations = m.relations ∧
      ∀ e ∈ m'.elements, ∃ e' ∈ m.elements, ∃ position, e = { e' with position } := by
  obtain ⟨i, -, rfl⟩ := Option.map_eq_some_iff.mp hm
  refine ⟨rfl, fun e he => ?_⟩
  obtain ⟨j, hj, rfl⟩ := List.mem_iff_getElem.mp he
  rw [List.length_modify] at hj
  refine ⟨m.elements[j], List.getElem_mem _, ?_⟩
  rw [List.getElem_modify]
  split
  · exact ⟨position, rfl⟩
  · exact ⟨m.elements[j].position, rfl⟩

/-- What holds of all parts of a source's model holds of all parts of the models that come from it,
unless it is about positions. -/
theorem Obtained.forall_mem {source : Source} {P : Element → Prop} {Q : Relation → Prop}
    (hposition : ∀ e position, P e → P { e with position })
    (hsource : ∀ m, source.model = .ok m → (∀ e ∈ m.elements, P e) ∧ ∀ r ∈ m.relations, Q r)
    {m : Model} (h : Obtained source m) :
    (∀ e ∈ m.elements, P e) ∧ ∀ r ∈ m.relations, Q r := by
  induction h with
  | read hm => exact hsource _ hm
  | built _ ih => exact ih
  | laidOut _ hm ih =>
    obtain ⟨positions, -, rfl⟩ := Layout.run_eq_ok hm
    refine ⟨fun e he => ?_, ih.2⟩
    obtain ⟨e', he', p, -, rfl⟩ := Layout.mem_place he
    exact hposition e' (some p) (ih.1 e' he')
  | placed _ hm ih =>
    obtain ⟨hrelations, helements⟩ := Model.exists_of_mem_update? hm
    refine ⟨fun e he => ?_, hrelations ▸ ih.2⟩
    obtain ⟨e', he', position, rfl⟩ := helements e he
    exact hposition e' position (ih.1 e' he')

/-- A described model is regular. -/
theorem Description.regular_parse (t : Text) : (parse t).Regular := by
  have hnull (q : Option Text) : q.map Json.text ≠ some .null := by
    cases q with
    | none => simp
    | some q => simp
  refine ⟨fun e he => ?_, fun r hr => ?_⟩
  · obtain ⟨hname, -, -, hdescription, technology, -, htechnology⟩ := mem_elements_parse he
    exact ⟨.inl hname, htechnology ▸ hnull technology, by rw [hdescription]; simp⟩
  · obtain ⟨-, -, label, -, hlabel⟩ := mem_relations_parse hr
    rw [Relation.Regular, hlabel]
    exact hnull label

/-- Every model that comes from a source is regular. -/
theorem Obtained.regular {source : Source} {m : Model} (h : Obtained source m) : m.Regular := by
  obtain ⟨helements, hrelations⟩ := h.forall_mem (P := Element.Regular) (Q := Relation.Regular)
    (fun e position he => ⟨he.name, he.technology, he.description⟩)
    (fun m hm => by
      cases source with
      | description t =>
        obtain rfl := Except.ok.inj hm
        exact ⟨(Description.regular_parse t).elements, (Description.regular_parse t).relations⟩
      | document d =>
        exact ⟨(Model.regular_of_ofJson hm).elements, (Model.regular_of_ofJson hm).relations⟩)
  exact ⟨helements, hrelations⟩

end Landscape
