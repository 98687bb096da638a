import Landscape.Layout.Quality
import Landscape.Proofs.Layout.Placement
import Landscape.Proofs.Weights.Reference
import Mathlib.Data.List.Find
import Mathlib.Data.List.Forall2

/-!
# One element for each id

Ids are looked up in four ways: through the elements one after another, through the index of places,
in the graph of the model, and among the positions. All of them come to the first element that has
the id; the positions do so where no element lacks one, as it is after a layout. Hence the segments
of a model that was laid out run between the elements whose cell their relation is written to.
-/

namespace Landscape

namespace Model

variable {m : Model}

/-- The element that is found for an id is the one at the place of the id. -/
theorem find?_eq_bind_place? (m : Model) (id : Text) :
    m.find? id = (m.place? id).bind (m.elements[·]?) :=
  List.find?_eq_bind_findIdx?_getElem?

/-- Nothing is found for the ids that have no place. -/
theorem find?_eq_none_iff (m : Model) (id : Text) :
    m.find? id = none ↔ id ∉ Entries.keys m.index := by
  rw [← Entries.lookup_isSome_iff, lookup_index, find?, place?, List.findIdx?_isSome,
    List.find?_eq_none]
  simp

/-- The vertices of the graph, as entries that are added in a row. -/
theorem vertices_eq (m : Model) :
    m.digraph.vertices =
      (m.relations.flatMap fun r => [r.source, r.target]).foldl
        (fun vs id => Entries.add vs id none)
        (m.elements.foldl (fun vs e => Entries.add vs e.id (some e)) []) := by
  rw [List.foldl_flatMap]
  rfl

/-- The vertex of an id carries the element that is found for the id. An id without an element is a
vertex that carries nothing if a relation names it, and no vertex otherwise. -/
theorem lookup_vertices (m : Model) (id : Text) :
    m.digraph.vertices.lookup id =
      ((m.find? id).map some).or (if m.relations.any (·.touches id) then some none else none) := by
  have hnamed : ((m.relations.flatMap fun r => [r.source, r.target]).find? (· == id)).map
      (fun _ => (none : Option Element)) =
      if m.relations.any (·.touches id) then some none else none := by
    have htouches : ((m.relations.flatMap fun r => [r.source, r.target]).find? (· == id)).isSome =
        m.relations.any (·.touches id) := by
      rw [List.isSome_find?, List.any_flatMap]
      simp [Relation.touches]
    rw [← htouches]
    cases (m.relations.flatMap fun r => [r.source, r.target]).find? (· == id) <;> rfl
  rw [vertices_eq, Entries.lookup_foldl_add, Entries.lookup_foldl_add, hnamed]
  rfl

end Model

namespace Layout

variable {m m' : Model} {r : Relation}

/-- The positions, as entries that are added in a row. -/
theorem positionsById_eq (m : Model) :
    positionsById m =
      (m.elements.filterMap fun e => e.position.map (e.id, ·)).foldl
        (fun found p => Entries.add found p.1 p.2) [] := by
  rw [List.foldl_filterMap, positionsById]
  congr 1
  funext found e
  cases e.position <;> rfl

/-- Where every element has a position, that of an id is the position of the element that is found
for it. -/
theorem lookup_positionsById (h : ∀ e ∈ m.elements, e.position.isSome = true) (id : Text) :
    (positionsById m).lookup id = (m.find? id).bind (·.position) := by
  have hfirst : m.elements.find? (fun e => (e.position.map (e.id, ·)).any (·.1 == id)) =
      m.find? id := by
    refine List.find?_congr fun e he => ?_
    obtain ⟨p, hp⟩ := Option.isSome_iff_exists.mp (h e he)
    rw [hp]
    rfl
  rw [positionsById_eq, Entries.lookup_foldl_add, List.find?_filterMap, hfirst]
  cases hfound : m.find? id with
  | none => rfl
  | some e =>
    obtain ⟨p, hp⟩ := Option.isSome_iff_exists.mp (h e (List.mem_of_find?_eq_some hfound))
    simp [hp]

/-- A layout gives every element a position. -/
theorem isSome_position_place {positions : List (Point Float)} :
    ∀ e ∈ (place m positions).elements, e.position.isSome = true := by
  intro e he
  obtain ⟨-, -, p, -, rfl⟩ := mem_place he
  rfl

/-- A segment that a relation is drawn as: its ends are the positions of the elements whose places
are the row and the column of the relation's cell. -/
structure Draws (m placed : Model) (r : Relation) (s : Segment) : Prop where
  source : s.source = r.source
  target : s.target = r.target
  ends : ∃ i j first last, m.cellOf? r = some (i, j) ∧
    placed.elements[i]? = some first ∧ first.position = some s.first ∧
    placed.elements[j]? = some last ∧ last.position = some s.last

/-- Items that a partial function keeps stand in the order of what it makes of them. -/
theorem forall₂_filterMap {α β : Type} {R : α → β → Prop} {keep : α → Bool} {f : α → Option β}
    {items : List α} (hkept : ∀ a ∈ items, keep a = true → ∃ b, f a = some b ∧ R a b)
    (hdropped : ∀ a ∈ items, keep a = false → f a = none) :
    List.Forall₂ R (items.filter keep) (items.filterMap f) := by
  induction items with
  | nil => exact .nil
  | cons a items ih =>
    rw [List.forall_mem_cons] at hkept hdropped
    have hrest := ih hkept.2 hdropped.2
    cases hkeep : keep a with
    | true =>
      obtain ⟨b, hb, hR⟩ := hkept.1 hkeep
      rw [List.filter_cons_of_pos hkeep, List.filterMap_cons_some hb]
      exact .cons hR hrest
    | false =>
      rw [List.filter_cons_of_neg (by simp [hkeep]), List.filterMap_cons_none (hdropped.1 hkeep)]
      exact hrest

/-- After a layout an id that has a place has a position: that of the element at the place. -/
theorem exists_position_of_place? {positions : List (Point Float)}
    (hlength : positions.length = m.elements.length) {id : Text} {i : Nat}
    (hi : m.place? id = some i) :
    ∃ e p, (place m positions).elements[i]? = some e ∧ e.position = some p ∧
      (positionsById (place m positions)).lookup id = some p := by
  have hplace : (place m positions).place? id = some i := by
    rw [← hi]
    exact Model.place?_congr (map_place (·.id) (fun _ _ => rfl) hlength) id
  obtain ⟨hlt, -⟩ := List.findIdx?_eq_some_iff_getElem.mp hplace
  have hget := List.getElem?_eq_getElem hlt
  obtain ⟨p, hp⟩ := Option.isSome_iff_exists.mp
    (isSome_position_place _ (List.getElem_mem hlt))
  refine ⟨_, p, hget, hp, ?_⟩
  rw [lookup_positionsById isSome_position_place, Model.find?_eq_bind_place?, hplace,
    Option.bind_some, hget, Option.bind_some, hp]

/-- After a layout an id without a place has no position. -/
theorem lookup_positionsById_of_place?_eq_none {positions : List (Point Float)}
    (hlength : positions.length = m.elements.length) {id : Text} (hi : m.place? id = none) :
    (positionsById (place m positions)).lookup id = none := by
  have hplace : (place m positions).place? id = none := by
    rw [← hi]
    exact Model.place?_congr (map_place (·.id) (fun _ _ => rfl) hlength) id
  rw [lookup_positionsById isSome_position_place, Model.find?_eq_bind_place?, hplace]
  rfl

/-- After a layout a relation that has a cell and is no loop is drawn between the elements of its
cell. -/
theorem exists_draws {positions : List (Point Float)}
    (hlength : positions.length = m.elements.length)
    (hkept : (!r.isLoop && (m.cellOf? r).isSome) = true) :
    ∃ s, segment? (positionsById (place m positions)) r = some s ∧
      Draws m (place m positions) r s := by
  simp only [Bool.and_eq_true, Bool.not_eq_true', Option.isSome_iff_exists] at hkept
  obtain ⟨hloop, ⟨i, j⟩, hcell⟩ := hkept
  have hjoins := Model.cellOf?_eq_some_iff.mp hcell
  simp only [Model.joins, Bool.and_eq_true, beq_iff_eq] at hjoins
  obtain ⟨first, p, hfirst, hp, hsource⟩ := exists_position_of_place? hlength hjoins.1
  obtain ⟨last, q, hlast, hq, htarget⟩ := exists_position_of_place? hlength hjoins.2
  refine ⟨⟨r.source, r.target, p, q⟩, ?_, rfl, rfl, i, j, first, last, hcell, hfirst, hp, hlast, hq⟩
  simp [segment?, hloop, hsource, htarget]

/-- After a layout nothing is drawn for a loop, nor for a relation that the matrix left out. -/
theorem segment?_eq_none {positions : List (Point Float)}
    (hlength : positions.length = m.elements.length)
    (hdropped : (!r.isLoop && (m.cellOf? r).isSome) = false) :
    segment? (positionsById (place m positions)) r = none := by
  unfold segment?
  cases hloop : r.isLoop with
  | true => simp
  | false =>
    have hcell : m.cellOf? r = none := by simpa [hloop] using hdropped
    rw [Model.cellOf?, Model.lookup_index, Model.lookup_index] at hcell
    cases hi : m.place? r.source with
    | none => simp [lookup_positionsById_of_place?_eq_none hlength hi]
    | some i =>
      have hj : m.place? r.target = none := by
        simpa [hi, ← Option.eq_none_iff_forall_ne_some] using hcell
      simp [lookup_positionsById_of_place?_eq_none hlength hj]

/-- After a layout the segments are those of the relations that have a cell and are no loops. -/
theorem draws_segments {positions : List (Point Float)}
    (hlength : positions.length = m.elements.length) :
    List.Forall₂ (Draws m (place m positions))
      (m.relations.filter fun r => !r.isLoop && (m.cellOf? r).isSome)
      (segments (place m positions)) :=
  forall₂_filterMap (fun _ _ => exists_draws hlength) fun _ _ => segment?_eq_none hlength

end Layout

namespace Model

/--
Whatever looks an id up finds the same element. The element that is found for an id is the one at
its place in the index, it is the one that is changed in place of the id, and the vertex of the id
carries it; nothing is found for exactly those ids that the index does not have. After the matrix of
a model was built and a layout of it succeeded, the segments whose crossings count are those of the
relations that were written to a cell and are no loops, in order, and each of them runs between the
positions of the elements at the row and at the column of the cell.
-/
theorem ids_resolve_alike (m : Model) :
    (∀ id,
      m.find? id = (m.index.lookup id).bind (m.elements[·]?) ∧
      (m.find? id = none ↔ id ∉ Entries.keys m.index) ∧
      (∀ change, m.update? id change = (m.index.lookup id).map fun i =>
        { m with elements := m.elements.modify i change }) ∧
      m.digraph.vertices.lookup id = ((m.find? id).map some).or
        (if m.relations.any (·.touches id) then some none else none)) ∧
    ∀ plan fallback m' outcome, Layout.run plan fallback m.build = .ok (m', outcome) →
      List.Forall₂ (Layout.Draws m m')
        (m.relations.filter fun r => !r.isLoop && (m.cellOf? r).isSome) (Layout.segments m') := by
  refine ⟨fun id => ⟨?_, m.find?_eq_none_iff id, fun change => ?_, m.lookup_vertices id⟩, ?_⟩
  · rw [lookup_index]
    exact m.find?_eq_bind_place? id
  · rw [lookup_index]
    rfl
  · intro plan fallback m' outcome hrun
    obtain ⟨positions, hpositions, rfl⟩ := Layout.run_eq_ok hrun
    -- building the matrix leaves elements and relations alone, and with them every cell
    exact (Layout.draws_segments (Layout.length_of_positionsOf hpositions)).imp
      fun _ _ h => ⟨h.source, h.target, h.ends⟩

/-- Two elements share an id, one relation is a loop and one has an unknown end. Of the four
relations two are drawn, both to the first of the twins. -/
theorem ids_resolve_alike_of_twins :
    let m : Model :=
      { elements := [{ id := "a", name := "A", kind := .system },
          { id := "b", name := "B", kind := .person },
          { id := "a", name := "C", kind := .person, position := some ⟨1.0, 2.0⟩ }]
        relations := [{ source := "b", target := "a" }, { source := "a", target := "a" },
          { source := "c", target := "b" }, { source := "a", target := "b", weight := 2.0 }] }
    let plan : Layout.Plan := ⟨1, 0.1, 1000.0, 1.0, some 7⟩
    ∃ m' outcome, Layout.run plan 0 m.build = .ok (m', outcome) ∧
      List.Forall₂ (Layout.Draws m m')
        [{ source := "b", target := "a" }, { source := "a", target := "b", weight := 2.0 }]
        (Layout.segments m') := by
  intro m plan
  have hpositions := Layout.positionsOf_eq_ok_iff.mpr
    ⟨(rfl : m.build.elements.isEmpty = false),
      (by decide +kernel : plan.iterations < 10 ^ Number.maxDigits),
      (by decide +kernel : plan.side.isFinite = true), _, _, rfl,
      (rfl : plan.seedOr 0 = .ok 7), rfl⟩
  have hrun : ∃ m' outcome, Layout.run plan 0 m.build = .ok (m', outcome) :=
    ⟨_, _, by rw [Layout.run, hpositions]; rfl⟩
  obtain ⟨m', outcome, hrun⟩ := hrun
  exact ⟨m', outcome, hrun, (ids_resolve_alike m).2 plan 0 m' outcome hrun⟩

end Model

end Landscape
