import Landscape.Proofs.Entries
import Landscape.Proofs.Layout.Resolution
import Landscape.Proofs.Weights.Reference

/-!
# The graph and the matrix of a model

A model is seen as a graph on ids and as a matrix on places. An arc is as the last relation between
its ends says, and a cell holds the weight of the last relation that joins its places; an id that
elements have stands for one place and no place stands for two ids, so a relation joins the places of
two ids exactly when it joins the ids. The places of elements whose id came before stand for no id.
-/

namespace Landscape

namespace Matrix

/-- The cells of a table, and none outside of it. -/
theorem getElem?_table (side : Nat) (cell : Nat → Nat → Float) (i j : Nat) :
    (table side cell)[i]?.bind (·[j]?) = if i < side ∧ j < side then some (cell i j) else none := by
  rw [table, List.getElem?_map]
  by_cases hi : i < side
  · rw [List.getElem?_range hi, Option.map_some, Option.bind_some, List.getElem?_map]
    by_cases hj : j < side
    · rw [List.getElem?_range hj, if_pos ⟨hi, hj⟩, Option.map_some]
    · rw [List.getElem?_eq_none (by simpa using hj), if_neg (fun h => hj h.2), Option.map_none]
  · rw [List.getElem?_eq_none (by simpa using hi), if_neg (fun h => hi h.1), Option.map_none,
      Option.bind_none]

/-- A table is zero where its cells are, and outside of it. -/
theorem cell_table_eq_zero {side : Nat} {cell : Nat → Nat → Float} {i j : Nat}
    (h : cell i j = 0.0) : (table side cell).cell i j = 0.0 := by
  rw [Matrix.cell, getElem?_table]
  split
  · exact h
  · rfl

/-- Every row of a table is as long as the table. -/
theorem length_of_mem_table {side : Nat} {cell : Nat → Nat → Float} {row : List Float}
    (h : row ∈ table side cell) : row.length = side := by
  obtain ⟨i, -, rfl⟩ := List.mem_map.mp h
  rw [List.length_map, List.length_range]

end Matrix

namespace Model

variable {m : Model} {a b id : Text} {i j k : Nat}

/-- An arc is as the last relation between its ends says. -/
theorem lookup_arcs (m : Model) (a b : Text) :
    m.digraph.arcs.lookup (a, b) =
      (m.relations.filter fun r => r.source == a && r.target == b).getLast? := by
  have harcs := Entries.lookup_foldl_put m.relations (fun r => (r.source, r.target)) id [] (a, b)
  rw [Option.map_id, List.lookup_nil, Option.or_none] at harcs
  exact harcs

/-- The vertices are the ids of the elements, and then those that only relations name, each where it
comes first. -/
theorem keys_vertices (m : Model) :
    Entries.keys m.digraph.vertices = (m.elements.map (·.id)).eraseDups ++
      ((m.relations.flatMap fun r => [r.source, r.target]).filter
        fun id => !(m.elements.map (·.id)).contains id).eraseDups := by
  have hdeclared : Entries.keys (m.elements.foldl (fun vs e => Entries.add vs e.id (some e)) []) =
      (m.elements.map (·.id)).eraseDups := by
    rw [Entries.keys_foldl_add]
    simp [Entries.keys]
  rw [vertices_eq, Entries.keys_foldl_add, hdeclared]
  simp

/-- An id has the place of an element that has the id, and no element before it has it. -/
theorem place?_eq_some_iff : m.place? id = some i ↔
    (∃ e, m.elements[i]? = some e ∧ e.id = id) ∧
      ∀ k < i, ∀ e, m.elements[k]? = some e → e.id ≠ id := by
  rw [place?, List.findIdx?_eq_some_iff_getElem]
  constructor
  · rintro ⟨hi, hid, hbefore⟩
    refine ⟨⟨_, List.getElem?_eq_getElem hi, by simpa using hid⟩, fun k hk e he => ?_⟩
    obtain ⟨hlt, rfl⟩ := List.getElem?_eq_some_iff.mp he
    simpa using hbefore k hk
  · rintro ⟨⟨e, he, hid⟩, hbefore⟩
    obtain ⟨hlt, rfl⟩ := List.getElem?_eq_some_iff.mp he
    refine ⟨hlt, by simpa using hid, fun k hk => ?_⟩
    simpa using hbefore k hk _ (List.getElem?_eq_getElem (hk.trans hlt))

/-- No place stands for two ids. -/
theorem eq_of_place? (ha : m.place? a = some i) (hb : m.place? b = some i) : a = b := by
  obtain ⟨⟨e, he, rfl⟩, -⟩ := place?_eq_some_iff.mp ha
  obtain ⟨⟨e', he', rfl⟩, -⟩ := place?_eq_some_iff.mp hb
  rw [Option.some.inj (he.symm.trans he')]

/-- The place of an element whose id came before stands for no id. -/
theorem place?_ne_of_twin {e e' : Element} (hik : i < k) (he : m.elements[i]? = some e)
    (he' : m.elements[k]? = some e') (htwins : e.id = e'.id) (id : Text) :
    m.place? id ≠ some k := by
  intro hplace
  obtain ⟨⟨e'', he'', rfl⟩, hbefore⟩ := place?_eq_some_iff.mp hplace
  obtain rfl := Option.some.inj (he'.symm.trans he'')
  exact hbefore i hik e he htwins

/-- A relation joins the places of two ids exactly when it leads from the one to the other. -/
theorem joins_eq (hi : m.place? a = some i) (hj : m.place? b = some j) (r : Relation) :
    m.joins i j r = (r.source == a && r.target == b) := by
  rw [Bool.eq_iff_iff]
  simp only [joins, Bool.and_eq_true, beq_iff_eq]
  constructor
  · rintro ⟨hsource, htarget⟩
    exact ⟨eq_of_place? hsource hi, eq_of_place? htarget hj⟩
  · rintro ⟨rfl, rfl⟩
    exact ⟨hi, hj⟩

/-- The cell of two ids holds the weight of the arc between them, and zero if there is none. -/
theorem weightAt_eq (hi : m.place? a = some i) (hj : m.place? b = some j) :
    m.weightAt m.relations i j = ((m.digraph.arcs.lookup (a, b)).map (·.weight)).getD 0.0 := by
  rw [weightAt, lookup_arcs, funext (joins_eq hi hj)]

/-- Nothing is written to the row and to the column of a place that stands for no id. -/
theorem weightAt_eq_zero (hk : ∀ id, m.place? id ≠ some k) (relations : List Relation) (j : Nat) :
    m.weightAt relations k j = 0.0 ∧ m.weightAt relations j k = 0.0 := by
  have hrow : relations.filter (m.joins k j) = [] := by simp [List.filter_eq_nil_iff, joins, hk]
  have hcolumn : relations.filter (m.joins j k) = [] := by simp [List.filter_eq_nil_iff, joins, hk]
  rw [weightAt, weightAt, hrow, hcolumn]
  exact ⟨rfl, rfl⟩

/--
The graph of a model and its matrix hold the same weights. When the matrix of a model with elements
is built, it is square with a row and a column for each element, and the cell at the first places of
two ids holds the weight of the arc between the ids, or zero if there is no such arc; the rows and
columns of elements whose id came before are zero. An arc is as the last of the relations between its
ends says, its label included. The vertices are the ids of the elements in order, each once, and then
the other ends of relations in the order in which they are mentioned first.
-/
theorem digraph_holds_matrix_weights (h : m.elements ≠ []) :
    ∃ weights, m.build.matrix = some weights ∧
      weights.length = m.elements.length ∧
      (∀ row ∈ weights, row.length = m.elements.length) ∧
      (∀ a b i j, m.elements.findIdx? (·.id == a) = some i →
        m.elements.findIdx? (·.id == b) = some j →
        weights[i]?.bind (·[j]?) =
          some (((m.build.digraph.arcs.lookup (a, b)).map (·.weight)).getD 0.0)) ∧
      (∀ i k e e', i < k → m.elements[i]? = some e → m.elements[k]? = some e' → e.id = e'.id →
        ∀ j, weights.cell k j = 0.0 ∧ weights.cell j k = 0.0) ∧
      (∀ a b, m.build.digraph.arcs.lookup (a, b) =
        (m.relations.filter fun r => r.source == a && r.target == b).getLast?) ∧
      Entries.keys m.build.digraph.vertices = (m.elements.map (·.id)).eraseDups ++
        ((m.relations.flatMap fun r => [r.source, r.target]).filter
          fun id => !(m.elements.map (·.id)).contains id).eraseDups := by
  have hmatrix : m.build.matrix = some m.reference := by
    change (if m.elements.isEmpty then none else some m.weights) = _
    rw [if_neg (by simpa using h), weights_eq_reference]
  refine ⟨m.reference, hmatrix, Matrix.length_table _ _, fun row => Matrix.length_of_mem_table,
    ?cells, ?twins, m.lookup_arcs, m.keys_vertices⟩
  case cells =>
    intro a b i j hi hj
    have hlt : i < m.elements.length ∧ j < m.elements.length :=
      ⟨(List.findIdx?_eq_some_iff_getElem.mp hi).1, (List.findIdx?_eq_some_iff_getElem.mp hj).1⟩
    rw [reference, Matrix.getElem?_table, if_pos hlt, weightAt_eq hi hj]
    rfl
  case twins =>
    intro i k e e' hik he he' htwins j
    obtain ⟨hrow, hcolumn⟩ :=
      weightAt_eq_zero (place?_ne_of_twin hik he he' htwins) m.relations j
    exact ⟨Matrix.cell_table_eq_zero hrow, Matrix.cell_table_eq_zero hcolumn⟩

/-- Two elements share an id, two relations lead from b to a of which only the first has a label, and
others lead to and from ids that no element has. -/
theorem digraph_holds_matrix_weights_of_twins :
    let a : Text := "a"
    let b : Text := "b"
    let last : Relation := { source := b, target := a, weight := 5.0 }
    let m : Model :=
      { elements := [{ id := a, name := "A", kind := .system },
          { id := b, name := "B", kind := .person }, { id := a, name := "C", kind := .person }]
        relations := [{ source := b, target := a, label := some (.text "uses"), weight := 2.0 },
          { source := "z", target := b }, last, { source := a, target := "y" }] }
    m.elements ≠ [] ∧ m.elements.findIdx? (·.id == b) = some 1 ∧
      m.elements.findIdx? (·.id == a) = some 0 ∧
      m.build.digraph.arcs.lookup (b, a) = some last ∧
      Entries.keys m.build.digraph.vertices = [a, b, ("z" : Text), ("y" : Text)] ∧
      ∃ weights, m.build.matrix = some weights ∧ weights[1]?.bind (·[0]?) = some 5.0 ∧
        ∀ j, weights.cell 2 j = 0.0 ∧ weights.cell j 2 = 0.0 := by
  intro a b last m
  have hne : m.elements ≠ [] := List.cons_ne_nil _ _
  obtain ⟨weights, hmatrix, -, -, hcells, htwins, harcs, hvertices⟩ := digraph_holds_matrix_weights hne
  have hb : m.elements.findIdx? (·.id == b) = some 1 := by decide +kernel
  have ha : m.elements.findIdx? (·.id == a) = some 0 := by decide +kernel
  have harc : m.build.digraph.arcs.lookup (b, a) = some last :=
    (harcs b a).trans (by decide +kernel)
  have hcell : weights[1]?.bind (·[0]?) = some 5.0 := by
    rw [hcells b a 1 0 hb ha, harc]
    rfl
  exact ⟨hne, hb, ha, harc, hvertices.trans (by decide +kernel), weights, hmatrix, hcell,
    htwins 0 2 _ _ (by decide) rfl rfl rfl⟩

end Model

end Landscape
