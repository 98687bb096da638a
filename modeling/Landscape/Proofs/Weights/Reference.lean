import Landscape.Model
import Mathlib.Data.List.Induction

/-!
# The matrix of weights, cell by cell

An id stands for the first element that has it, and a cell holds the weight of the last relation
between the two places. Building a matrix writes the relations one after another over a table of
zeros; what comes out is this table.
-/

namespace Landscape

namespace Matrix

/-- The square table whose cells are given. -/
def table (side : Nat) (cell : Nat → Nat → Float) : Matrix :=
  (List.range side).map fun i => (List.range side).map (cell i)

theorem length_table (side : Nat) (cell : Nat → Nat → Float) :
    (table side cell).length = side := by
  rw [table, List.length_map, List.length_range]

theorem zero_eq_table (side : Nat) : zero side = table side fun _ _ => 0.0 := by
  simp only [zero, table, List.map_const', List.length_range]

/-- Writing changes one cell of a table. -/
theorem write_table {side i j : Nat} (cell : Nat → Nat → Float) (weight : Float) :
    (table side cell).write i j weight =
      table side fun a b => if i = a ∧ j = b then weight else cell a b := by
  refine List.ext_getElem? fun a => ?_
  simp only [write, table, List.getElem?_modify, List.getElem?_map]
  rcases Nat.lt_or_ge a side with ha | ha
  · rw [List.getElem?_range ha]
    by_cases hia : i = a
    · simp only [hia, if_true, Option.map_some, true_and]
      refine congrArg some (List.ext_getElem? fun b => ?_)
      simp only [List.getElem?_set, List.getElem?_map, List.length_map, List.length_range]
      rcases Nat.lt_or_ge b side with hb | hb
      · by_cases hjb : j = b
        · simp [hjb, hb]
        · simp [hjb, hb]
      · rw [List.getElem?_eq_none (by rw [List.length_range]; exact hb)]
        simp only [Option.map_none]
        split <;> simp [*]
    · simp [hia]
  · rw [List.getElem?_eq_none (by rw [List.length_range]; exact ha)]
    simp

end Matrix

namespace Model

variable {m : Model}

/-- The place of the first element with an id. -/
def place? (m : Model) (id : Text) : Option Nat := m.elements.findIdx? (·.id == id)

/-- Whether a relation leads from one place to another. -/
def joins (m : Model) (i j : Nat) (r : Relation) : Bool :=
  m.place? r.source == some i && m.place? r.target == some j

/-- The weight of the last relation from one place to another, zero when there is none. -/
def weightAt (m : Model) (relations : List Relation) (i j : Nat) : Float :=
  (((relations.filter (m.joins i j)).getLast?).map (·.weight)).getD 0.0

/-- The matrix of the current elements and relations. -/
def reference (m : Model) : Matrix := Matrix.table m.elements.length (m.weightAt m.relations)

private def indexOf (elements : List Element) : List (Text × Nat) :=
  elements.zipIdx.foldl (fun entries (e, i) => Entries.add entries e.id i) []

private theorem lookup_indexOf (elements : List Element) (id : Text) :
    (indexOf elements).lookup id = elements.findIdx? (·.id == id) := by
  induction elements using List.reverseRecOn with
  | nil => rfl
  | append_singleton elements e ih =>
    have hsnoc : indexOf (elements ++ [e]) =
        Entries.add (indexOf elements) e.id elements.length := by
      simp [indexOf, List.zipIdx_append]
    rw [hsnoc, List.findIdx?_append]
    by_cases hid : id = e.id
    · subst hid
      rw [Entries.lookup_add_self, ih]
      cases elements.findIdx? (·.id == e.id) <;> simp
    · rw [Entries.lookup_add_of_ne _ _ hid, ih]
      simp [Ne.symm hid]

/-- The index gives an id the place of the first element that has it. -/
theorem lookup_index (m : Model) (id : Text) : m.index.lookup id = m.place? id :=
  lookup_indexOf m.elements id

/-- The cell of a relation is where it joins two places. -/
theorem cellOf?_eq_some_iff {r : Relation} {i j : Nat} :
    m.cellOf? r = some (i, j) ↔ m.joins i j r = true := by
  simp only [cellOf?, lookup_index, joins, Bool.and_eq_true, beq_iff_eq, Option.bind_eq_bind,
    Option.bind_eq_some_iff, Option.pure_def, Option.some.injEq, Prod.mk.injEq]
  constructor
  · rintro ⟨_, hi, _, hj, rfl, rfl⟩
    exact ⟨hi, hj⟩
  · rintro ⟨hi, hj⟩
    exact ⟨i, hi, j, hj, rfl, rfl⟩

/-- A further relation decides about its own cell. -/
theorem weightAt_append (relations : List Relation) (r : Relation) :
    m.weightAt (relations ++ [r]) =
      fun i j => if m.joins i j r then r.weight else m.weightAt relations i j := by
  funext i j
  unfold weightAt
  rw [List.filter_append]
  cases hjoins : m.joins i j r with
  | true => simp [hjoins]
  | false => simp [hjoins]

/-- The matrix that is built is the matrix of the current elements and relations. -/
theorem weights_eq_reference (m : Model) : m.weights = m.reference := by
  unfold weights reference
  induction m.relations using List.reverseRecOn with
  | nil => exact Matrix.zero_eq_table _
  | append_singleton relations r ih =>
    rw [List.foldl_append, ih, List.foldl_cons, List.foldl_nil]
    cases hcell : m.cellOf? r with
    | none =>
      have hjoins (i j : Nat) : m.joins i j r = false := by
        rw [Bool.eq_false_iff]
        intro h
        rw [cellOf?_eq_some_iff.mpr h] at hcell
        cases hcell
      simp only [weightAt_append, hjoins, Bool.false_eq_true, if_false]
    | some cell =>
      obtain ⟨i, j⟩ := cell
      have hjoins (a b : Nat) : (i = a ∧ j = b) ↔ m.joins a b r = true := by
        rw [← cellOf?_eq_some_iff, hcell, Option.some.injEq, Prod.mk.injEq]
      simp only [Matrix.write_table, hjoins, weightAt_append]

/-- Each cell of the current matrix is zero or holds the weight of a relation. -/
theorem mem_weights {row : List Float} {weight : Float} (hrow : row ∈ m.weights)
    (hweight : weight ∈ row) : weight = 0.0 ∨ ∃ r ∈ m.relations, r.weight = weight := by
  rw [weights_eq_reference, reference, Matrix.table] at hrow
  obtain ⟨i, -, rfl⟩ := List.mem_map.mp hrow
  obtain ⟨j, -, rfl⟩ := List.mem_map.mp hweight
  unfold weightAt
  cases hlast : (m.relations.filter (m.joins i j)).getLast? with
  | none => exact .inl rfl
  | some r => exact .inr ⟨r, (List.mem_filter.mp (List.mem_of_getLast? hlast)).1, rfl⟩

/-- Where an id stands depends on the ids of the elements. -/
theorem place?_congr {m' : Model} (hids : m'.elements.map (·.id) = m.elements.map (·.id))
    (id : Text) : m'.place? id = m.place? id := by
  have h := congrArg (List.findIdx? (· == id)) hids
  rwa [List.findIdx?_map, List.findIdx?_map] at h

/-- The matrix depends on the ids of the elements and on the relations. -/
theorem reference_congr {m' : Model} (hids : m'.elements.map (·.id) = m.elements.map (·.id))
    (hrelations : m'.relations = m.relations) : m'.reference = m.reference := by
  have hlength : m'.elements.length = m.elements.length := by
    simpa using congrArg List.length hids
  have hjoins (i j : Nat) : m'.joins i j = m.joins i j := by
    funext r
    simp only [joins, place?_congr hids]
  unfold reference
  rw [hlength, hrelations]
  unfold weightAt
  simp only [hjoins]

/-- A matrix that is trusted is the cached one. -/
theorem matrix?_eq_some_iff {weights : Matrix} :
    m.matrix? = some weights ↔ m.matrix = some weights ∧ weights.length = m.elements.length := by
  simp [matrix?, Option.filter_eq_some_iff]

/-- None is trusted where none is cached or the cached one has another side. -/
theorem matrix?_eq_none_iff : m.matrix? = none ↔
    ∀ weights, m.matrix = some weights → weights.length ≠ m.elements.length := by
  simp [matrix?, Option.filter_eq_none_iff]

/-- The current matrix is trusted. -/
theorem matrix?_eq_weights (h : m.matrix = some m.weights) : m.matrix? = some m.weights :=
  matrix?_eq_some_iff.mpr ⟨h, by rw [weights_eq_reference, reference, Matrix.length_table]⟩

end Model

end Landscape
