import Landscape.Proofs.Cycle.Arcs
import Landscape.Proofs.Cycle.Liveness

/-!
# Ids and their places

The cycles of a model are listed on the places of its ids. Every id that an element or a relation
names has one place, and the arcs between places are the relations between their ids, several of the
same ends counting once.
-/

namespace Landscape.Model

variable {m : Model} {a b : Text} {i j : Nat}

/-- Every id comes once among the vertices, and every end of a relation is one. -/
theorem vertices_spec (m : Model) : (Entries.keys m.digraph.vertices).Nodup ∧
    ∀ r ∈ m.relations, r.source ∈ Entries.keys m.digraph.vertices ∧
      r.target ∈ Entries.keys m.digraph.vertices := by
  unfold digraph
  generalize m.relations = rs
  induction rs using List.reverseRecOn with
  | nil =>
    refine ⟨?_, by simp⟩
    generalize m.elements = es
    induction es using List.reverseRecOn with
    | nil => exact List.nodup_nil
    | append_singleton es e ih =>
      rw [List.foldl_append]
      exact Entries.nodup_keys_add ih _ _
  | append_singleton rs r ih =>
    obtain ⟨hnodup, hmem⟩ := ih
    simp only [List.foldl_append, List.foldl_cons, List.foldl_nil]
    refine ⟨Entries.nodup_keys_add (Entries.nodup_keys_add hnodup _ _) _ _, fun r' hr' => ?_⟩
    simp only [Entries.mem_keys_add]
    rcases List.mem_append.mp hr' with hr' | hr'
    · exact ⟨.inl (.inl (hmem r' hr').1), .inl (.inl (hmem r' hr').2)⟩
    · obtain rfl := List.mem_singleton.mp hr'
      exact ⟨.inl (.inr rfl), .inr rfl⟩

/-- The arcs join the ids that relations join, each pair of them once. -/
theorem arcs_spec (m : Model) : (Entries.keys m.digraph.arcs).Nodup ∧
    ∀ a b, (a, b) ∈ Entries.keys m.digraph.arcs ↔ m.Leads a b := by
  unfold digraph Leads
  generalize m.relations = rs
  induction rs using List.reverseRecOn with
  | nil => simp [Entries.keys]
  | append_singleton rs r ih =>
    obtain ⟨hnodup, hmem⟩ := ih
    simp only [List.foldl_append, List.foldl_cons, List.foldl_nil]
    refine ⟨Entries.nodup_keys_put hnodup _ _, fun a b => ?_⟩
    rw [Entries.mem_keys_put, hmem]
    simp only [List.mem_append, List.mem_singleton, Prod.mk.injEq, or_and_right, exists_or,
      exists_eq_left]
    rw [eq_comm (a := a), eq_comm (a := b)]

theorem sortedIds_perm (m : Model) : m.sortedIds.Perm (Entries.keys m.digraph.vertices) :=
  List.mergeSort_perm _ _

theorem nodup_sortedIds (m : Model) : m.sortedIds.Nodup :=
  m.sortedIds_perm.nodup_iff.mpr m.vertices_spec.1

/-- The ends of every relation have places. -/
theorem Leads.mem_sortedIds (h : m.Leads a b) : a ∈ m.sortedIds ∧ b ∈ m.sortedIds := by
  obtain ⟨r, hr, rfl, rfl⟩ := h
  rw [m.sortedIds_perm.mem_iff, m.sortedIds_perm.mem_iff]
  exact m.vertices_spec.2 r hr

/-- The place of an id. -/
def place (m : Model) (id : Text) : Nat := m.sortedIds.idxOf id

/-- The id of a place. -/
def idAt (m : Model) (i : Nat) : Text := m.sortedIds.toArray.getD i []

theorem place_lt (h : a ∈ m.sortedIds) : m.place a < m.sortedIds.length :=
  List.idxOf_lt_length_iff.mpr h

theorem idAt_of_lt (h : i < m.sortedIds.length) : m.idAt i = m.sortedIds[i] := by
  simp [idAt, h]

theorem idAt_place (h : a ∈ m.sortedIds) : m.idAt (m.place a) = a := by
  rw [idAt_of_lt (place_lt h)]
  exact List.getElem_idxOf _

theorem place_idAt (h : i < m.sortedIds.length) : m.place (m.idAt i) = i := by
  rw [idAt_of_lt h]
  exact m.nodup_sortedIds.idxOf_getElem i h

/-- The arcs on places. -/
def placeArcs (m : Model) : List (Nat × Nat) :=
  m.digraph.arcs.map fun arc => (m.place arc.1.1, m.place arc.1.2)

theorem mem_placeArcs : (i, j) ∈ m.placeArcs ↔
    i < m.sortedIds.length ∧ j < m.sortedIds.length ∧ m.Leads (m.idAt i) (m.idAt j) := by
  have hkeys := m.arcs_spec.2
  constructor
  · intro h
    obtain ⟨⟨⟨a, b⟩, r⟩, harc, hij⟩ := List.mem_map.mp h
    obtain ⟨rfl, rfl⟩ := Prod.mk.inj hij
    have hleads := (hkeys a b).mp (List.mem_map_of_mem harc)
    obtain ⟨ha, hb⟩ := hleads.mem_sortedIds
    refine ⟨place_lt ha, place_lt hb, ?_⟩
    rwa [idAt_place ha, idAt_place hb]
  · rintro ⟨hi, hj, hleads⟩
    obtain ⟨arc, harc, hends⟩ := List.mem_map.mp ((hkeys _ _).mpr hleads)
    refine List.mem_map.mpr ⟨arc, harc, ?_⟩
    rw [hends, place_idAt hi, place_idAt hj]

theorem nodup_placeArcs (m : Model) : m.placeArcs.Nodup := by
  have hmap : m.placeArcs =
      (Entries.keys m.digraph.arcs).map fun ends => (m.place ends.1, m.place ends.2) := by
    simp [placeArcs, Entries.keys]
  rw [hmap]
  refine List.Nodup.map_on ?_ m.arcs_spec.1
  rintro ⟨a, b⟩ hab ⟨c, d⟩ hcd heq
  obtain ⟨ha, hb⟩ := ((m.arcs_spec.2 a b).mp hab).mem_sortedIds
  obtain ⟨hc, hd⟩ := ((m.arcs_spec.2 c d).mp hcd).mem_sortedIds
  obtain ⟨hac, hbd⟩ := Prod.mk.inj heq
  rw [← idAt_place ha, ← idAt_place hb, ← idAt_place hc, ← idAt_place hd, hac, hbd]

/-- Reading a row of a table of sorted rows. -/
theorem mem_rows {rows : Nat → List Nat} {n : Nat} :
    j ∈ ((List.range n).map fun i => (rows i).mergeSort (· ≤ ·)).toArray.getD i [] ↔
      i < n ∧ j ∈ rows i := by
  by_cases hi : i < n <;> simp [hi, List.mem_mergeSort]

theorem nodup_rows {rows : Nat → List Nat} (hrows : ∀ i, (rows i).Nodup) (n i : Nat) :
    (((List.range n).map fun i => (rows i).mergeSort (· ≤ ·)).toArray.getD i []).Nodup := by
  by_cases hi : i < n
  · have hsorted : ((rows i).mergeSort (· ≤ ·)).Nodup :=
      (List.mergeSort_perm (rows i) _).nodup_iff.mpr (hrows i)
    simpa [hi] using hsorted
  · simp [hi]

theorem size_placeGraph (m : Model) : m.placeGraph.size = m.sortedIds.length := by
  simp [placeGraph, PlaceGraph.size]

/-- Arcs between places are relations between their ids. -/
theorem arc_placeGraph : m.placeGraph.Arc i j ↔
    i < m.sortedIds.length ∧ j < m.sortedIds.length ∧ m.Leads (m.idAt i) (m.idAt j) := by
  rw [← mem_placeArcs]
  refine mem_rows.trans ⟨?_, fun h => ⟨(mem_placeArcs.mp h).1, ?_⟩⟩
  · rintro ⟨_, h⟩
    obtain ⟨⟨i', j'⟩, harc, rfl⟩ := List.mem_map.mp h
    obtain ⟨harc, hi⟩ := List.mem_filter.mp harc
    rw [beq_iff_eq] at hi
    exact hi ▸ harc
  · exact List.mem_map.mpr ⟨(i, j), List.mem_filter.mpr ⟨h, by simp⟩, rfl⟩

/-- The targets and the sources of places describe the same arcs. -/
theorem consistent_placeGraph (m : Model) : m.placeGraph.Consistent where
  mem_sourcesOf := by
    intro i j
    rw [arc_placeGraph, ← mem_placeArcs]
    refine mem_rows.trans ⟨?_, fun h => ⟨(mem_placeArcs.mp h).2.1, ?_⟩⟩
    · rintro ⟨_, h⟩
      obtain ⟨⟨i', j'⟩, harc, rfl⟩ := List.mem_map.mp h
      obtain ⟨harc, hj⟩ := List.mem_filter.mp harc
      rw [beq_iff_eq] at hj
      exact hj ▸ harc
    · exact List.mem_map.mpr ⟨(i, j), List.mem_filter.mpr ⟨h, by simp⟩, rfl⟩
  lt_size := by
    intro i j h
    obtain ⟨hi, hj, _⟩ := arc_placeGraph.mp h
    rw [size_placeGraph]
    exact ⟨hi, hj⟩
  nodup_targetsOf := by
    refine nodup_rows (fun i => ?_) _
    refine List.Nodup.map_on ?_ (m.nodup_placeArcs.filter _)
    rintro ⟨i₁, j₁⟩ h₁ ⟨i₂, j₂⟩ h₂ rfl
    simp only [List.mem_filter, beq_iff_eq] at h₁ h₂
    rw [h₁.2, h₂.2]
  nodup_sourcesOf := by
    refine nodup_rows (fun j => ?_) _
    refine List.Nodup.map_on ?_ (m.nodup_placeArcs.filter _)
    rintro ⟨i₁, j₁⟩ h₁ ⟨i₂, j₂⟩ h₂ rfl
    simp only [List.mem_filter, beq_iff_eq] at h₁ h₂
    rw [h₁.2, h₂.2]

end Landscape.Model
