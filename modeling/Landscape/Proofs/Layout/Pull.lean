import Landscape.Proofs.Layout.Placement
import Landscape.Proofs.Weights.Digraph

/-!
# A layout depends on what pulls

A weight takes part in a layout only between two places and only where it is positive. Of two
matrices that agree as far as this, every step from the same positions leads to the same positions,
and from one seed so does the whole layout, whatever else is different in the models. A relation that
changes no such weight can come and go.
-/

namespace Landscape

namespace Matrix

/-- A matrix has a side: so many rows, and so many cells in each of them. -/
structure HasSide (side : Nat) (m : Matrix) : Prop where
  length_eq : m.length = side
  length_row : ∀ row ∈ m, row.length = side

/-- Two weights pull alike: they are the same, or neither pulls. -/
def PullsAlike (w w' : Float) : Prop := w = w' ∨ ¬0 < w ∧ ¬0 < w'

instance (w w' : Float) : Decidable (PullsAlike w w') :=
  inferInstanceAs (Decidable (w = w' ∨ ¬0 < w ∧ ¬0 < w'))

/-- The weights of two matrices pull alike between any two different places. -/
def PullAlike (side : Nat) (m m' : Matrix) : Prop :=
  ∀ i < side, ∀ j < side, i ≠ j → PullsAlike (m.cell i j) (m'.cell i j)

instance (side : Nat) (m m' : Matrix) : Decidable (PullAlike side m m') :=
  inferInstanceAs (Decidable (∀ i < side, ∀ j < side, i ≠ j →
    PullsAlike (m.cell i j) (m'.cell i j)))

variable {m m' : Matrix} {side i j : Nat}

/-- Each place has a row, and its cells are those of the matrix. -/
theorem HasSide.exists_row (h : m.HasSide side) (hi : i < side) :
    ∃ row, m.getD i [] = row ∧ row.length = side ∧ ∀ j (hj : j < row.length), row[j] = m.cell i j := by
  have hlt : i < m.length := h.length_eq ▸ hi
  refine ⟨m[i], by simp [hlt], h.length_row _ (List.getElem_mem hlt), fun j hj => ?_⟩
  simp [cell, hlt, hj]

theorem hasSide_table (side : Nat) (cell : Nat → Nat → Float) : (table side cell).HasSide side :=
  ⟨length_table side cell, fun _ => length_of_mem_table⟩

theorem cell_table {cell : Nat → Nat → Float} (hi : i < side) (hj : j < side) :
    (table side cell).cell i j = cell i j := by
  rw [Matrix.cell, getElem?_table, if_pos ⟨hi, hj⟩, Option.getD_some]

end Matrix

namespace Layout

open Landscape.Matrix

variable {rest : Float} {positions : List (Point Float)} {weights weights' : Matrix} {side i : Nat}

/-- Weights that pull alike lead to the same force, and so do any two from a place to itself. -/
theorem force_congr {w w' : Float} {j : Nat} (h : i ≠ j → PullsAlike w w') (p q : Point Float) :
    force rest (i == j) p q w = force rest (i == j) p q w' := by
  by_cases hij : i = j
  · simp only [force, hij, beq_self_eq_true, if_true]
  · rcases h hij with rfl | ⟨hw, hw'⟩
    · rfl
    · simp only [force, magnitude, if_neg hw, if_neg hw']

/-- The forces on the element at a place, from the first element to the last. -/
def forcesOn (rest : Float) (positions : List (Point Float)) (weights : Matrix) (i : Nat)
    (p : Point Float) : List (Point Float) :=
  ((positions.zip (weights.getD i [])).zipIdx).map fun ((q, weight), j) =>
    force rest (i == j) p q weight

/-- The net force is the sum of the forces. -/
theorem netForce_eq_foldl (p : Point Float) :
    netForce rest positions weights i p =
      (forcesOn rest positions weights i p).foldl (fun sum f => ⟨sum.x + f.x, sum.y + f.y⟩)
        ⟨0.0, 0.0⟩ := by
  rw [netForce, forcesOn, List.foldl_map]

/-- Matrices that pull alike lead to the same forces on each element. -/
theorem forcesOn_congr (h : weights.HasSide side) (h' : weights'.HasSide side)
    (halike : PullAlike side weights weights') (hlength : positions.length = side) (hi : i < side)
    (p : Point Float) :
    forcesOn rest positions weights i p = forcesOn rest positions weights' i p := by
  obtain ⟨row, hrow, hside, hcells⟩ := h.exists_row hi
  obtain ⟨row', hrow', hside', hcells'⟩ := h'.exists_row hi
  rw [forcesOn, forcesOn, hrow, hrow']
  refine List.ext_getElem (by simp [hside, hside']) fun j hj _ => ?_
  simp only [List.length_map, List.length_zipIdx, List.length_zip, hlength, hside, min_self] at hj
  simp only [List.getElem_map, List.getElem_zipIdx, List.getElem_zip, Nat.zero_add, hcells, hcells']
  exact force_congr (halike i hi j hj) _ _

/-- Matrices that pull alike lead to the same step. -/
theorem step_congr (plan : Plan) (h : weights.HasSide side) (h' : weights'.HasSide side)
    (halike : PullAlike side weights weights') (hlength : positions.length = side) (t : Nat) :
    step plan weights t positions = step plan weights' t positions := by
  have hforces : displacement plan.idealDistance positions weights =
      displacement plan.idealDistance positions weights' := by
    refine List.map_congr_left fun (p, i) hmem => ?_
    have hi : i < side := by
      have hlt := List.snd_lt_add_of_mem_zipIdx hmem
      omega
    simp only [netForce_eq_foldl, forcesOn_congr h h' halike hlength hi]
  simp only [step, hforces]

/-- Matrices that pull alike lead from the same positions to the same positions. -/
theorem simulate_congr (plan : Plan) (h : weights.HasSide side) (h' : weights'.HasSide side)
    (halike : PullAlike side weights weights') (hlength : positions.length = side) :
    simulate plan weights positions = simulate plan weights' positions := by
  -- The two runs are at the same positions after each number of steps, and these are as many as at
  -- the start.
  unfold simulate
  suffices hrun : ∀ n, (List.range n).foldl (fun ps t => step plan weights t ps) positions =
      (List.range n).foldl (fun ps t => step plan weights' t ps) positions ∧
      ((List.range n).foldl (fun ps t => step plan weights t ps) positions).length = side from
    (hrun plan.iterations).1
  intro n
  induction n with
  | zero => exact ⟨rfl, hlength⟩
  | succ n ih =>
    simp only [List.range_succ, List.foldl_append, List.foldl_cons, List.foldl_nil, length_step]
    rw [← ih.1]
    exact ⟨step_congr plan h h' halike ih.2 n, ih.2⟩

variable {plan : Plan} {seed : Int} {fallback fallback' : Nat} {m m' : Model} {outcome : Outcome}

/-- Where every element is after a layout. -/
def finalPositions (result : Model × Outcome) : List (Option (Point Float)) :=
  result.1.elements.map (·.position)

/-- A layout ends with the elements where its positions are, or fails as they do. -/
theorem map_finalPositions_run (plan : Plan) (fallback : Nat) (m : Model) :
    (run plan fallback m).map finalPositions =
      (positionsOf plan fallback m).map fun positions => positions.map some := by
  rw [run]
  cases hpositions : positionsOf plan fallback m with
  | error e => rfl
  | ok positions =>
    have hlength := length_of_positionsOf hpositions
    refine congrArg Except.ok (List.ext_getElem ?_ fun i _ _ => ?_)
    · simp [finalPositions, place, hlength]
    · simp [finalPositions, place]

/-- A seeded layout of a model depends on how many elements there are and on what the trusted matrix
does to positions. -/
theorem positionsOf_congr (hseed : plan.seed = some seed)
    (hlength : m'.elements.length = m.elements.length)
    (hmatrix : m.matrix? = none ∧ m'.matrix? = none ∨
      ∃ weights weights', m.matrix? = some weights ∧ m'.matrix? = some weights' ∧
        ∀ positions : List (Point Float), positions.length = m.elements.length →
          simulate plan weights positions = simulate plan weights' positions) :
    positionsOf plan fallback m = positionsOf plan fallback' m' := by
  have hempty : m'.elements.isEmpty = m.elements.isEmpty := by
    rw [Bool.eq_iff_iff, List.isEmpty_iff_length_eq_zero, List.isEmpty_iff_length_eq_zero, hlength]
  have hfallback : plan.seedOr fallback = plan.seedOr fallback' := by
    rw [Plan.seedOr, Plan.seedOr, hseed]
  unfold positionsOf
  rw [hempty, hlength, hfallback]
  rcases hmatrix with ⟨hnone, hnone'⟩ | ⟨weights, weights', hsome, hsome', hsimulate⟩
  · rw [hnone, hnone']
  · rw [hsome, hsome']
    simp only [pure_eq_ok, ok_bind, hsimulate _ (length_initialPositions _ _ _)]

/-- What was laid out is laid out to the same places once more. -/
theorem run_again (hseed : plan.seed = some seed) (h : run plan fallback m = .ok (m', outcome)) :
    run plan fallback' m' = .ok (m', outcome) := by
  obtain ⟨positions, hpositions, rfl⟩ := run_eq_ok h
  have hlength := length_of_positionsOf hpositions
  have hcount : (place m positions).elements.length = m.elements.length := by simp [place, hlength]
  have hmatrix : (place m positions).matrix? = m.matrix? := by
    rw [Model.matrix?, hcount]
    rfl
  have hagain : positionsOf plan fallback' (place m positions) = .ok positions := by
    rw [← hpositions, eq_comm]
    refine positionsOf_congr hseed hcount ?_
    cases htrusted : m.matrix? with
    | none => exact .inl ⟨rfl, hmatrix.trans htrusted⟩
    | some weights => exact .inr ⟨weights, weights, rfl, hmatrix.trans htrusted, fun _ _ => rfl⟩
  have hplace : place (place m positions) positions = place m positions := by
    refine congrArg (fun elements => { m with elements }) (List.ext_getElem ?_ fun i _ _ => ?_)
    · simp [place]
    · simp [place]
  rw [run, hpositions] at h
  rw [run, hagain, ← h]
  simp only [ok_bind, hplace, hcount]
  rfl

/-- A relation pulls nothing before some other ones: it leads to where it starts, an end of it is no
element, or one that comes later leads from and to the same ids. -/
inductive Idle (m : Model) (r : Relation) (after : List Relation) : Prop
  | loop (h : r.source = r.target)
  | dangling (h : ∃ id ∈ [r.source, r.target], ∀ e ∈ m.elements, e.id ≠ id)
  | replaced (h : ∃ r' ∈ after, r'.source = r.source ∧ r'.target = r.target)

variable {r : Relation} {before after : List Relation}

/-- An id that no element has is at no place. -/
theorem place?_of_undeclared {id : Text} (h : ∀ e ∈ m.elements, e.id ≠ id) : m.place? id = none := by
  rw [Model.place?, List.findIdx?_eq_none_iff]
  simpa using h

/-- A relation that pulls nothing changes no cell between different places. -/
theorem weightAt_of_idle (h : Idle m r after) (before : List Relation) {i j : Nat} (hij : i ≠ j) :
    m.weightAt (before ++ r :: after) i j = m.weightAt (before ++ after) i j := by
  simp only [Model.weightAt, List.filter_append, List.filter_cons]
  cases hjoins : m.joins i j r with
  | false => rfl
  | true =>
    simp only [Model.joins, Bool.and_eq_true, beq_iff_eq] at hjoins
    obtain ⟨hsource, htarget⟩ := hjoins
    cases h with
    | loop h => exact absurd (Option.some.inj (hsource.symm.trans (h ▸ htarget))) hij
    | dangling h =>
      obtain ⟨id, hid, hundeclared⟩ := h
      have hnone := place?_of_undeclared hundeclared
      simp only [List.mem_cons, List.not_mem_nil, or_false] at hid
      rcases hid with rfl | rfl
      · rw [hnone] at hsource
        cases hsource
      · rw [hnone] at htarget
        cases htarget
    | replaced h =>
      -- The later relation writes the same cell, so that neither the last one nor its weight changes.
      obtain ⟨r', hmem, hs, ht⟩ := h
      have hlater : after.filter (m.joins i j) ≠ [] := by
        refine List.ne_nil_of_mem (List.mem_filter.mpr ⟨hmem, ?_⟩)
        simp only [Model.joins, hs, ht, hsource, htarget, beq_self_eq_true, Bool.and_self]
      rw [if_pos rfl, ← List.singleton_append, ← List.append_assoc,
        List.getLast?_append_of_ne_nil _ hlater, List.getLast?_append_of_ne_nil _ hlater]

/-- A relation that pulls nothing can come to a model, or go, without moving anything. -/
theorem positionsOf_build_of_idle (hseed : plan.seed = some seed)
    (hids : m'.elements.map (·.id) = m.elements.map (·.id)) (hbefore : m.relations = before ++ after)
    (hafter : m'.relations = before ++ r :: after) (hidle : Idle m r after) :
    positionsOf plan fallback m.build = positionsOf plan fallback' m'.build := by
  have hlength : m'.elements.length = m.elements.length := by simpa using congrArg List.length hids
  refine positionsOf_congr hseed hlength ?_
  by_cases hempty : m.elements = []
  · have hempty' : m'.elements = [] := List.length_eq_zero_iff.mp (hlength.trans (by rw [hempty]; rfl))
    exact .inl ⟨by simp [Model.matrix?, Model.build, hempty], by
      simp [Model.matrix?, Model.build, hempty']⟩
  · have hne' : m'.elements ≠ [] := by
      rwa [← List.length_pos_iff, hlength, List.length_pos_iff]
    have htrusted {m : Model} (hne : m.elements ≠ []) : m.build.matrix? = some m.reference := by
      have hmatrix : m.build.matrix = some m.reference := by
        rw [Model.build, if_neg (by simpa using hne), Model.weights_eq_reference]
      exact Model.matrix?_eq_some_iff.mpr ⟨hmatrix, Matrix.length_table _ _⟩
    refine .inr ⟨_, _, htrusted hempty, htrusted hne', fun positions hpositions => ?_⟩
    -- The matrix is that of the old elements with one more relation.
    have hreference : m'.reference =
        table m.elements.length (m.weightAt (before ++ r :: after)) := by
      rw [← hafter]
      exact Model.reference_congr (m := { m with relations := m'.relations }) hids rfl
    rw [hreference, Model.reference, hbefore]
    refine simulate_congr plan (hasSide_table _ _) (hasSide_table _ _) ?_ hpositions
    intro i hi j hj hij
    rw [cell_table hi hj, cell_table hi hj, weightAt_of_idle hidle before hij]
    exact .inl rfl

/--
A seeded layout depends on what pulls. Two models with as many elements, whose matrices pull alike
between any two different places, are laid out to the same positions, place by place, or fail with
the same error, whatever their ids, relations and earlier positions are. So a layout that is done
once more changes nothing, and neither does it move anything that a relation comes to the model, and
the matrix is built anew, which is a loop, has an end that is no element, or is replaced by a later
relation between the same ids.
-/
theorem layout_of_pulls (hseed : plan.seed = some seed) (fallback fallback' : Nat) :
    (∀ (m m' : Model) weights weights', m.matrix = some weights → m'.matrix = some weights' →
      m'.elements.length = m.elements.length → weights.HasSide m.elements.length →
      weights'.HasSide m.elements.length → PullAlike m.elements.length weights weights' →
      (run plan fallback m).map finalPositions = (run plan fallback' m').map finalPositions) ∧
    (∀ m m' outcome, run plan fallback m = .ok (m', outcome) →
      run plan fallback' m' = .ok (m', outcome)) ∧
    ∀ (m m' : Model) before r after, m'.elements.map (·.id) = m.elements.map (·.id) →
      m.relations = before ++ after → m'.relations = before ++ r :: after → Idle m r after →
      (run plan fallback m.build).map finalPositions =
        (run plan fallback' m'.build).map finalPositions := by
  simp only [map_finalPositions_run]
  refine ⟨?alike, fun m m' outcome => run_again hseed, ?idle⟩
  case alike =>
    intro m m' weights weights' hmatrix hmatrix' hlength hside hside' halike
    refine congrArg _ (positionsOf_congr hseed hlength (.inr ⟨weights, weights', ?_, ?_, ?_⟩))
    · exact Model.matrix?_eq_some_iff.mpr ⟨hmatrix, hside.length_eq⟩
    · exact Model.matrix?_eq_some_iff.mpr ⟨hmatrix', hside'.length_eq.trans hlength.symm⟩
    · exact fun positions => simulate_congr plan hside hside' halike
  case idle =>
    intro m m' before r after hids hbefore hafter hidle
    exact congrArg _ (positionsOf_build_of_idle hseed hids hbefore hafter hidle)

/-- Two matrices differ on the diagonal and where they do not pull; one model has been laid out
before. A relation comes before one that replaces it. -/
theorem layout_of_pulls_of_twins :
    let plan : Plan := ⟨3, 0.1, 1000.0, 1.0, some 7⟩
    let a : Element := { id := "a", name := "A", kind := .system }
    let b : Element := { id := "b", name := "B", kind := .person }
    let pull : Relation := { source := "a", target := "b", weight := 2.0 }
    let weak : Relation := { pull with weight := 5.0 }
    let weights : Matrix := [[5.0, 2.0], [0.0, -1.0]]
    let weights' : Matrix := [[0.0, 2.0], [-3.0, 7.0]]
    let m : Model := { elements := [a, b], relations := [pull], matrix := some weights }
    let m' : Model :=
      { elements := [{ b with position := some ⟨1.0, 2.0⟩ }, b], matrix := some weights' }
    weights ≠ weights' ∧ PullAlike 2 weights weights' ∧
      (run plan 0 m).map finalPositions = (run plan 1 m').map finalPositions ∧
      (∃ placed outcome, run plan 0 m = .ok (placed, outcome) ∧
        run plan 1 placed = .ok (placed, outcome)) ∧
      Idle m weak [pull] ∧
      (run plan 0 m.build).map finalPositions =
        (run plan 1 { m with relations := [weak, pull] : Model }.build).map finalPositions := by
  intro plan a b pull weak weights weights' m m'
  have hseed : plan.seed = some 7 := rfl
  have halike : PullAlike 2 weights weights' := by decide +kernel
  have hside : weights.HasSide 2 := ⟨rfl, by decide +kernel⟩
  have hside' : weights'.HasSide 2 := ⟨rfl, by decide +kernel⟩
  have hpositions := positionsOf_eq_ok_iff.mpr
    ⟨(rfl : m.elements.isEmpty = false),
      (by decide +kernel : plan.iterations < 10 ^ Number.maxDigits),
      (by decide +kernel : plan.side.isFinite = true), _, _, rfl,
      (rfl : plan.seedOr 0 = .ok 7), rfl⟩
  obtain ⟨outcome, hrun⟩ := run_of_positionsOf hpositions
  have hidle : Idle m weak [pull] := .replaced ⟨pull, List.mem_singleton_self _, rfl, rfl⟩
  obtain ⟨hpulls, hagain, hcomes⟩ := layout_of_pulls hseed 0 1
  exact ⟨by decide +kernel, halike, hpulls m m' weights weights' rfl rfl rfl hside hside' halike,
    ⟨_, outcome, hrun, hagain m _ outcome hrun⟩, hidle,
    hcomes m _ [] weak [pull] rfl rfl rfl hidle⟩

end Layout

end Landscape
