import Landscape.Layout.Run
import Landscape.Proofs.Json.Spelling
import Landscape.Proofs.Results

/-!
# What a layout changes

A layout that succeeds was computed from a matrix that is trusted. It gives every element a position
and changes nothing else.
-/

namespace Landscape

namespace Layout

private theorem length_pairUp (n : Nat) (xs : List Float) (h : xs.length = 2 * n) :
    (pairUp xs).length = n := by
  induction n generalizing xs with
  | zero =>
    rw [List.length_eq_zero_iff.mp h]
    rfl
  | succ n ih =>
    match xs, h with
    | x :: y :: rest, h =>
      have hrest : rest.length = 2 * n := by
        simp only [List.length_cons] at h
        omega
      rw [pairUp, List.length_cons, ih rest hrest]

private theorem length_take (g : Generator) (count : Nat) : (g.take count).length = count := by
  induction count generalizing g with
  | zero => rfl
  | succ count ih => rw [Generator.take, List.length_cons, ih]

/-- Every element starts at a place. -/
theorem length_initialPositions (seed count : Nat) (side : Float) :
    (initialPositions seed count side).length = count :=
  length_pairUp count _ (by rw [List.length_map, length_take])

/-- A step moves every element and loses none. -/
theorem length_step (plan : Plan) (weights : Matrix) (t : Nat) (positions : List (Point Float)) :
    (step plan weights t positions).length = positions.length := by
  simp [step, displacement]

/-- A simulation loses no element. -/
theorem length_simulate (plan : Plan) (weights : Matrix) (positions : List (Point Float)) :
    (simulate plan weights positions).length = positions.length := by
  unfold simulate
  induction plan.iterations with
  | zero => rfl
  | succ n ih => rw [List.range_succ, List.foldl_append, List.foldl_cons, List.foldl_nil,
      length_step, ih]

/-- A seed is refused if it is given and negative. -/
theorem seedOr_cases (plan : Plan) (fallback : Nat) :
    (plan.seedOr fallback = .error .negativeSeed ∧ ∃ seed, plan.seed = some seed ∧ seed < 0) ∨
    (∃ n, plan.seedOr fallback = .ok n) ∧ ∀ seed, plan.seed = some seed → 0 ≤ seed := by
  unfold Plan.seedOr
  cases plan.seed with
  | none => exact .inr ⟨⟨fallback, rfl⟩, fun _ h => nomatch h⟩
  | some seed =>
    by_cases hneg : seed < 0
    · exact .inl ⟨if_pos hneg, seed, rfl, hneg⟩
    · exact .inr ⟨⟨_, if_neg hneg⟩, fun _ h => Option.some.inj h ▸ Int.not_lt.mp hneg⟩

/-- A layout succeeds from a matrix that is trusted, a number of steps that can be spelled, a seed and
a bounded square. -/
theorem positionsOf_eq_ok_iff {plan : Plan} {fallback : Nat} {m : Model}
    {positions : List (Point Float)} :
    positionsOf plan fallback m = .ok positions ↔
      m.elements.isEmpty = false ∧ plan.iterations < 10 ^ Number.maxDigits ∧
      plan.side.isFinite = true ∧
      ∃ weights seed, m.matrix? = some weights ∧ plan.seedOr fallback = .ok seed ∧
        simulate plan weights (initialPositions seed m.elements.length plan.side) = positions := by
  unfold positionsOf
  cases hempty : m.elements.isEmpty with
  | true => simp
  | false =>
    cases hmatrix : m.matrix? with
    | none => simp
    | some weights =>
      rcases Number.spell_cases plan.iterations with ⟨hsteps, hspell⟩ | ⟨hlong, hspell⟩
      · rw [Int.natAbs_natCast] at hsteps
        cases hseed : plan.seedOr fallback with
        | error e => simp [hspell]
        | ok seed => cases hside : plan.side.isFinite <;> simp [hspell, hsteps]
      · rw [Int.natAbs_natCast, ← Nat.not_lt] at hlong
        simp [hspell, hlong]

/-- A layout finds a position for each element. -/
theorem length_of_positionsOf {plan : Plan} {fallback : Nat} {m : Model}
    {positions : List (Point Float)} (h : positionsOf plan fallback m = .ok positions) :
    positions.length = m.elements.length := by
  obtain ⟨_, _, _, weights, seed, _, _, rfl⟩ := positionsOf_eq_ok_iff.mp h
  rw [length_simulate, length_initialPositions]

/-- A layout is refused where no matrix is trusted. -/
theorem run_of_hasMatrix_eq_false {plan : Plan} {fallback : Nat} {m : Model}
    (h : m.hasMatrix = false) :
    run plan fallback m = .error (if m.elements.isEmpty then .emptyModel else .matrixNotBuilt) := by
  have hmatrix : m.matrix? = none := by simpa [Model.hasMatrix] using h
  unfold run positionsOf
  cases hempty : m.elements.isEmpty with
  | true => rfl
  | false => simp [hmatrix]

/-- A layout changes nothing but positions. -/
theorem run_eq_ok {plan : Plan} {fallback : Nat} {m m' : Model} {outcome : Outcome}
    (h : run plan fallback m = .ok (m', outcome)) :
    ∃ positions, positionsOf plan fallback m = .ok positions ∧ m' = place m positions := by
  unfold run at h
  cases hpositions : positionsOf plan fallback m with
  | error e => simp [hpositions] at h
  | ok positions =>
    simp [hpositions] at h
    exact ⟨positions, rfl, h.1.symm⟩

/-- A layout that finds positions succeeds. -/
theorem run_of_positionsOf {plan : Plan} {fallback : Nat} {m : Model}
    {positions : List (Point Float)} (h : positionsOf plan fallback m = .ok positions) :
    ∃ outcome, run plan fallback m = .ok (place m positions, outcome) := by
  rw [run, h]
  exact ⟨_, rfl⟩

/-- An element of a model that is placed is one of the model with one of the positions. -/
theorem mem_place {m : Model} {positions : List (Point Float)} {e : Element}
    (h : e ∈ (place m positions).elements) :
    ∃ e' ∈ m.elements, ∃ p ∈ positions, e = { e' with position := some p } := by
  obtain ⟨i, hi, rfl⟩ := List.getElem_of_mem h
  have hlength := hi
  simp only [place, List.length_zipWith, Nat.lt_min] at hlength
  exact ⟨m.elements[i], List.getElem_mem hlength.1, positions[i], List.getElem_mem hlength.2,
    by simp only [place, List.getElem_zipWith]⟩

/-- Elements that are placed keep whatever does not depend on their positions. -/
theorem map_place {α : Type} {m : Model} {positions : List (Point Float)} (f : Element → α)
    (hf : ∀ e p, f { e with position := some p } = f e)
    (hlength : positions.length = m.elements.length) :
    (place m positions).elements.map f = m.elements.map f := by
  refine List.ext_getElem (by simp [place, hlength]) fun i _ _ => ?_
  simp only [place, List.getElem_map, List.getElem_zipWith, hf]

end Layout

end Landscape
