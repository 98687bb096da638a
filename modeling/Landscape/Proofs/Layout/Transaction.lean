import Landscape.Proofs.Layout.Placement
import Landscape.Proofs.Weights.Reference

/-!
# All elements are placed or none

A layout in place reads a model, checks it, computes all positions, and then writes them one element
after another. What a failing computation has changed stays changed, so that nothing may fail once
the first position is written. Nothing does: such a layout comes to the same as one that is computed
as a value.
-/

namespace Landscape.Layout

/-- Steps that read and change a model and may fail; a failure undoes nothing. -/
abbrev Editing := EStateM Error Model

/-- Give the element at a place a position. -/
def setPosition (i : Nat) (p : Point Float) : Editing Unit :=
  modify fun m =>
    { m with elements := m.elements.modify i fun e => { e with position := some p } }

/-- Give positions to the elements from a place on, one after another. -/
def writePositions (i : Nat) : List (Point Float) → Editing Unit
  | [] => pure ()
  | p :: positions => do
    setPosition i p
    writePositions (i + 1) positions

/-- Lay out a model in place. -/
def layOut (plan : Plan) (fallback : Nat) : Editing Outcome := do
  let positions ← MonadExcept.ofExcept (positionsOf plan fallback (← get))
  writePositions 0 positions
  let m ← get
  return {
    iterations := plan.iterations
    finalTemperature := plan.finalTemperature
    milliseconds := 0.0
    elements := m.elements.length
    relations := m.relations.length }

variable {plan : Plan} {fallback : Nat} {m m' : Model} {e : Error} {outcome : Outcome}

/-- Behind some elements, the writes give each element the position at its place. -/
theorem writePositions_run (positions : List (Point Float)) (done rest : List Element)
    (hlength : positions.length = rest.length) (hrest : m.elements = done ++ rest) :
    (writePositions done.length positions).run m =
      .ok () { m with
        elements := done ++ rest.zipWith (fun e p => { e with position := some p }) positions } := by
  induction positions generalizing m done rest with
  | nil =>
    obtain rfl := List.length_eq_zero_iff.mp hlength.symm
    rw [List.zipWith_nil_left, ← hrest]
    rfl
  | cons p positions ih =>
    obtain ⟨first, rest, rfl⟩ := List.exists_cons_of_length_eq_add_one hlength.symm
    -- One more element is done: the one at the place of the first write.
    have hwritten : m.elements.modify done.length (fun e => { e with position := some p }) =
        (done ++ [{ first with position := some p }]) ++ rest := by
      rw [hrest, List.append_assoc]
      exact List.modifyTailIdx_add _ 0 done (first :: rest)
    have hnext := @ih
      { m with elements := m.elements.modify done.length fun e => { e with position := some p } }
      (done ++ [{ first with position := some p }]) rest (Nat.succ.inj hlength) hwritten
    rw [List.length_append, List.length_singleton] at hnext
    rw [List.zipWith_cons_cons, List.append_cons]
    exact hnext

/-- What is computed as a value changes nothing. -/
theorem ofExcept_run {α : Type} (result : Except Error α) (m : Model) :
    (MonadExcept.ofExcept result : Editing α).run m =
      match result with
      | .ok a => .ok a m
      | .error e => .error e m := by
  cases result <;> rfl

/-- A layout in place leaves behind what one that is computed as a value returns, and where that one
fails, the model as it was. -/
theorem layOut_run (plan : Plan) (fallback : Nat) (m : Model) :
    (layOut plan fallback).run m =
      match run plan fallback m with
      | .ok (m', outcome) => .ok outcome m'
      | .error e => .error e m := by
  simp only [layOut, EStateM.run_bind, EStateM.run_get, ofExcept_run]
  cases hpositions : positionsOf plan fallback m with
  | error e =>
    rw [run, hpositions]
    rfl
  | ok positions =>
    have hwrites : (writePositions 0 positions).run m = .ok () (place m positions) :=
      writePositions_run positions [] m.elements (length_of_positionsOf hpositions) rfl
    have hlength : (place m positions).elements.length = m.elements.length := by
      simp [place, length_of_positionsOf hpositions]
    simp only [hwrites, EStateM.run_pure, hlength]
    rw [run, hpositions]
    rfl

/-- What a layout of a model fails with: it asks for an element, then for a matrix of the right side,
then for a number of steps that the log can spell, then for a seed, and at last for a square that has
an end. -/
inductive Refused (plan : Plan) (m : Model) : Error → Prop
  | empty (hempty : m.elements = []) : Refused plan m .emptyModel
  | unbuilt (hne : m.elements ≠ [])
      (hmatrix : ∀ weights, m.matrix = some weights → weights.length ≠ m.elements.length) :
      Refused plan m .matrixNotBuilt
  | unspelled (hne : m.elements ≠ [])
      (hmatrix : ∃ weights, m.matrix = some weights ∧ weights.length = m.elements.length)
      (hsteps : 10 ^ Number.maxDigits ≤ plan.iterations) : Refused plan m .unprintableInteger
  | negative (hne : m.elements ≠ [])
      (hmatrix : ∃ weights, m.matrix = some weights ∧ weights.length = m.elements.length)
      (hsteps : plan.iterations < 10 ^ Number.maxDigits)
      (hseed : ∃ seed, plan.seed = some seed ∧ seed < 0) : Refused plan m .negativeSeed
  | unbounded (hne : m.elements ≠ [])
      (hmatrix : ∃ weights, m.matrix = some weights ∧ weights.length = m.elements.length)
      (hsteps : plan.iterations < 10 ^ Number.maxDigits)
      (hseed : ∀ seed, plan.seed = some seed → 0 ≤ seed) (hside : plan.side.isFinite = false) :
      Refused plan m .unboundedSquare

/-- A model with its elements at the places of some rows: each element, also one that shares its id,
has the position in its own row, and nothing else is different. -/
structure Placed (rows : List (Point Float)) (before after : Model) : Prop where
  length_rows : rows.length = before.elements.length
  length_elements : after.elements.length = before.elements.length
  position : ∀ (i : Nat) (e : Element), before.elements[i]? = some e →
    ∃ row, rows[i]? = some row ∧ after.elements[i]? = some { e with position := some row }
  relations : after.relations = before.relations
  matrix : after.matrix = before.matrix

theorem placed_place {positions : List (Point Float)}
    (h : positions.length = m.elements.length) : Placed positions m (place m positions) := by
  refine ⟨h, by simp [place, h], fun i e he => ?_, rfl, rfl⟩
  obtain ⟨hi, -⟩ := List.getElem?_eq_some_iff.mp he
  obtain ⟨row, hrow⟩ : ∃ row, positions[i]? = some row :=
    ⟨_, List.getElem?_eq_getElem (h.symm ▸ hi)⟩
  exact ⟨row, hrow, by simp [place, List.getElem?_zipWith, hrow, he]⟩

/-- A layout fails exactly where it is refused. -/
theorem positionsOf_eq_error_iff :
    positionsOf plan fallback m = .error e ↔ Refused plan m e := by
  have hsteps := Number.spell_cases plan.iterations
  have hseed := seedOr_cases plan fallback
  rw [Int.natAbs_natCast] at hsteps
  unfold positionsOf
  constructor
  · intro h
    by_cases hempty : m.elements = []
    · simp only [hempty, List.isEmpty_nil, if_true, throw_eq_error, error_bind,
        Except.error.injEq] at h
      exact h ▸ .empty hempty
    cases hmatrix : m.matrix? with
    | none =>
      simp [hempty, hmatrix] at h
      exact h ▸ .unbuilt hempty (Model.matrix?_eq_none_iff.mp hmatrix)
    | some weights =>
      have hbuilt := Model.matrix?_eq_some_iff.mp hmatrix
      rcases hsteps with ⟨hshort, hspell⟩ | ⟨hlong, hspell⟩
      · rcases hseed with ⟨hseed, hneg⟩ | ⟨⟨n, hseed⟩, hnonneg⟩
        · simp [hempty, hmatrix, hspell, hseed] at h
          exact h ▸ .negative hempty ⟨weights, hbuilt⟩ hshort hneg
        · cases hside : plan.side.isFinite with
          | false =>
            simp [hempty, hmatrix, hspell, hseed, hside] at h
            exact h ▸ .unbounded hempty ⟨weights, hbuilt⟩ hshort hnonneg hside
          | true => simp [hempty, hmatrix, hspell, hseed, hside] at h
      · simp [hempty, hmatrix, hspell] at h
        exact h ▸ .unspelled hempty ⟨weights, hbuilt⟩ hlong
  · intro h
    cases h with
    | empty hempty => simp [hempty]
    | unbuilt hne hmatrix => simp [hne, Model.matrix?_eq_none_iff.mpr hmatrix]
    | unspelled hne hmatrix hlong =>
      obtain ⟨weights, hweights⟩ := hmatrix
      rcases hsteps with ⟨hshort, -⟩ | ⟨-, hspell⟩
      · exact absurd hlong (Nat.not_le.mpr hshort)
      · simp [hne, Model.matrix?_eq_some_iff.mpr hweights, hspell]
    | negative hne hmatrix hshort hneg =>
      obtain ⟨weights, hweights⟩ := hmatrix
      rcases hsteps with ⟨-, hspell⟩ | ⟨hlong, -⟩
      · rcases hseed with ⟨hseed, -⟩ | ⟨-, hnonneg⟩
        · simp [hne, Model.matrix?_eq_some_iff.mpr hweights, hspell, hseed]
        · obtain ⟨seed, hsome, hlt⟩ := hneg
          exact absurd (hnonneg seed hsome) (Int.not_le.mpr hlt)
      · exact absurd hlong (Nat.not_le.mpr hshort)
    | unbounded hne hmatrix hshort hnonneg hside =>
      obtain ⟨weights, hweights⟩ := hmatrix
      rcases hsteps with ⟨-, hspell⟩ | ⟨hlong, -⟩
      · rcases hseed with ⟨-, seed, hsome, hlt⟩ | ⟨⟨n, hseed⟩, -⟩
        · exact absurd (hnonneg seed hsome) (Int.not_le.mpr hlt)
        · simp [hne, Model.matrix?_eq_some_iff.mpr hweights, hspell, hseed, hside]
      · exact absurd hlong (Nat.not_le.mpr hshort)

/--
A layout in place writes every position or none. It fails exactly where it is refused, in the order
of the checks, and then leaves the model as it was, also the positions that elements had. Where it
succeeds it leaves what is computed as a value: from a matrix of the right side and the first
positions of its seed it simulates one row for each element, and each element has the position in its
own row. Nothing else is changed.
-/
theorem layOut_all_or_nothing (plan : Plan) (fallback : Nat) (m : Model) :
    (∀ e m', (layOut plan fallback).run m = .error e m' ↔ Refused plan m e ∧ m' = m) ∧
    (∀ outcome m', (layOut plan fallback).run m = .ok outcome m' ↔
      run plan fallback m = .ok (m', outcome)) ∧
    ∀ m' outcome, run plan fallback m = .ok (m', outcome) →
      ∃ weights seed, m.matrix = some weights ∧ weights.length = m.elements.length ∧
        plan.seedOr fallback = .ok seed ∧
        Placed (simulate plan weights (initialPositions seed m.elements.length plan.side)) m m' := by
  have hrun := layOut_run plan fallback m
  refine ⟨fun e m' => ?_, fun outcome m' => ?_, fun m' outcome h => ?_⟩
  · have hrefused := @positionsOf_eq_error_iff plan fallback m e
    rw [hrun, run]
    cases hpositions : positionsOf plan fallback m with
    | error e' =>
      rw [hpositions] at hrefused
      simp [← hrefused, eq_comm]
    | ok positions =>
      rw [hpositions] at hrefused
      simp [← hrefused]
  · rw [hrun]
    cases run plan fallback m with
    | error e => simp
    | ok result => simp [Prod.ext_iff, and_comm]
  · obtain ⟨positions, hpositions, rfl⟩ := run_eq_ok h
    have hplaced := placed_place (length_of_positionsOf hpositions)
    obtain ⟨-, -, -, weights, seed, hmatrix, hseed, rfl⟩ := positionsOf_eq_ok_iff.mp hpositions
    obtain ⟨hweights, hside⟩ := Model.matrix?_eq_some_iff.mp hmatrix
    exact ⟨weights, seed, hweights, hside, hseed, hplaced⟩

/-- Two elements of one id, one of which has a position, with a matrix and without one. -/
theorem layOut_all_or_nothing_of_twins :
    let m : Model :=
      { elements := [{ id := "a", name := "A", kind := .system },
          { id := "a", name := "B", kind := .person, position := some ⟨1.0, 2.0⟩ }]
        matrix := some [[0.0, 0.0], [0.0, 0.0]] }
    let stale : Model := { m with matrix := some [[0.0]] }
    let plan : Plan := ⟨1, 0.1, 1000.0, 1.0, some 7⟩
    (∃ m' outcome rows, run plan 0 m = .ok (m', outcome) ∧ Placed rows m m') ∧
      (layOut plan 0).run stale = .error .matrixNotBuilt stale := by
  intro m stale plan
  have hpositions := positionsOf_eq_ok_iff.mpr
    ⟨(rfl : m.elements.isEmpty = false),
      (by decide +kernel : plan.iterations < 10 ^ Number.maxDigits),
      (by decide +kernel : plan.side.isFinite = true), _, _, rfl, (rfl : plan.seedOr 0 = .ok 7), rfl⟩
  have hrun : ∃ m' outcome, run plan 0 m = .ok (m', outcome) :=
    ⟨_, _, by rw [run, hpositions]; rfl⟩
  obtain ⟨m', outcome, hrun⟩ := hrun
  obtain ⟨weights, seed, -, -, -, hplaced⟩ := (layOut_all_or_nothing plan 0 m).2.2 m' outcome hrun
  refine ⟨⟨m', outcome, _, hrun, hplaced⟩, ?_⟩
  refine ((layOut_all_or_nothing plan 0 stale).1 .matrixNotBuilt stale).mpr ⟨.unbuilt ?_ ?_, rfl⟩
  · exact List.cons_ne_nil _ _
  · intro weights hweights
    obtain rfl := Option.some.inj hweights
    decide

end Landscape.Layout
