import Landscape.Proofs.Layout.Sizes
import Landscape.Proofs.Layout.Transaction

/-!
# Accepted plans that cannot be run

A request is checked when its plan is made, but not all of it: the seed is taken as it is, and the
area is compared with zero, which a not-a-number and infinity pass. These are the parts of a plan that
a run can fail on; any other accepted plan is run, for every model with elements and a matrix.
-/

namespace Landscape.Layout

open Landscape.Number

variable {request : Request} {plan : Plan} {fallback : Nat} {m m' : Model} {e : Error}

/-- An area that is not refused is positive, or it is a not-a-number, which compares with nothing. -/
theorem positive_of_isNotPositive {asked : Json} {x : Float} (h : isNotPositive asked = .ok false)
    (hx : asked.toFloat = .ok x) : x.isNaN = true ∨ 0 < x := by
  match asked with
  | .int n =>
    have hn : 0 < n := by simpa [isNotPositive] using h
    obtain ⟨n, rfl⟩ := Int.eq_ofNat_of_zero_le hn.le
    cases hread : ofInt? n with
    | none => simp [Json.toFloat, hread] at hx
    | some y =>
      obtain rfl : y = x := by simpa [Json.toFloat, hread] using hx
      obtain ⟨r, hr, hr1⟩ := ofInt?_bounds (by omega) hread
      exact .inr ((lt_iff toRat?_zero hr).mpr (by linarith))
  | .float y =>
    obtain rfl : y = x := Except.ok.inj hx
    have hy : ¬y ≤ 0 := by simpa [isNotPositive] using h
    exact lt_of_not_le toRat?_zero hy
  | .bool b =>
    obtain rfl : b = true := by simpa [isNotPositive] using h
    obtain rfl := Except.ok.inj hx
    exact .inr (by decide +kernel)
  | .null | .text _ | .list _ | .record _ => cases h

/-- The area of an accepted plan is the default one or was asked for. -/
theorem Accepted.area_cases (h : Accepted request plan) : plan.area = defaultArea ∨
    ∃ asked, request.area = some asked ∧ asked.toFloat = .ok plan.area ∧
      (plan.area.isNaN = true ∨ 0 < plan.area) := by
  obtain ⟨-, hdefault, -⟩ | ⟨asked, hasked, hpositive, hread, -⟩ := h.area
  · exact .inl hdefault
  · exact .inr ⟨asked, hasked, hread, positive_of_isNotPositive hpositive hread⟩

/-- The square of an accepted plan is bounded if its area is. -/
theorem Accepted.isFinite_side (h : Accepted request plan) :
    plan.side.isFinite = plan.area.isFinite := by
  refine isFinite_sqrt fun p hp => ?_
  obtain hdefault | ⟨asked, -, -, hnan | hpositive⟩ := h.area_cases
  · have hdefaultArea : toRat? defaultArea = some 1000 := by decide +kernel
    obtain rfl : 1000 = p := Option.some.inj (hdefaultArea.symm.trans (hdefault ▸ hp))
    norm_num
  · rw [isNaN_eq_false hp] at hnan
    cases hnan
  · exact ((lt_iff toRat?_zero hp).mp hpositive).le

/-- A run fails exactly where its layout is refused. -/
theorem run_eq_error_iff : run plan fallback m = .error e ↔ Refused plan m e := by
  rw [← @positionsOf_eq_error_iff plan fallback m e, run]
  cases positionsOf plan fallback m with
  | error e' => simp
  | ok positions => simp

/-- A run of steps whose number can be written out succeeds for a model with elements and a matrix, a
seed that is not negative and a bounded square. -/
theorem run_succeeds_iff (hsteps : plan.iterations < 10 ^ maxDigits) :
    (∃ m' outcome, run plan fallback m = .ok (m', outcome)) ↔
      m.elements ≠ [] ∧ m.hasMatrix = true ∧ (∀ seed, plan.seed = some seed → 0 ≤ seed) ∧
        plan.side.isFinite = true := by
  constructor
  · rintro ⟨m', outcome, hrun⟩
    obtain ⟨positions, hpositions, -⟩ := run_eq_ok hrun
    obtain ⟨hne, -, hside, weights, seed, hmatrix, hseed, -⟩ := positionsOf_eq_ok_iff.mp hpositions
    refine ⟨List.isEmpty_eq_false_iff.mp hne, Option.isSome_iff_exists.mpr ⟨weights, hmatrix⟩, ?_,
      hside⟩
    rcases seedOr_cases plan fallback with ⟨hnegative, -⟩ | ⟨-, hnonneg⟩
    · rw [hnegative] at hseed
      cases hseed
    · exact hnonneg
  · rintro ⟨hne, hmatrix, hnonneg, hside⟩
    obtain ⟨weights, hmatrix⟩ := Option.isSome_iff_exists.mp hmatrix
    rcases seedOr_cases plan fallback with ⟨-, seed, hseed, hnegative⟩ | ⟨⟨seed, hseed⟩, -⟩
    · exact absurd (hnonneg seed hseed) (Int.not_le.mpr hnegative)
    · have hpositions := positionsOf_eq_ok_iff.mpr ⟨List.isEmpty_eq_false_iff.mpr hne, hsteps,
        hside, weights, seed, hmatrix, hseed, rfl⟩
      obtain ⟨outcome, hrun⟩ := run_of_positionsOf hpositions
      exact ⟨_, outcome, hrun⟩

/--
An accepted plan, with a number of steps that can be written out, is run for every model that has
elements and a matrix of the right side, unless its seed is negative or its area is not finite, and
these are what the run then fails with. Such an area was asked for; it is a not-a-number or infinite,
for a negative one is not accepted.
-/
theorem run_of_accepted (hplan : Plan.ofRequest request = .ok plan)
    (hsteps : plan.iterations < 10 ^ maxDigits) (fallback : Nat) (m : Model) :
    ((∃ m' outcome, run plan fallback m = .ok (m', outcome)) ↔
      m.elements ≠ [] ∧ m.hasMatrix = true ∧
        (∀ seed, request.seed = some seed → 0 ≤ seed) ∧ plan.area.isFinite = true) ∧
    (∀ e, run plan fallback m = .error e →
      (e = .emptyModel ∧ m.elements = []) ∨ (e = .matrixNotBuilt ∧ m.hasMatrix = false) ∨
      (e = .negativeSeed ∧ ∃ seed, request.seed = some seed ∧ seed < 0) ∨
      (e = .unboundedSquare ∧ plan.area.isFinite = false)) ∧
    (plan.area.isFinite = false → ∃ asked, request.area = some asked ∧
      asked.toFloat = .ok plan.area ∧ (plan.area.isNaN = true ∨ 0 < plan.area)) := by
  have haccepted := accepted_of_ofRequest hplan
  rw [← haccepted.isFinite_side, ← haccepted.seed]
  refine ⟨run_succeeds_iff hsteps, fun e hrun => ?_, fun hinfinite => ?_⟩
  · cases run_eq_error_iff.mp hrun with
    | empty hempty => exact .inl ⟨rfl, hempty⟩
    | unbuilt hne hmatrix =>
      have hnone := Model.matrix?_eq_none_iff.mpr hmatrix
      exact .inr (.inl ⟨rfl, by rw [Model.hasMatrix, hnone]; rfl⟩)
    | unspelled hne hmatrix hlong => exact absurd hlong (Nat.not_le.mpr hsteps)
    | negative hne hmatrix _ hseed => exact .inr (.inr (.inl ⟨rfl, hseed⟩))
    | unbounded hne hmatrix _ hseed hside => exact .inr (.inr (.inr ⟨rfl, hside⟩))
  · refine haccepted.area_cases.resolve_left fun hdefault => ?_
    rw [haccepted.isFinite_side, hdefault] at hinfinite
    exact absurd hinfinite (by decide +kernel)

/-- A model of one element, with its matrix, is laid out in a square that was asked for. -/
theorem run_of_accepted_of_person :
    let request : Request := { area := some (.int 50), seed := some 7 }
    let m : Model := Model.build { elements := [{ id := "a", name := "A", kind := .person }] }
    ∃ plan m' outcome, Plan.ofRequest request = .ok plan ∧ plan.iterations < 10 ^ maxDigits ∧
      run plan 0 m = .ok (m', outcome) := by
  intro request m
  have hfine : (Plan.ofRequest request).toOption.any (fun plan =>
      plan.iterations == 100 && plan.area.isFinite) = true := by
    decide +kernel
  cases hplan : Plan.ofRequest request with
  | error e =>
    rw [hplan] at hfine
    cases hfine
  | ok plan =>
    rw [hplan] at hfine
    obtain ⟨hiterations, harea⟩ := Bool.and_eq_true_iff.mp hfine
    have hsteps : plan.iterations < 10 ^ maxDigits :=
      calc plan.iterations < 10 ^ 3 := by rw [beq_iff_eq.mp hiterations]; decide
        _ ≤ 10 ^ maxDigits := Nat.pow_le_pow_right (by decide) (by decide)
    obtain ⟨m', outcome, hrun⟩ := (run_of_accepted hplan hsteps 0 m).1.mpr
      ⟨List.cons_ne_nil _ _, rfl, fun seed h => by cases h; decide, harea⟩
    exact ⟨plan, m', outcome, rfl, hsteps, hrun⟩

/-- A negative seed and areas that are a not-a-number or infinite are accepted, and a run for a model
of one element fails on them. -/
theorem accepted_but_not_run :
    let m : Model := Model.build { elements := [{ id := "A", name := "A", kind := .system }] }
    m.elements ≠ [] ∧ m.hasMatrix = true ∧
      (∃ plan, Plan.ofRequest { seed := some (-1) } = .ok plan ∧
        run plan 0 m = .error .negativeSeed) ∧
      (∃ plan, Plan.ofRequest { area := some (.float notANumber), seed := some 1 } = .ok plan ∧
        run plan 0 m = .error .unboundedSquare) ∧
      ∃ plan, Plan.ofRequest { area := some (.float infinity), seed := some 1 } = .ok plan ∧
        run plan 0 m = .error .unboundedSquare := by
  intro m
  have hboundless (request : Request) (h : (Plan.ofRequest request).toOption.any (fun plan =>
      plan.seed == some 1 && decide (plan.iterations < 10 ^ maxDigits) && !plan.side.isFinite) =
        true) :
      ∃ plan, Plan.ofRequest request = .ok plan ∧ run plan 0 m = .error .unboundedSquare := by
    cases hplan : Plan.ofRequest request with
    | error e =>
      rw [hplan] at h
      cases h
    | ok plan =>
      simp only [hplan, Except.toOption, Option.any_some, Bool.and_eq_true, beq_iff_eq,
        decide_eq_true_eq, Bool.not_eq_true'] at h
      obtain ⟨⟨hseed, hsteps⟩, hside⟩ := h
      refine ⟨plan, rfl, run_eq_error_iff.mpr (.unbounded (List.cons_ne_nil _ _) ⟨_, rfl, rfl⟩
        hsteps (fun seed hsome => ?_) hside)⟩
      obtain rfl := Option.some.inj (hseed.symm.trans hsome)
      decide
  exact ⟨List.cons_ne_nil _ _, rfl, ⟨_, rfl, rfl⟩, hboundless _ (by decide +kernel),
    hboundless _ (by decide +kernel)⟩

end Landscape.Layout
