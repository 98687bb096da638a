import Landscape.Proofs.Layout.Placement
import Landscape.Proofs.Layout.Sizes
import Landscape.Proofs.Layout.Start
import Landscape.Proofs.Weights.Reference

/-!
# A layout stays in its square

A coordinate is brought back into the square after each step, so that it is outside only if it is not
a number. It is a number as long as no force on the way is too large, and no force is where the area
is not too large and the relations do not pull too strongly for the distance at rest.
-/

namespace Landscape.Layout

open Landscape.Number

variable {σ d : ℚ} {side temperature x : Float} {p f : Point Float} {plan : Plan}

/-- A number is brought into the square. -/
theorem within_clamp (hside : toRat? side = some σ) (h0 : 0 ≤ σ) (hx : x.isNaN = false) :
    Within σ (clamp side x) := by
  have hlast : Within σ side := ⟨σ, hside, h0, le_rfl⟩
  have hzero : ¬side < 0.0 := fun h => absurd ((lt_iff hside toRat?_zero).mp h) (not_lt.mpr h0)
  rcases value_or_infinity hx with ⟨q, hq⟩ | ⟨s, hs⟩
  · unfold clamp
    by_cases hneg : x < 0.0
    · simp only [if_pos hneg, if_neg hzero, within_zero h0]
    · have hq0 : 0 ≤ q := not_lt.mp fun h => hneg ((lt_iff hq toRat?_zero).mpr h)
      simp only [if_neg hneg]
      split
      · exact hlast
      · next hle => exact ⟨q, hq, hq0, not_lt.mp fun h => hle ((lt_iff hside hq).mpr h)⟩
  · unfold clamp
    cases s with
    | negative =>
      simp only [if_pos ((infinity_lt_iff hs toRat?_zero).mpr rfl), if_neg hzero, within_zero h0]
    | positive =>
      have hpos : ¬x < 0.0 := fun h => nomatch (infinity_lt_iff hs toRat?_zero).mp h
      simp only [if_neg hpos, if_pos ((lt_infinity_iff hside hs).mpr rfl), hlast]

/-- A coordinate is brought into the square unless it is not a number, which it then stays. -/
theorem isNaN_or_within_clamp (hside : toRat? side = some σ) (h0 : 0 ≤ σ) (x : Float) :
    (clamp side x).isNaN = true ∨ Within σ (clamp side x) := by
  cases hx : x.isNaN with
  | false => exact .inr (within_clamp hside h0 hx)
  | true =>
    refine .inl ?_
    rw [clamp, if_neg (not_lt_of_isNaN hx 0.0), if_neg (not_gt_of_isNaN hx side), hx]

/-- Along a bounded force a position moves to one in the square, however large the step is. -/
theorem inSquare_move {τ : ℚ} (hside : toRat? side = some σ) (h0 : 0 ≤ σ)
    (ht : toRat? temperature = some τ) (hp : InSquare σ p) (hf : BoundedForce d f) :
    InSquare σ (move side temperature p f) := by
  have hcoordinate {c g : Float} (hc : Within σ c) (hg : Bounded d g) :
      Within σ (clamp side (c + g * temperature)) := by
    obtain ⟨_, hc, -⟩ := hc
    obtain ⟨_, hg, -⟩ := hg
    exact within_clamp hside h0 (isNaN_add hc (isNaN_mul hg ht))
  exact ⟨hcoordinate hp.1 hf.1, hcoordinate hp.2 hf.2⟩

variable {b : ℤ} {k : ℚ} {weights : Matrix} {positions : List (Point Float)}

/-- A step moves each element along the net force on it. -/
theorem mem_step {t : ℕ} {q : Point Float} (h : q ∈ step plan weights t positions) :
    ∃ i, ∃ p ∈ positions, q = move plan.side (plan.temperature t) p
      (netForce plan.idealDistance positions weights i p) := by
  obtain ⟨i, hi, rfl⟩ := List.getElem_of_mem h
  rw [length_step] at hi
  exact ⟨i, positions[i], List.getElem_mem hi, by simp [step, displacement]⟩

/-- A step keeps the elements in the square. -/
theorem inSquare_step {t : ℕ} (hside : toRat? plan.side = some σ) (h0 : 0 ≤ σ)
    (hfits : Fits b σ plan.idealDistance k)
    (hweights : ∀ row ∈ weights, ∀ weight ∈ row, Gentle b k weight)
    (hrate : plan.learningRate.isFinite = true) (ht : t < plan.iterations)
    (h : ∀ p ∈ positions, InSquare σ p) : ∀ p ∈ step plan weights t positions, InSquare σ p := by
  intro q hq
  obtain ⟨i, p, hp, rfl⟩ := mem_step hq
  obtain ⟨τ, hτ⟩ := toRat?_temperature ht hrate
  exact inSquare_move hside h0 hτ (h p hp) (bounded_netForce hfits hweights h i (h p hp))

/-- What holds of all positions at first and is kept by each step holds of them at last. -/
theorem forall_simulate {P : Point Float → Prop} (h : ∀ p ∈ positions, P p)
    (hstep : ∀ t < plan.iterations, ∀ positions, (∀ p ∈ positions, P p) →
      ∀ p ∈ step plan weights t positions, P p) :
    ∀ p ∈ simulate plan weights positions, P p :=
  List.foldlRecOn (motive := fun current => ∀ p ∈ current, P p) _ _ h
    fun current hcurrent t ht => hstep t (List.mem_range.mp ht) current hcurrent

/-- Each coordinate is in the square or not a number. -/
def Held (σ : ℚ) (p : Point Float) : Prop := ∀ c ∈ [p.x, p.y], c.isNaN = true ∨ Within σ c

theorem InSquare.held (h : InSquare σ p) : Held σ p := by
  intro c hc
  simp only [List.mem_cons, List.not_mem_nil, or_false] at hc
  rcases hc with rfl | rfl
  · exact .inr h.1
  · exact .inr h.2

/-- Whatever the forces are, a step leaves no coordinate outside that is a number. -/
theorem held_step {t : ℕ} (hside : toRat? plan.side = some σ) (h0 : 0 ≤ σ) :
    ∀ p ∈ step plan weights t positions, Held σ p := by
  intro q hq
  obtain ⟨i, p, -, rfl⟩ := mem_step hq
  intro c hc
  simp only [move, List.mem_cons, List.not_mem_nil, or_false] at hc
  rcases hc with rfl | rfl <;> exact isNaN_or_within_clamp hside h0 _

/-- The area is not too large, and no relation pulls too strongly for the area and the distance at
rest. -/
structure Moderate (plan : Plan) (m : Model) : Prop where
  area_le : ∀ area ∈ toRat? plan.area, area + 1 ≤ 2 ^ (950 : ℤ)
  pull_le : ∀ area ∈ toRat? plan.area, ∀ rest ∈ toRat? plan.idealDistance, ∀ r ∈ m.relations,
    ∀ weight ∈ toRat? r.weight, 0 < weight → (area + 1) * max 1 weight ≤ 2 ^ (950 : ℤ) * rest

variable {m : Model}

/-- Moderate relations pull gently. -/
theorem Moderate.gentle {A : ℚ} (h : Moderate plan m) (hA : toRat? plan.area = some A)
    (hk : toRat? plan.idealDistance = some k) (hb : 2 ^ (2 * b) ≤ 4 * (A + 1))
    (hfinite : ∀ r ∈ m.relations, r.weight.isFinite = true) :
    ∀ row ∈ m.weights, ∀ weight ∈ row, Gentle b k weight := by
  intro row hrow weight hweight
  rcases Model.mem_weights hrow hweight with rfl | ⟨r, hr, rfl⟩
  · exact ⟨0, toRat?_zero, fun h => absurd h (lt_irrefl 0)⟩
  · obtain ⟨w, hw⟩ := isFinite_iff.mp (hfinite r hr)
    refine ⟨w, hw, fun hpos => ?_⟩
    have hpull := h.pull_le A hA k hk r hr w hw hpos
    have hone : 0 < max 1 w := lt_max_of_lt_left one_pos
    calc (2 : ℚ) ^ (2 * b + 2) * max 1 w = 4 * (2 ^ (2 * b) * max 1 w) := by
          rw [show 2 * b + 2 = 2 * b + 1 + 1 by ring, zpow_succ_two, zpow_succ_two]
          ring
      _ ≤ 4 * (4 * (A + 1) * max 1 w) := by gcongr
      _ = 16 * ((A + 1) * max 1 w) := by ring
      _ ≤ 16 * (2 ^ (950 : ℤ) * k) := by gcongr
      _ = 2 ^ (954 : ℤ) * k := by
          rw [← mul_assoc, show (16 : ℚ) = 2 ^ (4 : ℤ) by norm_num, ← zpow_add₀ two_ne_zero]
          rfl

/--
A layout stays in its square. For every plan with a finite learning rate, a finite positive area and
a number of steps that can be written out, every seed that is not negative, and every model with
elements, finite weights and their matrix, it succeeds, and each element has a position whose
coordinates are between zero and the side of the square, unless they are no numbers. They are numbers
if the area and the weights are moderate.
-/
theorem layout_in_square {request : Request} {m : Model}
    (hplan : Plan.ofRequest request = .ok plan) (hrate : plan.learningRate.isFinite = true)
    (hfinite : plan.area.isFinite = true) (hpositive : 0 < plan.area)
    (hsteps : plan.iterations < 10 ^ maxDigits)
    (hseed : ∀ seed, plan.seed = some seed → 0 ≤ seed) (hne : m.elements ≠ [])
    (hweights : ∀ r ∈ m.relations, r.weight.isFinite = true)
    (hmatrix : m.matrix = some m.weights) (fallback : Nat) :
    ∃ m' outcome, run plan fallback m = .ok (m', outcome) ∧
      m'.elements.length = m.elements.length ∧
      ∀ e ∈ m'.elements, ∃ p, e.position = some p ∧
        (∀ c ∈ [p.x, p.y], c.isNaN = true ∨ 0 ≤ c ∧ c ≤ plan.side) ∧
        (Moderate plan m → ∀ c ∈ [p.x, p.y], c.isNaN = false) := by
  obtain ⟨A, hA⟩ := isFinite_iff.mp hfinite
  have hA0 : 0 < A := (lt_iff toRat?_zero hA).mp hpositive
  obtain ⟨σ, hσ, hσ0, -⟩ := rootSized_sqrt hA hA0.le
  obtain ⟨seed, hseed⟩ : ∃ seed, plan.seedOr fallback = .ok seed := by
    rcases seedOr_cases plan fallback with ⟨-, s, hs, hneg⟩ | ⟨hok, -⟩
    · exact absurd (hseed s hs) (Int.not_le.mpr hneg)
    · exact hok
  have hpositions := positionsOf_eq_ok_iff.mpr ⟨List.isEmpty_eq_false_iff.mpr hne, hsteps,
    isFinite_iff.mpr ⟨σ, hσ⟩, m.weights, seed, Model.matrix?_eq_weights hmatrix, hseed, rfl⟩
  have hlength := length_of_positionsOf hpositions
  have hstart := inSquare_initialPositions hσ hσ0 seed m.elements.length
  obtain ⟨outcome, hrun⟩ := run_of_positionsOf hpositions
  refine ⟨_, outcome, hrun, by simp [place, hlength], fun e he => ?_⟩
  obtain ⟨-, -, p, hp, rfl⟩ := mem_place he
  refine ⟨p, rfl, fun c hc => ?_, fun hmoderate c hc => ?_⟩
  · -- Each step ends with the coordinates held.
    have hheld := forall_simulate (fun p hp => (hstart p hp).held)
      (fun t _ positions _ => held_step hσ hσ0) p hp c hc
    exact hheld.imp_right fun h => (h.between hσ).2
  · obtain ⟨b, k, hfits, hb⟩ := exists_fits hplan hA hA0.le hσ (hmoderate.area_le A hA)
    have hgentle := hmoderate.gentle hA hfits.rest_eq hb hweights
    have hin := forall_simulate hstart (fun t ht positions h =>
      inSquare_step hσ hσ0 hfits hgentle hrate ht h) p hp
    simp only [List.mem_cons, List.not_mem_nil, or_false] at hc
    rcases hc with rfl | rfl
    · exact (hin.1.between hσ).1
    · exact (hin.2.between hσ).1

/-- An element that is pulled towards another one by a relation of weight one. -/
theorem layout_in_square_of_pull :
    let m : Model := Model.build
      { elements := [{ id := "a", name := "A", kind := .system },
          { id := "b", name := "B", kind := .person }]
        relations := [{ source := "a", target := "b" }] }
    ∃ plan m' outcome, Plan.ofRequest { seed := some 7 } = .ok plan ∧
      run plan 0 m = .ok (m', outcome) ∧ m'.elements.length = 2 ∧
      ∀ e ∈ m'.elements, ∃ p, e.position = some p ∧
        ∀ c ∈ [p.x, p.y], c.isNaN = false ∧ 0 ≤ c ∧ c ≤ plan.side := by
  intro m
  let plan : Plan := ⟨100, 0.1, 1000.0, 1.0, some 7⟩
  have hplan : Plan.ofRequest { seed := some 7 } = .ok plan := rfl
  obtain ⟨m', outcome, hrun, hlength, h⟩ := layout_in_square (m := m) hplan (by decide +kernel)
    (by decide +kernel) (by decide +kernel) (by decide +kernel) (fun seed h => by cases h; decide)
    (List.cons_ne_nil _ _)
    (fun r hr => by obtain rfl := List.mem_singleton.mp hr; decide +kernel) rfl 0
  have harea : toRat? plan.area = some 1000 := by decide +kernel
  have hle : (1000 : ℚ) + 1 ≤ 2 ^ (950 : ℤ) :=
    calc (1000 : ℚ) + 1 ≤ 2 ^ (10 : ℤ) := by norm_num
      _ ≤ 2 ^ (950 : ℤ) := zpow_le_zpow_right₀ one_le_two (by decide)
  have hmoderate : Moderate plan m := by
    refine ⟨fun A hA => ?_, fun A hA k hk r hr w hw _ => ?_⟩
    · obtain rfl : 1000 = A := Option.some.inj (harea.symm.trans hA)
      exact hle
    · obtain rfl := List.mem_singleton.mp hr
      obtain rfl : 1000 = A := Option.some.inj (harea.symm.trans hA)
      obtain rfl : 1 = k := Option.some.inj (toRat?_one.symm.trans hk)
      obtain rfl : 1 = w := Option.some.inj (toRat?_one.symm.trans hw)
      simpa only [max_self, mul_one] using hle
  refine ⟨plan, m', outcome, hplan, hrun, hlength, fun e he => ?_⟩
  obtain ⟨p, hp, hheld, hnumber⟩ := h e he
  refine ⟨p, hp, fun c hc => ⟨hnumber hmoderate c hc, ?_⟩⟩
  exact (hheld c hc).resolve_left (by rw [hnumber hmoderate c hc]; exact Bool.false_ne_true)

/-- The pull of a relation of weight `1e308` is infinite, and the element that it pulls is at no place
that is a number, even where the steps have no size. -/
theorem layout_of_strongest_pull :
    let m : Model := Model.build
      { elements := [{ id := "A", name := "A", kind := .system },
          { id := "B", name := "B", kind := .system }]
        relations := [{ source := "A", target := "B", weight := 1e308 }] }
    ∃ plan m' outcome,
      Plan.ofRequest { iterations := .int 1, learningRate := .int 0, seed := some 1 } = .ok plan ∧
      plan.iterations = 1 ∧ plan.learningRate.isFinite = true ∧ plan.area.isFinite = true ∧
      0 < plan.area ∧ (∀ r ∈ m.relations, r.weight.isFinite = true) ∧
      m.matrix = some m.weights ∧ run plan 0 m = .ok (m', outcome) ∧
      ∃ e ∈ m'.elements, ∃ p, e.position = some p ∧ p.x.isNaN = true := by
  intro m
  let plan : Plan := ⟨1, Float.ofBits 0, 1000.0, 1.0, some 1⟩
  have hpositions := positionsOf_eq_ok_iff.mpr
    ⟨(rfl : m.elements.isEmpty = false),
      (by decide +kernel : plan.iterations < 10 ^ maxDigits),
      (by decide +kernel : plan.side.isFinite = true), m.weights, 1,
      Model.matrix?_eq_weights rfl, (rfl : plan.seedOr 0 = .ok 1), rfl⟩
  obtain ⟨outcome, hrun⟩ := run_of_positionsOf hpositions
  have hnan : (place m (simulate plan m.weights (initialPositions 1 2 plan.side))).elements.any
      (fun e => e.position.any (·.x.isNaN)) = true := by
    unfold initialPositions Generator.ofSeed Pool.ofSeed
    rw [seedWords_of_lt (by decide)]
    decide +kernel
  obtain ⟨e, he, hposition⟩ := List.any_eq_true.mp hnan
  have hnumber := (Option.any_eq_true _ _).mp hposition
  refine ⟨plan, _, outcome, rfl, rfl, by decide +kernel, by decide +kernel, by decide +kernel,
    fun r hr => ?_, rfl, hrun, e, he, hnumber⟩
  obtain rfl := List.mem_singleton.mp hr
  decide +kernel

end Landscape.Layout
