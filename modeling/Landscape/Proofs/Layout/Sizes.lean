import Landscape.Layout.Plan
import Landscape.Proofs.Layout.Forces
import Landscape.Proofs.Results

/-!
# The sizes in a plan

The size of a step has a value, the side of the square is a root, and the distance at rest is one or a
root. A moderate area has room in a power of two that is not much larger, and its root holds the side
and the distance at rest.
-/

namespace Landscape.Layout

open Landscape.Number

variable {σ A : ℚ} {x : Float} {plan : Plan}

/-- A plan that was made for a request: what was checked, and what became of each part. -/
structure Accepted (r : Request) (plan : Plan) : Prop where
  notNegative : isNegative r.iterations = .ok false
  iterations : ∃ n, wholeNumber r.iterations = .ok n ∧ plan.iterations = n.toNat
  learningRate : r.learningRate.toFloat = .ok plan.learningRate
  seed : plan.seed = r.seed
  area : (r.area = none ∧ plan.area = defaultArea ∧ plan.idealDistance = defaultDistance) ∨
    ∃ asked, r.area = some asked ∧ isNotPositive asked = .ok false ∧
      asked.toFloat = .ok plan.area ∧
      Plan.restDistance plan.area plan.iterations = .ok plan.idealDistance

/-- A request has a plan only where it is accepted. -/
theorem accepted_of_ofRequest {r : Request} (h : Plan.ofRequest r = .ok plan) : Accepted r plan := by
  obtain ⟨negative, hnegative, h⟩ := bind_eq_ok_iff.mp h
  cases negative with
  | true =>
    obtain ⟨_, -, h⟩ := bind_eq_ok_iff.mp h
    cases h
  | false =>
    cases harea : r.area with
    | none =>
      simp only [harea, Bool.false_eq_true, if_false] at h
      obtain ⟨steps, hsteps, h⟩ := bind_eq_ok_iff.mp h
      obtain ⟨rate, hrate, h⟩ := bind_eq_ok_iff.mp h
      obtain rfl := Except.ok.inj h
      exact ⟨hnegative, ⟨steps, hsteps, rfl⟩, hrate, rfl, .inl ⟨harea, rfl, rfl⟩⟩
    | some asked =>
      simp only [harea, Bool.false_eq_true, if_false] at h
      obtain ⟨refused, hrefused, h⟩ := bind_eq_ok_iff.mp h
      cases refused with
      | true =>
        obtain ⟨_, -, h⟩ := bind_eq_ok_iff.mp h
        cases h
      | false =>
        simp only [Bool.false_eq_true, if_false] at h
        obtain ⟨steps, hsteps, h⟩ := bind_eq_ok_iff.mp h
        obtain ⟨rate, hrate, h⟩ := bind_eq_ok_iff.mp h
        obtain ⟨area, hread, h⟩ := bind_eq_ok_iff.mp h
        obtain ⟨distance, hdistance, h⟩ := bind_eq_ok_iff.mp h
        obtain rfl := Except.ok.inj h
        exact ⟨hnegative, ⟨steps, hsteps, rfl⟩, hrate, rfl,
          .inr ⟨asked, harea, hrefused, hread, hdistance⟩⟩

/-- The part of the steps that lies before one of them. -/
theorem within_ofRatio {t n : ℕ} (h : t < n) : Within 1 (ofRatio t n) := by
  have hn : (0 : ℚ) < n := by exact_mod_cast (Nat.zero_le t).trans_lt h
  have hle : ((t : ℕ) : ℚ) / n ≤ 1 := (div_le_one hn).mpr (by exact_mod_cast h.le)
  have hratio : ofRatio t n = nearest t n := by
    have hsign (k : ℕ) : ¬(k : ℤ) < 0 := not_lt.mpr (Int.natCast_nonneg k)
    simp [ofRatio, signed, hsign]
  obtain ⟨r, hr, hnearest⟩ := toRat?_nearest ((Nat.zero_le t).trans_lt h) isExact_one hle
  exact ⟨r, hratio ▸ hr, hnearest.lower isExact_zero (by positivity), hnearest.upper isExact_one hle⟩

/-- The size of a step has a value. -/
theorem toRat?_temperature {t : ℕ} (h : t < plan.iterations)
    (hrate : plan.learningRate.isFinite = true) : ∃ τ, toRat? (plan.temperature t) = some τ := by
  obtain ⟨η, hη⟩ := isFinite_iff.mp hrate
  obtain ⟨r, hr, hr0, hr1⟩ := within_ofRatio h
  obtain ⟨s, hs, hs1⟩ := bounded_sub toRat?_one hr isExact_one
    (abs_le.mpr ⟨by linarith, by linarith⟩)
  have hproduct : |η * s| ≤ |η| := by
    rw [abs_mul]
    exact mul_le_of_le_one_right (abs_nonneg η) hs1
  obtain ⟨τ, hτ, -⟩ := toRat?_mul hη hs (isExact_of_toRat? hη).abs hproduct
  have hpositive : (plan.iterations == 0) = false := beq_false_of_ne (by omega)
  exact ⟨τ, by simpa [Plan.temperature, hpositive] using hτ⟩

/-- A double is at least zero, and a power of two that is at least one holds it if its square holds a
number. -/
def RootSized (v : ℚ) (x : Float) : Prop :=
  ∃ r, toRat? x = some r ∧ 0 ≤ r ∧ ∀ b : ℤ, 0 ≤ b → b ≤ 476 → v ≤ 2 ^ (2 * b) → r ≤ 2 ^ b

theorem rootSized_default (v : ℚ) : RootSized v defaultDistance :=
  ⟨1, toRat?_one, zero_le_one, fun _ hb0 _ _ => one_le_zpow₀ one_le_two hb0⟩

theorem RootSized.mono {v w : ℚ} (h : RootSized v x) (hle : v ≤ w) : RootSized w x := by
  obtain ⟨r, hr, hr0, hrb⟩ := h
  exact ⟨r, hr, hr0, fun b hb0 hb hw => hrb b hb0 hb (hle.trans hw)⟩

/-- A root has the size of a root. -/
theorem rootSized_sqrt {v : ℚ} (hx : toRat? x = some v) (h0 : 0 ≤ v) : RootSized v x.sqrt := by
  obtain ⟨r, hr, hnearest⟩ := toRat?_sqrt hx h0
  have hr0 : 0 ≤ r := by
    exact_mod_cast hnearest.ge isExact_zero (by simp)
  refine ⟨r, hr, hr0, fun b hb0 hb hv => ?_⟩
  have hroot : Real.sqrt v ≤ ((2 ^ b : ℚ) : ℝ) := by
    have hpower : (0 : ℝ) ≤ ((2 ^ b : ℚ) : ℝ) := by
      rw [cast_two_zpow]
      positivity
    rw [Real.sqrt_le_left hpower]
    have hsquare : v ≤ ((2 : ℚ) ^ b) ^ 2 := by
      rwa [sq, ← zpow_add₀ two_ne_zero, ← two_mul]
    exact_mod_cast hsquare
  exact_mod_cast hnearest.le (isExact_zpow (by omega) (by omega)) hroot

/-- The distance at rest is the default one or the one for the planned area and steps. -/
theorem idealDistance_of_ofRequest {r : Request} (h : Plan.ofRequest r = .ok plan) :
    plan.idealDistance = defaultDistance ∨
      Plan.restDistance plan.area plan.iterations = .ok plan.idealDistance := by
  obtain ⟨-, -, hdistance⟩ | ⟨_, -, -, -, hdistance⟩ := (accepted_of_ofRequest h).area
  · exact .inl hdistance
  · exact .inr hdistance

/-- A number of steps is one at least. -/
theorem ofInt?_bounds {n : ℕ} (hn : 1 ≤ n) (h : ofInt? n = some x) :
    ∃ r, toRat? x = some r ∧ 1 ≤ r := by
  simp only [ofInt?, Option.ite_none_right_eq_some, Option.some.injEq] at h
  obtain ⟨hfinite, rfl⟩ := h
  obtain ⟨r, hr, hnearest⟩ := toRat?_ofInt hfinite
  refine ⟨r, hr, hnearest.lower isExact_one ?_⟩
  exact_mod_cast hn

/-- The distance at rest has the size of the side. -/
theorem rootSized_restDistance {area : Float} {A : ℚ} {n : ℕ}
    (h : Plan.restDistance area n = .ok x) (hA : toRat? area = some A) (h0 : 0 ≤ A) :
    RootSized A x := by
  unfold Plan.restDistance at h
  split at h
  · obtain rfl := Except.ok.inj h
    exact rootSized_default A
  · next hpos =>
    split at h
    · next c hc =>
      obtain rfl := Except.ok.inj h
      have hn : 1 ≤ n := Nat.one_le_iff_ne_zero.mpr fun h => hpos (by simp [h])
      obtain ⟨r, hr, hr1⟩ := ofInt?_bounds hn hc
      have hr0 : 0 < r := by linarith
      obtain ⟨v, hv, hv0, hvA⟩ := within_div hA hr hr0.ne' (isExact_of_toRat? hA)
        (div_nonneg h0 hr0.le) (div_le_self h0 hr1)
      exact (rootSized_sqrt hv hv0).mono hvA
    · cases h

/-- The distance at rest of a plan has the size of its side. -/
theorem rootSized_idealDistance {r : Request} {A : ℚ} (h : Plan.ofRequest r = .ok plan)
    (hA : toRat? plan.area = some A) (h0 : 0 ≤ A) : RootSized A plan.idealDistance := by
  rcases idealDistance_of_ofRequest h with hdefault | hrest
  · rw [hdefault]
    exact rootSized_default A
  · exact rootSized_restDistance hrest hA h0

/-- A moderate area fits into a power of two that is not much larger. -/
theorem exists_fits {r : Request} (hplan : Plan.ofRequest r = .ok plan)
    (hA : toRat? plan.area = some A) (h0 : 0 ≤ A) (hside : toRat? plan.side = some σ)
    (hle : A + 1 ≤ 2 ^ (950 : ℤ)) :
    ∃ b k, Fits b σ plan.idealDistance k ∧ 2 ^ (2 * b) ≤ 4 * (A + 1) := by
  have hfour (e : ℤ) : (4 : ℚ) ^ e = 2 ^ (2 * e) := by
    rw [zpow_mul]
    norm_num
  have hpos : 0 < A + 1 := by linarith
  obtain ⟨e, hlow, hhigh⟩ := exists_mem_Ioc_zpow hpos (by norm_num : (1 : ℚ) < 4)
  rw [hfour] at hlow hhigh
  have hlimit : 2 * e < 950 := (zpow_lt_zpow_iff_right₀ one_lt_two).mp (hlow.trans_le hle)
  have hnonneg : 0 ≤ 2 * (e + 1) := by
    have hone : (2 : ℚ) ^ (0 : ℤ) ≤ 2 ^ (2 * (e + 1)) := by
      rw [zpow_zero]
      linarith
    exact (zpow_le_zpow_iff_right₀ one_lt_two).mp hone
  have hroom : A ≤ 2 ^ (2 * (e + 1)) := by linarith
  obtain ⟨σ', hσ', -, hσb⟩ := rootSized_sqrt hA h0
  obtain rfl : σ = σ' := Option.some.inj (hside.symm.trans hσ')
  obtain ⟨k, hk, hk0, hkb⟩ := rootSized_idealDistance hplan hA h0
  refine ⟨e + 1, k, ⟨by omega, by omega, ?_, hk, hk0, ?_⟩, ?_⟩
  · exact hσb _ (by omega) (by omega) hroom
  · exact hkb _ (by omega) (by omega) hroom
  · rw [show 2 * (e + 1) = 2 * e + 1 + 1 by ring, zpow_succ_two, zpow_succ_two]
    linarith

end Landscape.Layout
