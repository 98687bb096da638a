import Landscape.Proofs.Number.Arithmetic

/-!
# The order of doubles

Doubles that have values are compared as these are. The infinities lie above and below all of them,
and only a not-a-number is compared with nothing.
-/

namespace Landscape.Number

open Float.Model Float.Model.UnpackedFloat

variable {u w : UnpackedFloat} {p q : ℚ} {x y : Float}

section Magnitudes

variable {m₁ m₂ : ℕ} {e₁ e₂ : ℤ}

/-- Of two canonical magnitudes the one with the greater exponent is the greater one. -/
theorem magnitude_lt (h₁ : Canonical m₁ e₁) (h₂ : Canonical m₂ e₂) (h : e₁ < e₂) :
    (m₁ : ℚ) * 2 ^ e₁ < m₂ * 2 ^ e₂ := by
  have hge := h₁.ge
  have hlow : (m₁ : ℚ) < 2 ^ 53 := by exact_mod_cast h₁.lt
  have hhigh : (2 : ℚ) ^ 52 ≤ m₂ := by exact_mod_cast h₂.normal.resolve_right (by omega)
  have hunit : (0 : ℚ) < 2 ^ e₁ := zpow_pos two_pos e₁
  calc (m₁ : ℚ) * 2 ^ e₁ < 2 ^ 53 * 2 ^ e₁ := by gcongr
    _ = 2 ^ 52 * 2 ^ (e₁ + 1) := by rw [zpow_add_one₀ two_ne_zero]; ring
    _ ≤ 2 ^ 52 * 2 ^ e₂ := by
        gcongr
        · exact one_le_two
        · omega
    _ ≤ m₂ * 2 ^ e₂ := by gcongr

/-- Canonical magnitudes are compared by their exponents first. -/
theorem compare_magnitudes (h₁ : Canonical m₁ e₁) (h₂ : Canonical m₂ e₂) :
    (compare e₁ e₂).then (compare m₁ m₂) = compare ((m₁ : ℚ) * 2 ^ e₁) (m₂ * 2 ^ e₂) := by
  rcases lt_trichotomy e₁ e₂ with h | rfl | h
  · rw [compare_lt_iff_lt.mpr h, compare_lt_iff_lt.mpr (magnitude_lt h₁ h₂ h)]
    rfl
  · have hunit : (0 : ℚ) < 2 ^ e₁ := zpow_pos two_pos e₁
    rw [compare_eq_iff_eq.mpr rfl]
    change compare m₁ m₂ = _
    rcases lt_trichotomy m₁ m₂ with h | rfl | h
    · rw [compare_lt_iff_lt.mpr h, compare_lt_iff_lt.mpr]
      exact mul_lt_mul_of_pos_right (by exact_mod_cast h) hunit
    · rw [compare_eq_iff_eq.mpr rfl, compare_eq_iff_eq.mpr rfl]
    · rw [compare_gt_iff_gt.mpr h, compare_gt_iff_gt.mpr]
      exact mul_lt_mul_of_pos_right (by exact_mod_cast h) hunit
  · rw [compare_gt_iff_gt.mpr h, compare_gt_iff_gt.mpr (magnitude_lt h₂ h₁ h)]
    rfl

end Magnitudes

/-- Unpacked numbers that have values are compared as these are. -/
theorem compare_eq (hu : IsCanonical u) (hw : IsCanonical w) (hp : valueOf u = some p)
    (hq : valueOf w = some q) : u.compare w = some (compare p q) := by
  have hpos {m : ℕ} (e : ℤ) (hm : 0 < m) : (0 : ℚ) < m * 2 ^ e :=
    mul_pos (by exact_mod_cast hm) (zpow_pos two_pos e)
  have hpositive (m : ℕ) (e : ℤ) : factor .positive * (m * 2 ^ e) = m * 2 ^ e := one_mul _
  have hnegative (m : ℕ) (e : ℤ) : factor .negative * (m * 2 ^ e) = -(m * 2 ^ e) := neg_one_mul _
  match u, w, hp, hq with
  | .zero _, .zero _, rfl, rfl => rw [compare_eq_iff_eq.mpr rfl]; rfl
  | .zero _, .finite .positive m e hm, rfl, rfl =>
    rw [hpositive, compare_lt_iff_lt.mpr (hpos e hm)]
    rfl
  | .zero _, .finite .negative m e hm, rfl, rfl =>
    rw [hnegative, compare_gt_iff_gt.mpr (neg_neg_of_pos (hpos e hm))]
    rfl
  | .finite .positive m e hm, .zero _, rfl, rfl =>
    rw [hpositive, compare_gt_iff_gt.mpr (hpos e hm)]
    rfl
  | .finite .negative m e hm, .zero _, rfl, rfl =>
    rw [hnegative, compare_lt_iff_lt.mpr (neg_neg_of_pos (hpos e hm))]
    rfl
  | .finite .positive m₁ e₁ h₁, .finite .negative m₂ e₂ h₂, rfl, rfl =>
    rw [hpositive, hnegative,
      compare_gt_iff_gt.mpr ((neg_neg_of_pos (hpos e₂ h₂)).trans (hpos e₁ h₁))]
    rfl
  | .finite .negative m₁ e₁ h₁, .finite .positive m₂ e₂ h₂, rfl, rfl =>
    rw [hpositive, hnegative,
      compare_lt_iff_lt.mpr ((neg_neg_of_pos (hpos e₁ h₁)).trans (hpos e₂ h₂))]
    rfl
  | .finite .positive m₁ e₁ h₁, .finite .positive m₂ e₂ h₂, rfl, rfl =>
    rw [hpositive, hpositive, ← compare_magnitudes hu hw]
    rfl
  | .finite .negative m₁ e₁ h₁, .finite .negative m₂ e₂ h₂, rfl, rfl =>
    have hswap (a b : ℚ) : compare (-a) (-b) = (compare a b).swap := by
      rcases lt_trichotomy a b with h | rfl | h
      · rw [compare_lt_iff_lt.mpr h, compare_gt_iff_gt.mpr (neg_lt_neg h)]
        rfl
      · rw [compare_eq_iff_eq.mpr rfl, compare_eq_iff_eq.mpr rfl]
        rfl
      · rw [compare_gt_iff_gt.mpr h, compare_lt_iff_lt.mpr (neg_lt_neg h)]
        rfl
    rw [hnegative, hnegative, hswap, ← compare_magnitudes hu hw]
    rfl

/-- What the order of doubles says about what they are unpacked to. -/
theorem lt_iff_compare : x < y ↔ x.toModel.unpack.compare y.toModel.unpack = some .lt := by
  change decide (x.toModel < y.toModel) = true ↔ _
  rw [decide_eq_true_iff]
  change (_ == some Ordering.lt) = true ↔ _
  rw [beq_iff_eq]

/-- Doubles that have values are less than another as these are. -/
theorem lt_iff (hx : toRat? x = some p) (hy : toRat? y = some q) : x < y ↔ p < q := by
  rw [toRat?_eq] at hx hy
  rw [lt_iff_compare, compare_eq (isCanonical_unpack x) (isCanonical_unpack y) hx hy,
    Option.some.injEq, compare_lt_iff_lt]

/-- What the order of doubles with equality says about what they are unpacked to. -/
theorem le_iff_compare : x ≤ y ↔ (x.toModel.unpack.compare y.toModel.unpack).any (·.isLE) = true := by
  change decide (x.toModel ≤ y.toModel) = true ↔ _
  rw [decide_eq_true_iff]
  rfl

/-- Doubles that have values are at most another as these are. -/
theorem le_iff (hx : toRat? x = some p) (hy : toRat? y = some q) : x ≤ y ↔ p ≤ q := by
  rw [toRat?_eq] at hx hy
  rw [le_iff_compare, compare_eq (isCanonical_unpack x) (isCanonical_unpack y) hx hy,
    Option.any_some, Ordering.isLE_iff_ne_gt, ← not_lt, ← compare_gt_iff_gt]

/-- What has a value is less than positive infinity and greater than the negative one. -/
theorem compare_infinity (hu : valueOf u = some p) :
    u.compare (.infinity .positive) = some .lt ∧ u.compare (.infinity .negative) = some .gt := by
  cases u with
  | notANumber => cases hu
  | infinity s => cases hu
  | zero s => exact ⟨rfl, rfl⟩
  | finite s m e hm => exact ⟨rfl, rfl⟩

/-- The infinities lie on both sides of what has a value. -/
theorem infinity_compare (hw : valueOf w = some q) :
    UnpackedFloat.compare (.infinity .positive) w = some .gt ∧
      UnpackedFloat.compare (.infinity .negative) w = some .lt := by
  cases w with
  | notANumber => cases hw
  | infinity s => cases hw
  | zero s => exact ⟨rfl, rfl⟩
  | finite s m e hm => exact ⟨rfl, rfl⟩

/-- Only positive infinity is greater than what has a value. -/
theorem lt_infinity_iff {s : Sign} (hx : toRat? x = some p)
    (hy : y.toModel.unpack = .infinity s) : x < y ↔ s = .positive := by
  rw [toRat?_eq] at hx
  rw [lt_iff_compare, hy]
  cases s with
  | positive => simp [(compare_infinity hx).1]
  | negative => simp [(compare_infinity hx).2]

/-- Only negative infinity is less than what has a value. -/
theorem infinity_lt_iff {s : Sign} (hx : x.toModel.unpack = .infinity s)
    (hy : toRat? y = some q) : x < y ↔ s = .negative := by
  rw [toRat?_eq] at hy
  rw [lt_iff_compare, hx]
  cases s with
  | positive => simp [(infinity_compare hy).1]
  | negative => simp [(infinity_compare hy).2]

/-- A double is no not-a-number: it has a value or it is infinite. -/
theorem value_or_infinity (h : x.isNaN = false) :
    (∃ q, toRat? x = some q) ∨ ∃ s, x.toModel.unpack = .infinity s := by
  have hnan : x.isNaN = x.toModel.unpack.isNaN := rfl
  rw [hnan] at h
  rw [toRat?_eq]
  cases hunpack : x.toModel.unpack with
  | notANumber => rw [hunpack] at h; cases h
  | infinity s => exact .inr ⟨s, rfl⟩
  | zero s => exact .inl ⟨_, rfl⟩
  | finite s m e hm => exact .inl ⟨_, rfl⟩

theorem unpack_of_isNaN (h : x.isNaN = true) : x.toModel.unpack = .notANumber := by
  have hnan : x.isNaN = x.toModel.unpack.isNaN := rfl
  rw [hnan] at h
  cases hunpack : x.toModel.unpack with
  | notANumber => rfl
  | _ => rw [hunpack] at h; cases h

/-- A double that is not at most one with a value is greater than it, or a not-a-number. -/
theorem lt_of_not_le (hy : toRat? y = some q) (h : ¬x ≤ y) : x.isNaN = true ∨ y < x := by
  cases hnan : x.isNaN with
  | true => exact .inl rfl
  | false =>
    refine .inr ?_
    rcases value_or_infinity hnan with ⟨p, hp⟩ | ⟨s, hs⟩
    · rw [le_iff hp hy, not_le] at h
      exact (lt_iff hy hp).mpr h
    · refine (lt_infinity_iff hy hs).mpr ?_
      cases s with
      | positive => rfl
      | negative =>
        have hless := lt_iff_compare.mp ((infinity_lt_iff hs hy).mpr rfl)
        exact absurd (le_iff_compare.mpr (by rw [hless]; rfl)) h

/-- A not-a-number is less than nothing. -/
theorem not_lt_of_isNaN (hx : x.isNaN = true) (y : Float) : ¬x < y := by
  rw [lt_iff_compare, unpack_of_isNaN hx]
  exact fun h => nomatch h

/-- Nothing is less than a not-a-number. -/
theorem not_gt_of_isNaN (hx : x.isNaN = true) (y : Float) : ¬y < x := by
  rw [lt_iff_compare, unpack_of_isNaN hx]
  cases y.toModel.unpack <;> exact fun h => nomatch h

/-- What has a value is a number. -/
theorem isNaN_eq_false (hx : toRat? x = some p) : x.isNaN = false := by
  rw [toRat?_eq] at hx
  refine Bool.eq_false_iff.mpr fun hnan => ?_
  rw [unpack_of_isNaN hnan] at hx
  cases hx

/-- What is no not-a-number is packed to a number. -/
theorem isNaN_pack (h : u ≠ .notANumber) :
    (Float.ofModel (Float.Model.pack u)).isNaN = false := by
  have hnumber := unpack_pack_ne_nan h
  change (UnpackedFloat.unpack .binary64 (UnpackedFloat.pack .binary64 u)).isNaN = false
  cases hunpack : UnpackedFloat.unpack .binary64 (UnpackedFloat.pack .binary64 u) with
  | notANumber => exact absurd hunpack hnumber
  | _ => rfl

/-- Rounding makes no not-a-number. -/
theorem Rounded.ne_nan {v : ℝ} (h : Rounded v u) : u ≠ .notANumber := by
  rintro rfl
  obtain ⟨-, r, hr, -⟩ := h
  cases hr

/-- A product of doubles that have values is a number. -/
theorem isNaN_mul (hx : toRat? x = some p) (hy : toRat? y = some q) : (x * y).isNaN = false := by
  rw [toRat?_eq] at hx hy
  exact isNaN_pack (rounded_mul (isCanonical_unpack x) (isCanonical_unpack y) hx hy).ne_nan

/-- A number added to one that has a value is a number. -/
theorem isNaN_add (hx : toRat? x = some p) (hy : y.isNaN = false) : (x + y).isNaN = false := by
  rw [toRat?_eq] at hx
  apply isNaN_pack
  rcases value_or_infinity hy with ⟨q, hq⟩ | ⟨s, hs⟩
  · rw [toRat?_eq] at hq
    exact (rounded_add (isCanonical_unpack x) (isCanonical_unpack y) hx hq).ne_nan
  · rw [hs]
    cases hunpack : x.toModel.unpack with
    | notANumber => rw [hunpack] at hx; cases hx
    | infinity s' => rw [hunpack] at hx; cases hx
    | zero s' => exact UnpackedFloat.noConfusion
    | finite s' m e hm => exact UnpackedFloat.noConfusion

end Landscape.Number
