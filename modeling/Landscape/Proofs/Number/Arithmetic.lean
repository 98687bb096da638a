import Landscape.Proofs.Number.Nearest
import Mathlib.Analysis.Real.Sqrt

/-!
# The arithmetic of doubles

Each operation on doubles that have values gives the double nearest to the exact result, if this is
within the range of doubles. The quotient asks for a divisor that is not zero and the root for a
number that is not negative.
-/

namespace Landscape.Number

open Float.Model Float.Model.UnpackedFloat

variable {u w : UnpackedFloat} {p q : ℚ}

/-- A sign applied to an integer. -/
theorem cast_apply (s : Sign) (n : ℤ) : (s.apply n : ℝ) = factor s * n := by
  cases s <;> simp [Sign.apply, factor]

theorem factor_mul (s t : Sign) : factor (s * t) = factor s * factor t := by
  cases s <;> cases t <;> decide +kernel

theorem factor_div (s t : Sign) : factor (s / t) = factor s / factor t := by
  cases s <;> cases t <;> decide +kernel

/-- Sums of unpacked numbers are rounded. -/
theorem rounded_add (hu : IsCanonical u) (hw : IsCanonical w) (hp : valueOf u = some p)
    (hq : valueOf w = some q) : Rounded ((p + q : ℚ) : ℝ) (u.add .binary64 w) := by
  cases u with
  | notANumber => cases hp
  | infinity s => cases hp
  | zero s =>
    obtain rfl := Option.some.inj hp
    rw [zero_add]
    cases w with
    | notANumber => cases hq
    | infinity s' => cases hq
    | zero s' => cases s <;> cases s' <;> exact rounded_self trivial hq
    | finite s' m e hm => exact rounded_self hw hq
  | finite s₁ m₁ e₁ h₁ =>
    cases w with
    | notANumber => cases hq
    | infinity s' => cases hq
    | zero s' =>
      obtain rfl := Option.some.inj hq
      rw [add_zero]
      exact rounded_self hu hp
    | finite s₂ m₂ e₂ h₂ =>
      have hsum := rounded_normalize (s₁.apply (m₁ <<< (e₁ - min e₁ e₂).toNat : ℕ) +
        s₂.apply (m₂ <<< (e₂ - min e₁ e₂).toNat : ℕ)) (min e₁ e₂) .positive
      rw [Int.cast_add, cast_apply, cast_apply, add_mul, mul_assoc, mul_assoc, Int.cast_natCast,
        Int.cast_natCast, shiftLeft_mul m₁ (min_le_left ..), shiftLeft_mul m₂ (min_le_right ..)]
        at hsum
      have hvalue : ((p + q : ℚ) : ℝ) =
          factor s₁ * (m₁ * 2 ^ e₁) + factor s₂ * (m₂ * 2 ^ e₂) := by
        rw [← Option.some.inj hp, ← Option.some.inj hq]
        push_cast
        rfl
      rw [hvalue]
      exact hsum

theorem valueOf_neg (hq : valueOf w = some q) : valueOf w.neg = some (-q) := by
  cases w with
  | notANumber => cases hq
  | infinity s => cases hq
  | zero s =>
    obtain rfl := Option.some.inj hq
    rw [neg_zero]
    rfl
  | finite s m e hm =>
    rw [← Option.some.inj hq, ← neg_mul]
    have hfactor : -factor s = factor (-s) := by
      cases s
      · exact neg_neg 1
      · rfl
    rw [hfactor]
    rfl

/-- A difference is a sum with the opposite. -/
theorem unpacked_sub_eq (u w : UnpackedFloat) : u.sub .binary64 w = u.add .binary64 w.neg := by
  have happly (s : Sign) (n : ℤ) : (-s).apply n = -s.apply n := by
    cases s
    · exact (neg_neg n).symm
    · rfl
  cases u <;> cases w <;> try rfl
  change normalize _ (_ - _) _ _ = normalize _ (_ + _) _ _
  rw [happly, Int.sub_eq_add_neg]

theorem isCanonical_neg (hw : IsCanonical w) : IsCanonical w.neg := by
  cases w with
  | finite s m e hm => exact hw
  | _ => exact trivial

/-- Differences of unpacked numbers are rounded. -/
theorem rounded_sub (hu : IsCanonical u) (hw : IsCanonical w) (hp : valueOf u = some p)
    (hq : valueOf w = some q) : Rounded ((p - q : ℚ) : ℝ) (u.sub .binary64 w) := by
  rw [unpacked_sub_eq, sub_eq_add_neg]
  exact rounded_add hu (isCanonical_neg hw) hp (valueOf_neg hq)

/-- Products of unpacked numbers are rounded. -/
theorem rounded_mul (hu : IsCanonical u) (hw : IsCanonical w) (hp : valueOf u = some p)
    (hq : valueOf w = some q) : Rounded ((p * q : ℚ) : ℝ) (u.mul .binary64 w) := by
  cases u with
  | notANumber => cases hp
  | infinity s => cases hp
  | zero s =>
    obtain rfl := Option.some.inj hp
    rw [zero_mul]
    cases w with
    | notANumber => cases hq
    | infinity s' => cases hq
    | zero s' => exact rounded_self trivial rfl
    | finite s' m e hm => exact rounded_self trivial rfl
  | finite s₁ m₁ e₁ h₁ =>
    cases w with
    | notANumber => cases hq
    | infinity s' => cases hq
    | zero s' =>
      obtain rfl := Option.some.inj hq
      rw [mul_zero]
      exact rounded_self trivial rfl
    | finite s₂ m₂ e₂ h₂ =>
      have hbits : 2 ^ 52 ≤ m₁ * m₂ ∨ e₁ + e₂ ≤ -1074 := by
        obtain ⟨-, -, h | h⟩ := (hu : Canonical m₁ e₁)
        · exact .inl (h.trans (Nat.le_mul_of_pos_right _ h₂))
        obtain ⟨-, -, h' | h'⟩ := (hw : Canonical m₂ e₂)
        · exact .inl (h'.trans (Nat.le_mul_of_pos_left _ h₁))
        · exact .inr (by omega)
      have htells : Tells (m₁ * m₂) ((m₁ * 2 ^ e₁ * (m₂ * 2 ^ e₂) : ℝ) / 2 ^ (e₁ + e₂)) .exact := by
        rw [Tells, zpow_add₀ two_ne_zero]
        push_cast
        field_simp
      have hrounded := rounded_roundWithAccuracy (s₁ * s₂) htells (by positivity) hbits
      have hvalue : ((factor s₁ * (m₁ * 2 ^ e₁) * (factor s₂ * (m₂ * 2 ^ e₂)) : ℚ) : ℝ) =
          factor (s₁ * s₂) * (m₁ * 2 ^ e₁ * (m₂ * 2 ^ e₂)) := by
        rw [factor_mul]
        push_cast
        ring
      rw [← Option.some.inj hp, ← Option.some.inj hq, hvalue]
      exact hrounded

/-- A shift adds to the leading place. -/
theorem two_pow_le_shiftLeft {m n shift : ℕ} (hm : 0 < m) (h : n ≤ m.log2 + shift) :
    2 ^ n ≤ m <<< shift := by
  calc 2 ^ n ≤ 2 ^ (m.log2 + shift) := Nat.pow_le_pow_right two_pos h
    _ = 2 ^ m.log2 * 2 ^ shift := pow_add ..
    _ ≤ m * 2 ^ shift := Nat.mul_le_mul_right _ (Nat.log2_self_le hm.ne')
    _ = m <<< shift := (Nat.shiftLeft_eq ..).symm

/-- The remainder of a division tells where the quotient lies. -/
theorem tells_div (m : ℕ) {n : ℕ} (hn : 0 < n) :
    Tells (m / n) ((m : ℝ) / n) (accuracyOfFraction (m % n) n) := by
  have hn' : (0 : ℝ) < n := by exact_mod_cast hn
  have hlt : ((m % n : ℕ) : ℝ) / n < 1 := by
    rw [div_lt_one hn']
    exact_mod_cast Nat.mod_lt m hn
  have hparts : (m : ℝ) / n = ((m / n : ℕ) : ℝ) + ((m % n : ℕ) : ℝ) / n := by
    rw [div_eq_iff hn'.ne', add_mul, div_mul_cancel₀ _ hn'.ne', mul_comm]
    exact_mod_cast (Nat.div_add_mod m n).symm
  rw [hparts]
  generalize m % n = r at *
  unfold accuracyOfFraction
  split
  next hzero => rw [hzero, Tells, Nat.cast_zero, zero_div, add_zero]
  next hne =>
    have hpos : (0 : ℝ) < (r : ℝ) / n := div_pos (by exact_mod_cast Nat.pos_of_ne_zero hne) hn'
    cases hcompare : compare (2 * r) n with
    | lt =>
      have hhalf : (r : ℝ) / n < 1 / 2 := by
        have hlt : ((2 * r : ℕ) : ℝ) < n := by exact_mod_cast compare_lt_iff_lt.mp hcompare
        push_cast at hlt
        rw [div_lt_iff₀ hn']
        linarith
      exact ⟨by linarith, by linarith⟩
    | eq =>
      have hhalf : (r : ℝ) / n = 1 / 2 := by
        have heq : ((2 * r : ℕ) : ℝ) = n := by exact_mod_cast compare_eq_iff_eq.mp hcompare
        push_cast at heq
        rw [div_eq_iff hn'.ne']
        linarith
      rw [Tells, hhalf]
    | gt =>
      have hhalf : 1 / 2 < (r : ℝ) / n := by
        have hgt : (n : ℝ) < ((2 * r : ℕ) : ℝ) := by exact_mod_cast compare_gt_iff_gt.mp hcompare
        push_cast at hgt
        rw [lt_div_iff₀ hn']
        linarith
      exact ⟨by linarith, by linarith⟩

/-- Quotients of unpacked numbers are rounded. -/
theorem rounded_div (hp : valueOf u = some p) (hq : valueOf w = some q) (hne : q ≠ 0) :
    Rounded ((p / q : ℚ) : ℝ) (u.div .binary64 w) := by
  cases w with
  | notANumber => cases hq
  | infinity s' => cases hq
  | zero s' => exact absurd (Option.some.inj hq).symm hne
  | finite s₂ m₂ e₂ h₂ =>
    cases u with
    | notANumber => cases hp
    | infinity s => cases hp
    | zero s =>
      obtain rfl := Option.some.inj hp
      rw [zero_div]
      exact rounded_self trivial rfl
    | finite s₁ m₁ e₁ h₁ =>
      change Rounded _ (roundWithAccuracy .binary64 (s₁ / s₂) (divCore .binary64 m₁ e₁ m₂ e₂).1
        (divCore .binary64 m₁ e₁ m₂ e₂).2.1 (divCore .binary64 m₁ e₁ m₂ e₂).2.2)
      rw [divCore]
      dsimp only
      rw [targetExponent_eq, totalExponent, totalExponent]
      generalize htarget : min (e₁ - e₂) (max ((m₁.log2 : ℤ) + 1 + e₁ - (m₂.log2 + 1 + e₂) - 53)
        (-1074)) = target
      have hle : target ≤ e₁ - e₂ := htarget ▸ min_le_left ..
      have hvalue := shiftLeft_mul m₁ hle
      generalize hshift : (e₁ - e₂ - target).toNat = shift at *
      have hbits : 2 ^ 52 ≤ (m₁ <<< shift) / m₂ ∨ target ≤ -1074 := by
        -- Above the least place the shift leaves 53 bits at least, whatever the divisor is.
        rcases le_or_gt target (-1074) with hsub | hnormal
        · exact .inr hsub
        · left
          rw [Nat.le_div_iff_mul_le h₂]
          calc 2 ^ 52 * m₂ ≤ 2 ^ 52 * 2 ^ (m₂.log2 + 1) :=
                Nat.mul_le_mul_left _ Nat.lt_log2_self.le
            _ = 2 ^ (52 + (m₂.log2 + 1)) := (pow_add ..).symm
            _ ≤ m₁ <<< shift := two_pow_le_shiftLeft h₁ (by omega)
      have htells : Tells ((m₁ <<< shift) / m₂) ((m₁ * 2 ^ e₁ / (m₂ * 2 ^ e₂) : ℝ) / 2 ^ target)
          (accuracyOfFraction ((m₁ <<< shift) % m₂) m₂) := by
        convert tells_div (m₁ <<< shift) h₂ using 1
        rw [div_eq_iff (zpow_pos two_pos target).ne', div_mul_eq_mul_div, hvalue,
          zpow_sub₀ two_ne_zero]
        field_simp
      have hrounded := rounded_roundWithAccuracy (s₁ / s₂) htells (by positivity) hbits
      have hquotient : ((factor s₁ * (m₁ * 2 ^ e₁) / (factor s₂ * (m₂ * 2 ^ e₂)) : ℚ) : ℝ) =
          factor (s₁ / s₂) * (m₁ * 2 ^ e₁ / (m₂ * 2 ^ e₂)) := by
        rw [factor_div, mul_div_mul_comm]
        push_cast
        rfl
      rw [← Option.some.inj hp, ← Option.some.inj hq, hquotient]
      exact hrounded

/-- The remainder of a root tells where it lies. -/
theorem tells_sqrt (m : ℕ) : Tells (Nat.sqrt m) (Real.sqrt m)
    (if m - Nat.sqrt m * Nat.sqrt m = 0 then .exact
      else .inexact (if m - Nat.sqrt m * Nat.sqrt m ≤ Nat.sqrt m then .lt else .gt)) := by
  have hle : Nat.sqrt m * Nat.sqrt m ≤ m := Nat.sqrt_le m
  have hlt : m < (Nat.sqrt m + 1) * (Nat.sqrt m + 1) := Nat.lt_succ_sqrt m
  generalize Nat.sqrt m = root at *
  obtain ⟨rest, rfl⟩ := Nat.exists_eq_add_of_le hle
  rw [Nat.add_sub_cancel_left]
  have hroot : (0 : ℝ) ≤ root := Nat.cast_nonneg root
  push_cast
  by_cases hzero : rest = 0
  · rw [if_pos hzero, Tells, hzero, Nat.cast_zero, add_zero, Real.sqrt_mul_self hroot]
  rw [if_neg hzero]
  have hpos : (1 : ℝ) ≤ rest := by exact_mod_cast Nat.pos_of_ne_zero hzero
  by_cases hlow : rest ≤ root
  · have hlow' : (rest : ℝ) ≤ root := by exact_mod_cast hlow
    rw [if_pos hlow]
    exact ⟨(Real.lt_sqrt hroot).mpr (by nlinarith), (Real.sqrt_lt' (by linarith)).mpr (by nlinarith)⟩
  · have hhigh : (root : ℝ) + 1 ≤ rest := by exact_mod_cast Nat.lt_of_not_le hlow
    have hlt' : (root * root + rest : ℝ) < (root + 1) * (root + 1) := by exact_mod_cast hlt
    rw [if_neg hlow]
    exact ⟨(Real.lt_sqrt (by linarith)).mpr (by nlinarith),
      (Real.sqrt_lt' (by linarith)).mpr (by nlinarith)⟩

/-- Roots of unpacked numbers are rounded. -/
theorem rounded_sqrt (hp : valueOf u = some p) (hnonneg : 0 ≤ p) :
    Rounded (Real.sqrt p) (u.sqrt .binary64) := by
  cases u with
  | notANumber => cases hp
  | infinity s => cases hp
  | zero s =>
    obtain rfl := Option.some.inj hp
    rw [Rat.cast_zero, Real.sqrt_zero]
    exact_mod_cast @rounded_self (.zero s) 0 trivial rfl
  | finite s m e hm =>
    have hpos : (0 : ℚ) < m * 2 ^ e := mul_pos (by exact_mod_cast hm) (zpow_pos two_pos e)
    cases s with
    | negative =>
      rw [← Option.some.inj hp, factor] at hnonneg
      linarith
    | positive =>
      change Rounded _ (roundWithAccuracy .binary64 .positive (sqrtCore .binary64 m e).1
        (sqrtCore .binary64 m e).2.1 (sqrtCore .binary64 m e).2.2)
      rw [sqrtCore]
      dsimp only
      rw [targetExponent_eq, totalExponent]
      generalize htarget : min (e.ediv 2) (max (((m.log2 : ℤ) + 1 + e + 1).ediv 2 - 53) (-1074)) =
        target
      have heven : 2 * target ≤ e := by
        have hhalf : 2 * e.ediv 2 ≤ e := Int.mul_ediv_self_le two_ne_zero
        omega
      have hvalue := shiftLeft_mul m heven
      generalize hshift : (e - 2 * target).toNat = shift at *
      have hbits : 2 ^ 52 ≤ Nat.sqrt (m <<< shift) ∨ target ≤ -1074 := by
        rcases le_or_gt target (-1074) with hsub | hnormal
        · exact .inr hsub
        · left
          have hhalf : 2 * ((m.log2 : ℤ) + 1 + e + 1).ediv 2 ≤ m.log2 + 1 + e + 1 :=
            Int.mul_ediv_self_le two_ne_zero
          rw [Nat.le_sqrt, ← pow_add]
          exact two_pow_le_shiftLeft hm (by omega)
      have hroot : Real.sqrt (m * 2 ^ e) / 2 ^ target = Real.sqrt ((m <<< shift : ℕ) : ℝ) := by
        have hunit : (0 : ℝ) < 2 ^ target := zpow_pos two_pos target
        rw [← hvalue, two_mul, zpow_add₀ two_ne_zero, Real.sqrt_mul (Nat.cast_nonneg _),
          Real.sqrt_mul_self hunit.le, mul_div_cancel_right₀ _ hunit.ne']
      have hrounded := rounded_roundWithAccuracy .positive (hroot ▸ tells_sqrt (m <<< shift))
        (Real.sqrt_nonneg _) hbits
      have hmagnitude : (factor .positive : ℝ) * Real.sqrt (m * 2 ^ e) = Real.sqrt p := by
        rw [← Option.some.inj hp]
        simp [factor]
      rw [hmagnitude] at hrounded
      exact hrounded

/-- What is rounded to a double within their range is packed to it. -/
theorem toRat?_pack {v : ℝ} {d : ℚ} (h : Rounded v u) (hd : IsExact d) (hv : |v| ≤ d) :
    ∃ r, toRat? (Float.ofModel (Float.Model.pack u)) = some r ∧ Nearest v r := by
  obtain ⟨hcanonical, r, hr, hnearest⟩ := h
  refine ⟨r, ?_, hnearest⟩
  have hunpack : (Float.ofModel (Float.Model.pack u)).toModel.unpack =
      UnpackedFloat.unpack .binary64 (UnpackedFloat.pack .binary64 u) := rfl
  rw [toRat?_eq, hunpack]
  cases u with
  | notANumber => cases hr
  | infinity s => cases hr
  | zero s => rw [unpack_pack_zero, hr]
  | finite s m e hm =>
    have hle : e ≤ 971 := by
      refine Canonical.le hcanonical ?_
      have hmagnitude : |r| ≤ d := by exact_mod_cast hnearest.magnitude_le hd hv
      rw [← abs_factor_mul s (mul_nonneg (Nat.cast_nonneg m) (zpow_pos two_pos e).le),
        Option.some.inj hr]
      exact hmagnitude.trans_lt ((le_abs_self d).trans_lt hd.abs_lt)
    rw [unpack_pack hcanonical hle, hr]

variable {x y : Float} {d : ℚ}

/-- Sums of doubles. -/
theorem toRat?_add (hx : toRat? x = some p) (hy : toRat? y = some q) (hd : IsExact d)
    (h : |p + q| ≤ d) : ∃ r, toRat? (x + y) = some r ∧ Nearest ((p + q : ℚ) : ℝ) r := by
  rw [toRat?_eq] at hx hy
  exact toRat?_pack (rounded_add (isCanonical_unpack x) (isCanonical_unpack y) hx hy) hd
    (by exact_mod_cast h)

/-- Opposites of doubles, which are always doubles. -/
theorem toRat?_neg (hx : toRat? x = some p) : toRat? (-x) = some (-p) := by
  have hexact : IsExact (-p) := (isExact_of_toRat? hx).neg
  rw [toRat?_eq] at hx
  obtain ⟨r, hr, hnearest⟩ := toRat?_pack
    (rounded_self (isCanonical_neg (isCanonical_unpack x)) (valueOf_neg hx)) hexact.abs
    (by exact_mod_cast le_rfl)
  rw [← hnearest.eq_of_isExact hexact]
  exact hr

/-- Differences of doubles. -/
theorem toRat?_sub (hx : toRat? x = some p) (hy : toRat? y = some q) (hd : IsExact d)
    (h : |p - q| ≤ d) : ∃ r, toRat? (x - y) = some r ∧ Nearest ((p - q : ℚ) : ℝ) r := by
  rw [toRat?_eq] at hx hy
  exact toRat?_pack (rounded_sub (isCanonical_unpack x) (isCanonical_unpack y) hx hy) hd
    (by exact_mod_cast h)

/-- Products of doubles. -/
theorem toRat?_mul (hx : toRat? x = some p) (hy : toRat? y = some q) (hd : IsExact d)
    (h : |p * q| ≤ d) : ∃ r, toRat? (x * y) = some r ∧ Nearest ((p * q : ℚ) : ℝ) r := by
  rw [toRat?_eq] at hx hy
  exact toRat?_pack (rounded_mul (isCanonical_unpack x) (isCanonical_unpack y) hx hy) hd
    (by exact_mod_cast h)

/-- Quotients of doubles. -/
theorem toRat?_div (hx : toRat? x = some p) (hy : toRat? y = some q) (hne : q ≠ 0) (hd : IsExact d)
    (h : |p / q| ≤ d) : ∃ r, toRat? (x / y) = some r ∧ Nearest ((p / q : ℚ) : ℝ) r := by
  rw [toRat?_eq] at hx hy
  exact toRat?_pack (rounded_div hx hy hne) hd (by exact_mod_cast h)

/-- Roots of doubles, which are always within their range. -/
theorem toRat?_sqrt (hx : toRat? x = some p) (hnonneg : 0 ≤ p) :
    ∃ r, toRat? x.sqrt = some r ∧ Nearest (Real.sqrt p) r := by
  have hlarge : IsExact (2 ^ (512 : ℤ)) := isExact_zpow (by decide) (by decide)
  have hbound : p ≤ 2 ^ (512 : ℤ) * 2 ^ (512 : ℤ) := by
    rw [← zpow_add₀ two_ne_zero]
    exact (le_abs_self p).trans (isExact_of_toRat? hx).abs_lt.le
  rw [toRat?_eq] at hx
  refine toRat?_pack (rounded_sqrt hx hnonneg) hlarge ?_
  rw [abs_of_nonneg (Real.sqrt_nonneg _)]
  have hroot : (0 : ℝ) ≤ ((2 ^ (512 : ℤ) : ℚ) : ℝ) := by positivity
  rw [← Real.sqrt_mul_self hroot]
  exact Real.sqrt_le_sqrt (by exact_mod_cast hbound)

/-- The root of a double that is not negative is finite if the double is. -/
theorem isFinite_sqrt (h : ∀ p, toRat? x = some p → 0 ≤ p) : x.sqrt.isFinite = x.isFinite := by
  cases hx : x.isFinite with
  | true =>
    obtain ⟨p, hp⟩ := isFinite_iff.mp hx
    obtain ⟨r, hr, -⟩ := toRat?_sqrt hp (h p hp)
    exact isFinite_iff.mpr ⟨r, hr⟩
  | false =>
    have hfinite : x.isFinite = x.toModel.unpack.isFinite := rfl
    have hroot : x.sqrt.isFinite = (UnpackedFloat.unpack .binary64
      (UnpackedFloat.pack .binary64 (x.toModel.unpack.sqrt .binary64))).isFinite := rfl
    rw [hfinite] at hx
    rw [hroot]
    cases hunpack : x.toModel.unpack with
    | notANumber => decide
    | infinity s => cases s <;> decide
    | zero s => rw [hunpack] at hx; cases hx
    | finite s m e hm => rw [hunpack] at hx; cases hx

/-- Naturals as doubles. -/
theorem toRat?_toFloat (n : UInt64) : ∃ r, toRat? n.toFloat = some r ∧ Nearest (n.toNat : ℝ) r := by
  have hlarge : IsExact (2 ^ (64 : ℤ)) := isExact_zpow (by decide) (by decide)
  have hrounded := rounded_normalize n.toNat 0 .positive
  rw [zpow_zero, mul_one, Int.cast_natCast] at hrounded
  refine toRat?_pack hrounded hlarge ?_
  have hlt : (n.toNat : ℝ) ≤ 2 ^ 64 := by exact_mod_cast n.toNat_lt.le
  rw [abs_of_nonneg (Nat.cast_nonneg _)]
  push_cast
  exact_mod_cast hlt

/-- A rounded quotient is half a unit away at most. -/
theorem roundQuotient_near (a : ℕ) {b : ℕ} (hb : 0 < b) :
    |(roundQuotient a b : ℝ) - (a : ℝ) / b| ≤ 1 / 2 := by
  have htells := tells_div a hb
  have hround : roundQuotient a b = (accuracyOfFraction (a % b) b).roundToNearestEven (a / b) := by
    have hlt := Nat.mod_lt a hb
    unfold roundQuotient accuracyOfFraction
    generalize a % b = r at hlt
    dsimp only
    by_cases hzero : r = 0
    · rw [if_pos hzero, if_pos (by omega)]
      rfl
    rw [if_neg hzero]
    rcases lt_trichotomy (2 * r) b with h | h | h
    · rw [compare_lt_iff_lt.mpr h, if_pos h]
      rfl
    · rw [compare_eq_iff_eq.mpr h, if_neg (by omega), if_neg (by omega)]
      rfl
    · rw [compare_gt_iff_gt.mpr h, if_neg (by omega), if_pos h]
      rfl
  rw [hround]
  exact htells.roundToNearestEven

/-- A quotient is rounded in its last place. -/
theorem roundsAt_lastPlace {num den : ℕ} (hnum : 0 < num) (hden : 0 < den) :
    let units := inUnits num den (lastPlace num den)
    RoundsAt (((num : ℚ) / den : ℚ) : ℝ) (lastPlace num den) (roundQuotient units.1 units.2) := by
  intro units
  obtain ⟨hge, hbelow, habove⟩ := lastPlace_spec hnum hden
  have hdiv := congrArg (Rat.cast : ℚ → ℝ) (inUnits_div num den (lastPlace num den))
  rw [Rat.cast_div, Rat.cast_div, Rat.cast_natCast, Rat.cast_natCast, cast_two_zpow] at hdiv
  have hnear := roundQuotient_near units.1 (inUnits_pos hden num (lastPlace num den))
  rw [hdiv] at hnear
  refine ⟨hge, ?_, habove.imp_right fun hle => ?_, hnear⟩
  · rw [← cast_two_zpow]
    exact_mod_cast hbelow
  · rw [← cast_two_zpow]
    exact_mod_cast hle

/-- A rounded count is a canonical number, whose bits are those of the count: where it was rounded up
to a power of two they carry into the exponent. -/
theorem RoundsAt.exists_canonical {v : ℝ} {place : ℤ} {count : ℕ} (h : RoundsAt v place count) :
    ∃ m e, Canonical m e ∧ (m : ℚ) * 2 ^ e = count * 2 ^ place ∧
      (place + 1074).toNat * 2 ^ 52 + count = (e + 1074).toNat * 2 ^ 52 + m := by
  have hge := h.ge
  rcases Nat.eq_or_lt_of_le h.count_le with rfl | hlt
  · exact ⟨2 ^ 52, place + 1, canonical_carry hge, carry_mul place, by omega⟩
  · exact ⟨count, place, h.canonical_of_lt hlt, rfl, rfl⟩

/-- A quotient of naturals is rounded to the nearest double, or it is too large for one. -/
theorem nearest_cases (num : ℕ) {den : ℕ} (hden : 0 < den) :
    ∃ r : ℚ, Nearest (((num : ℚ) / den : ℚ) : ℝ) r ∧
      (toRat? (nearest num den) = some r ∨ nearest num den = infinity ∧ 2 ^ (1024 : ℤ) ≤ r) := by
  rcases Nat.eq_zero_or_pos num with rfl | hnum
  · have hzero : toRat? (nearest 0 den) = some 0 := by
      have hbits : nearest 0 den = Float.ofBits 0 := rfl
      rw [hbits]
      decide +kernel
    exact ⟨0, fun d _ => by simp, .inl hzero⟩
  have hrounds := roundsAt_lastPlace hnum hden
  have hnonneg : (0 : ℝ) ≤ (((num : ℚ) / den : ℚ) : ℝ) := by positivity
  obtain ⟨m, e, ⟨hlt, hge, hnormal⟩, hvalue, hbits⟩ := hrounds.exists_canonical
  refine ⟨m * 2 ^ e, ?_, ?_⟩
  · rw [hvalue, Rat.cast_mul, Rat.cast_natCast, cast_two_zpow]
    exact hrounds.nearest hnonneg
  unfold nearest
  rw [if_neg (by simp [hnum.ne', hden.ne'])]
  simp only [Nat.pow_eq]
  rw [hbits]
  by_cases hle : e ≤ 971
  · left
    rw [if_neg (by omega)]
    exact toRat?_double ⟨hlt, hge, hle, hnormal⟩
  · right
    have hleading := hnormal.resolve_right (by omega)
    refine ⟨if_pos (by omega), ?_⟩
    by_contra hsmall
    exact hle (Canonical.le ⟨hlt, hge, hnormal⟩ (not_le.mp hsmall))

/-- A quotient of naturals within the range of doubles is rounded to the nearest one. -/
theorem toRat?_nearest {num den : ℕ} (hden : 0 < den) (hd : IsExact d) (h : (num : ℚ) / den ≤ d) :
    ∃ r, toRat? (nearest num den) = some r ∧ Nearest (((num : ℚ) / den : ℚ) : ℝ) r := by
  obtain ⟨r, hnearest, hvalue | ⟨-, hlarge⟩⟩ := nearest_cases num hden
  · exact ⟨r, hvalue, hnearest⟩
  · have hle : r ≤ d := by exact_mod_cast hnearest.le hd (by exact_mod_cast h)
    exact absurd (hle.trans_lt ((le_abs_self d).trans_lt hd.abs_lt)) (not_lt.mpr hlarge)

/-- An integer is rounded to the nearest double, or it is too large for one. -/
theorem ofInt_cases (n : ℤ) : ∃ r : ℚ, Nearest ((n : ℚ) : ℝ) r ∧
    (toRat? (ofInt n) = some r ∨ (ofInt n).isFinite = false ∧ 2 ^ (1024 : ℤ) ≤ |r|) := by
  obtain ⟨r, hnearest, hcases⟩ := nearest_cases n.natAbs one_pos
  rw [Nat.cast_one, div_one, Nat.cast_natAbs] at hnearest
  by_cases hneg : n < 0
  · have hsign : ofInt n = -nearest n.natAbs 1 := by simp [ofInt, signed, hneg]
    rw [abs_of_neg hneg, Int.cast_neg, Rat.cast_neg] at hnearest
    refine ⟨-r, by simpa using hnearest.neg, ?_⟩
    rw [hsign]
    rcases hcases with hvalue | ⟨hinfinity, hlarge⟩
    · exact .inl (toRat?_neg hvalue)
    · rw [hinfinity, abs_neg]
      exact .inr ⟨by decide +kernel, hlarge.trans (le_abs_self r)⟩
  · have hsign : ofInt n = nearest n.natAbs 1 := by simp [ofInt, signed, hneg]
    rw [abs_of_nonneg (not_lt.mp hneg)] at hnearest
    refine ⟨r, hnearest, ?_⟩
    rw [hsign]
    rcases hcases with hvalue | ⟨hinfinity, hlarge⟩
    · exact .inl hvalue
    · rw [hinfinity]
      exact .inr ⟨by decide +kernel, hlarge.trans (le_abs_self r)⟩

/-- An integer is rounded to the nearest double if this is finite. -/
theorem toRat?_ofInt {n : ℤ} (h : (ofInt n).isFinite = true) :
    ∃ r, toRat? (ofInt n) = some r ∧ Nearest ((n : ℚ) : ℝ) r := by
  obtain ⟨r, hnearest, hvalue | ⟨hinfinite, -⟩⟩ := ofInt_cases n
  · exact ⟨r, hvalue, hnearest⟩
  · rw [h] at hinfinite
    cases hinfinite

/-- An integer that a double stands for is not rounded. -/
theorem toRat?_ofInt_of_isExact {n : ℤ} (h : IsExact (n : ℚ)) :
    toRat? (ofInt n) = some (n : ℚ) := by
  obtain ⟨r, hnearest, hcases⟩ := ofInt_cases n
  obtain rfl := hnearest.eq_of_isExact h
  exact hcases.resolve_right fun hlarge => absurd hlarge.2 (not_le.mpr h.abs_lt)

end Landscape.Number
