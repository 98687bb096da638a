import Landscape.Proofs.Number.Order

/-!
# Bounded doubles

A result that is exact within a double in magnitude is also rounded to one within it. A sum of many
terms gains on this: it stops growing where its terms are too small to change it, however many of them
there are.
-/

namespace Landscape.Number

variable {p q d : ℚ} {x y : Float}

/-- A double has a value of a limited magnitude. -/
def Bounded (d : ℚ) (x : Float) : Prop := ∃ q, toRat? x = some q ∧ |q| ≤ d

/-- A double has a value between zero and a limit. -/
def Within (d : ℚ) (x : Float) : Prop := ∃ q, toRat? x = some q ∧ 0 ≤ q ∧ q ≤ d

theorem toRat?_zero : toRat? 0.0 = some 0 := by decide +kernel

theorem toRat?_one : toRat? 1.0 = some 1 := by decide +kernel

theorem isExact_one : IsExact 1 := isExact_of_toRat? toRat?_one

namespace Nearest

variable {r : ℚ}

/-- Rounding does not pass a double that is above. -/
theorem upper (h : Nearest (q : ℝ) r) (hd : IsExact d) (hle : q ≤ d) : r ≤ d := by
  exact_mod_cast h.le hd (by exact_mod_cast hle)

/-- Rounding does not pass a double that is below. -/
theorem lower (h : Nearest (q : ℝ) r) (hd : IsExact d) (hle : d ≤ q) : d ≤ r := by
  exact_mod_cast h.ge hd (by exact_mod_cast hle)

/-- Rounding does not pass a double in magnitude. -/
theorem magnitude (h : Nearest (q : ℝ) r) (hd : IsExact d) (hle : |q| ≤ d) : |r| ≤ d := by
  exact_mod_cast h.magnitude_le hd (by exact_mod_cast hle)

end Nearest

theorem bounded_zero (h : 0 ≤ d) : Bounded d 0.0 := ⟨0, toRat?_zero, abs_zero.trans_le h⟩

theorem bounded_sub (hx : toRat? x = some p) (hy : toRat? y = some q) (hd : IsExact d)
    (h : |p - q| ≤ d) : Bounded d (x - y) := by
  obtain ⟨r, hr, hnearest⟩ := toRat?_sub hx hy hd h
  exact ⟨r, hr, hnearest.magnitude hd h⟩

theorem bounded_mul (hx : toRat? x = some p) (hy : toRat? y = some q) (hd : IsExact d)
    (h : |p * q| ≤ d) : Bounded d (x * y) := by
  obtain ⟨r, hr, hnearest⟩ := toRat?_mul hx hy hd h
  exact ⟨r, hr, hnearest.magnitude hd h⟩

theorem bounded_div (hx : toRat? x = some p) (hy : toRat? y = some q) (hne : q ≠ 0)
    (hd : IsExact d) (h : |p / q| ≤ d) : Bounded d (x / y) := by
  obtain ⟨r, hr, hnearest⟩ := toRat?_div hx hy hne hd h
  exact ⟨r, hr, hnearest.magnitude hd h⟩

theorem within_zero (h : 0 ≤ d) : Within d 0.0 := ⟨0, toRat?_zero, le_rfl, h⟩

/-- What is within a limit is a number between zero and the limit. -/
theorem Within.between (h : Within d x) (hy : toRat? y = some d) :
    x.isNaN = false ∧ 0 ≤ x ∧ x ≤ y := by
  obtain ⟨q, hq, hq0, hqd⟩ := h
  exact ⟨isNaN_eq_false hq, (le_iff toRat?_zero hq).mpr hq0, (le_iff hq hy).mpr hqd⟩

theorem within_add (hx : toRat? x = some p) (hy : toRat? y = some q) (hd : IsExact d)
    (h0 : 0 ≤ p + q) (h : p + q ≤ d) : Within d (x + y) := by
  obtain ⟨r, hr, hnearest⟩ := toRat?_add hx hy hd ((abs_of_nonneg h0).trans_le h)
  exact ⟨r, hr, hnearest.lower isExact_zero h0, hnearest.upper hd h⟩

theorem within_mul (hx : toRat? x = some p) (hy : toRat? y = some q) (hd : IsExact d)
    (h0 : 0 ≤ p * q) (h : p * q ≤ d) : Within d (x * y) := by
  obtain ⟨r, hr, hnearest⟩ := toRat?_mul hx hy hd ((abs_of_nonneg h0).trans_le h)
  exact ⟨r, hr, hnearest.lower isExact_zero h0, hnearest.upper hd h⟩

theorem within_div (hx : toRat? x = some p) (hy : toRat? y = some q) (hne : q ≠ 0)
    (hd : IsExact d) (h0 : 0 ≤ p / q) (h : p / q ≤ d) : Within d (x / y) := by
  obtain ⟨r, hr, hnearest⟩ := toRat?_div hx hy hne hd ((abs_of_nonneg h0).trans_le h)
  exact ⟨r, hr, hnearest.lower isExact_zero h0, hnearest.upper hd h⟩

/-- Beyond a power of two the next double is at least one unit of its last place away. -/
theorem IsExact.add_le {e : ℤ} (h : IsExact q) (hlt : 2 ^ (e + 54) < q) :
    2 ^ (e + 54) + 2 ^ (e + 2) ≤ q := by
  obtain ⟨significand, exponent, hsignificand, -, -, habs⟩ := h
  have hpos : 0 < q := (zpow_pos two_pos _).trans hlt
  rw [abs_of_pos hpos] at habs
  rw [habs] at hlt ⊢
  have hunit : (0 : ℚ) < 2 ^ (e + 2) := zpow_pos two_pos _
  have hplace : e + 2 ≤ exponent := by
    have hsmall : (significand : ℚ) * 2 ^ exponent < 2 ^ (exponent + 53) := by
      have hcast : (significand : ℚ) < 2 ^ 53 := by exact_mod_cast hsignificand
      have hscale : (2 : ℚ) ^ (exponent + 53) = 2 ^ 53 * 2 ^ exponent := zpow_add_natCast _ 53
      rw [hscale]
      exact mul_lt_mul_of_pos_right hcast (zpow_pos two_pos _)
    have hexponents := (zpow_lt_zpow_iff_right₀ (one_lt_two (α := ℚ))).mp (hlt.trans hsmall)
    omega
  obtain ⟨n, hn⟩ := Int.eq_ofNat_of_zero_le (sub_nonneg.mpr hplace)
  obtain rfl : exponent = e + 2 + n := by omega
  -- Both are multiples of the last place.
  have hcount :
      (significand : ℚ) * 2 ^ (e + 2 + n) = ((significand * 2 ^ n : ℕ) : ℚ) * 2 ^ (e + 2) := by
    rw [zpow_add_natCast]
    push_cast
    ring
  have hscale : (2 : ℚ) ^ (e + 54) = ((2 ^ 52 : ℕ) : ℚ) * 2 ^ (e + 2) := by
    rw [show e + 54 = e + 2 + (52 : ℕ) by push_cast; ring, zpow_add_natCast]
    push_cast
    rfl
  rw [hcount, hscale] at hlt ⊢
  have hnext : 2 ^ 52 + 1 ≤ significand * 2 ^ n :=
    Nat.cast_lt.mp (lt_of_mul_lt_mul_right hlt hunit.le)
  have hle : ((2 ^ 52 : ℕ) : ℚ) + 1 ≤ ((significand * 2 ^ n : ℕ) : ℚ) := by exact_mod_cast hnext
  calc ((2 ^ 52 : ℕ) : ℚ) * 2 ^ (e + 2) + 2 ^ (e + 2)
      = (((2 ^ 52 : ℕ) : ℚ) + 1) * 2 ^ (e + 2) := by ring
    _ ≤ ((significand * 2 ^ n : ℕ) : ℚ) * 2 ^ (e + 2) := by gcongr

/-- A sum that is large compared with its terms does not grow any more. -/
theorem Bounded.add_term {e : ℤ} (hge : -1074 ≤ e) (hle : e ≤ 960)
    (hx : Bounded (2 ^ (e + 54)) x) (hy : Bounded (2 ^ e) y) :
    Bounded (2 ^ (e + 54)) (x + y) := by
  obtain ⟨p, hp, hpbound⟩ := hx
  obtain ⟨q, hq, hqbound⟩ := hy
  have hlimit : IsExact (2 ^ (e + 54)) := isExact_zpow (by omega) (by omega)
  have hterm : (2 : ℚ) ^ e ≤ 2 ^ (e + 54) := zpow_le_zpow_right₀ one_le_two (by omega)
  have hroom : |p + q| ≤ 2 ^ (e + 55) := by
    rw [show e + 55 = e + 54 + 1 by ring, zpow_add_one₀ two_ne_zero]
    linarith [abs_add_le p q]
  obtain ⟨r, hr, hnearest⟩ := toRat?_add hp hq (isExact_zpow (by omega) (by omega)) hroom
  refine ⟨r, hr, ?_⟩
  -- What is nearest is not further away than the limit, and the next double is.
  have hstep : (2 : ℚ) ^ (e + 2) = 4 * 2 ^ e := zpow_add_natCast e 2 |>.trans (by norm_num)
  have hunit : (0 : ℚ) < 2 ^ e := zpow_pos two_pos e
  have hexact := isExact_of_toRat? hr
  obtain ⟨hplow, hphigh⟩ := abs_le.mp hpbound
  obtain ⟨hqlow, hqhigh⟩ := abs_le.mp hqbound
  by_contra hbeyond
  rcases lt_abs.mp (not_le.mp hbeyond) with hhigh | hlow
  · have hnext := hexact.add_le hhigh
    have hnear : |r - (p + q)| ≤ |2 ^ (e + 54) - (p + q)| := by exact_mod_cast hnearest _ hlimit
    have hfar := (le_abs_self (r - (p + q))).trans hnear
    rcases abs_cases (2 ^ (e + 54) - (p + q)) with ⟨h, -⟩ | ⟨h, -⟩ <;> rw [h] at hfar <;> linarith
  · have hnext := hexact.neg.add_le hlow
    have hnear : |r - (p + q)| ≤ |-2 ^ (e + 54) - (p + q)| := by
      exact_mod_cast hnearest _ hlimit.neg
    have hfar := (neg_le_abs (r - (p + q))).trans hnear
    rcases abs_cases (-2 ^ (e + 54) - (p + q)) with ⟨h, -⟩ | ⟨h, -⟩ <;> rw [h] at hfar <;> linarith

end Landscape.Number
