import Landscape.Proofs.Number.Value
import Mathlib.Data.Real.Basic

/-!
# The nearest double

The arithmetic of doubles computes with some more bits than it keeps, of which the last two tell where
the exact result lies between two significands. Rounding by these gives a double that no other one
is nearer to the exact result than. All other facts about the size of rounded results follow from
this.
-/

namespace Landscape.Number

open Float.Model Float.Model.UnpackedFloat

/-- What an accuracy tells about the number that a significand stands for. -/
def Tells (m : ℕ) (x : ℝ) : Accuracy → Prop
  | .exact => x = m
  | .inexact .lt => m < x ∧ x < m + 1 / 2
  | .inexact .eq => x = m + 1 / 2
  | .inexact .gt => m + 1 / 2 < x ∧ x < m + 1

variable {m : ℕ} {e : ℤ} {x v : ℝ} {a : Accuracy} {em : ExtendedMantissa}

/-- A number lies between its significand and the next one. -/
theorem Tells.bounds (h : Tells m x a) : (m : ℝ) ≤ x ∧ x < m + 1 := by
  match a, h with
  | .exact, h => exact ⟨h.ge, by rw [h]; linarith⟩
  | .inexact .lt, ⟨hlow, hhigh⟩ => constructor <;> linarith
  | .inexact .eq, h => constructor <;> linarith [show x = m + 1 / 2 from h]
  | .inexact .gt, ⟨hlow, hhigh⟩ => constructor <;> linarith

/-- A rounded significand is half a unit away at most. -/
theorem Tells.roundToNearestEven (h : Tells m x a) : |(a.roundToNearestEven m : ℝ) - x| ≤ 1 / 2 := by
  rw [abs_le]
  match a, h with
  | .exact, h =>
    rw [Accuracy.roundToNearestEven, show x = m from h]
    norm_num
  | .inexact .lt, ⟨hlow, hhigh⟩ =>
    rw [Accuracy.roundToNearestEven]
    constructor <;> linarith
  | .inexact .eq, h =>
    rw [Accuracy.roundToNearestEven, show x = m + 1 / 2 from h]
    have hparity : ((m % 2 : ℕ) : ℝ) ≤ 1 := by
      exact_mod_cast Nat.le_of_lt_succ (Nat.mod_lt m two_pos)
    have hnonneg : (0 : ℝ) ≤ ((m % 2 : ℕ) : ℝ) := Nat.cast_nonneg _
    push_cast at hparity hnonneg ⊢
    constructor <;> linarith
  | .inexact .gt, ⟨hlow, hhigh⟩ =>
    rw [Accuracy.roundToNearestEven]
    push_cast
    constructor <;> linarith

/-- Half a number is told by the bits that are shifted out. -/
theorem Tells.shiftRightOne (h : Tells em.mantissa x em.accuracy) :
    Tells em.shiftRightOne.mantissa (x / 2) em.shiftRightOne.accuracy := by
  obtain ⟨m, roundBit, stickyBit⟩ := em
  have hparts : (m : ℝ) = 2 * ((m / 2 : ℕ) : ℝ) + ((m % 2 : ℕ) : ℝ) := by
    exact_mod_cast (Nat.div_add_mod m 2).symm
  rcases Nat.mod_two_eq_zero_or_one m with hbit | hbit <;> rw [hbit] at hparts
  · have hround : (m % 2 != 0) = false := by rw [hbit]; rfl
    cases roundBit <;> cases stickyBit <;>
      simp only [ExtendedMantissa.shiftRightOne, ExtendedMantissa.accuracy, Tells, hround,
        Bool.or_false, Bool.or_true] at h ⊢ <;>
      push_cast at hparts <;> (try constructor) <;> linarith
  · have hround : (m % 2 != 0) = true := by rw [hbit]; rfl
    cases roundBit <;> cases stickyBit <;>
      simp only [ExtendedMantissa.shiftRightOne, ExtendedMantissa.accuracy, Tells, hround,
        Bool.or_false, Bool.or_true] at h ⊢ <;>
      push_cast at hparts <;> (try constructor) <;> linarith

/-- So is a number divided by a power of two. -/
theorem Tells.shiftRight (h : Tells em.mantissa x em.accuracy) (n : ℕ) :
    Tells (em >>> n).mantissa (x / 2 ^ n) (em >>> n).accuracy := by
  change Tells (n.repeat ExtendedMantissa.shiftRightOne em).mantissa _
    (n.repeat ExtendedMantissa.shiftRightOne em).accuracy
  induction n with
  | zero => simpa [Nat.repeat] using h
  | succ n ih =>
    rw [pow_succ, ← div_div]
    exact ih.shiftRightOne

/-- Bits that are set from an accuracy tell the same. -/
theorem Tells.ofMantissaAndAccuracy (h : Tells m x a) :
    Tells (ExtendedMantissa.ofMantissaAndAccuracy m a).mantissa x
      (ExtendedMantissa.ofMantissaAndAccuracy m a).accuracy := by
  match a, h with
  | .exact, h => exact h
  | .inexact .lt, h => exact h
  | .inexact .eq, h => exact h
  | .inexact .gt, h => exact h

/-- Powers of two are the same among rationals and reals. -/
theorem cast_two_zpow (e : ℤ) : ((2 ^ e : ℚ) : ℝ) = 2 ^ e := by rw [Rat.cast_zpow, Rat.cast_ofNat]

/-- No double is nearer to a number than another one. -/
def Nearest (v r : ℝ) : Prop := ∀ d, IsExact d → |r - v| ≤ |(d : ℝ) - v|

namespace Nearest

variable {r : ℝ} {d : ℚ}

/-- Rounding does not pass a double that is above. -/
theorem le (h : Nearest v r) (hd : IsExact d) (hle : v ≤ d) : r ≤ d := by
  by_contra hlt
  have hnear := h d hd
  rw [abs_of_nonneg (sub_nonneg.mpr hle), abs_of_nonneg (by linarith)] at hnear
  linarith

/-- Rounding does not pass a double that is below. -/
theorem ge (h : Nearest v r) (hd : IsExact d) (hle : d ≤ v) : d ≤ r := by
  by_contra hlt
  have hnear := h d hd
  rw [abs_of_nonpos (sub_nonpos.mpr hle), abs_of_nonpos (by linarith)] at hnear
  linarith

/-- A double is rounded to itself. -/
theorem eq_of_isExact {r : ℚ} (h : Nearest d r) (hd : IsExact d) : r = d := by
  have hle := h.le hd le_rfl
  have hge := h.ge hd le_rfl
  exact_mod_cast le_antisymm hle hge

/-- Rounding does not pass a double in magnitude. -/
theorem magnitude_le (h : Nearest v r) (hd : IsExact d) (hle : |v| ≤ d) : |r| ≤ d := by
  obtain ⟨hlow, hhigh⟩ := abs_le.mp hle
  have hbelow := h.ge hd.neg (by push_cast; exact hlow)
  push_cast at hbelow
  exact abs_le.mpr ⟨hbelow, h.le hd hhigh⟩

end Nearest

/-- A number is counted in units of its last place, and the count is half a unit off at most. -/
structure RoundsAt (v : ℝ) (place : ℤ) (count : ℕ) : Prop where
  ge : -1074 ≤ place
  below : v < 2 ^ (place + 53)
  above : place = -1074 ∨ 2 ^ (place + 52) ≤ v
  near : |(count : ℝ) - v / 2 ^ place| ≤ 1 / 2

namespace RoundsAt

variable {place : ℤ} {count : ℕ}

theorem div_lt (h : RoundsAt v place count) : v / 2 ^ place < 2 ^ 53 := by
  rw [div_lt_iff₀ (zpow_pos two_pos place), mul_comm, ← zpow_natCast, ← zpow_add₀ two_ne_zero]
  exact h.below

theorem le_div (h : RoundsAt v place count) (hplace : place ≠ -1074) :
    2 ^ 52 ≤ v / 2 ^ place := by
  rw [le_div_iff₀ (zpow_pos two_pos place), mul_comm, ← zpow_natCast, ← zpow_add₀ two_ne_zero]
  exact h.above.resolve_left hplace

theorem count_le (h : RoundsAt v place count) : count ≤ 2 ^ 53 := by
  have hnear := abs_le.mp h.near
  have hlt : (count : ℝ) < 2 ^ 53 + 1 := by linarith [h.div_lt]
  exact Nat.le_of_lt_succ (by exact_mod_cast hlt)

theorem le_count (h : RoundsAt v place count) (hplace : place ≠ -1074) : 2 ^ 52 ≤ count := by
  have hnear := abs_le.mp h.near
  have hlt : (2 ^ 52 : ℝ) < count + 1 := by linarith [h.le_div hplace]
  exact Nat.le_of_lt_succ (by exact_mod_cast hlt)

/-- No other count is nearer. -/
theorem near_le (h : RoundsAt v place count) (n : ℕ) :
    |(count : ℝ) - v / 2 ^ place| ≤ |(n : ℝ) - v / 2 ^ place| := by
  rcases eq_or_ne n count with rfl | hne
  · exact le_rfl
  · have hapart : (1 : ℝ) ≤ |(n : ℝ) - count| := by
      have hint : (1 : ℤ) ≤ |(n : ℤ) - count| := Int.one_le_abs (by omega)
      exact_mod_cast hint
    have hsum := abs_sub_le (n : ℝ) (v / 2 ^ place) count
    rw [abs_sub_comm (v / 2 ^ place)] at hsum
    linarith [h.near]

/-- No exact number is nearer: in the same place it is another count, and below it is too small. -/
theorem nearest (h : RoundsAt v place count) (hv : 0 ≤ v) : Nearest v (count * 2 ^ place) := by
  intro d hd
  have hunit : (0 : ℝ) < 2 ^ place := zpow_pos two_pos place
  have hscale (c : ℝ) : |c * 2 ^ place - v| = |c - v / 2 ^ place| * 2 ^ place := by
    rw [← abs_of_pos hunit, ← abs_mul, abs_of_pos hunit, sub_mul, div_mul_cancel₀ _ hunit.ne']
  obtain ⟨significand, exponent, hlt, hge, -, habs⟩ := hd
  have habs' : |(d : ℝ)| = significand * 2 ^ exponent := by
    rw [← Rat.cast_abs, habs]
    push_cast
    rfl
  have hside : |(significand : ℝ) * 2 ^ exponent - v| ≤ |(d : ℝ) - v| := by
    have hsides := abs_abs_sub_abs_le_abs_sub (d : ℝ) v
    rwa [habs', abs_of_nonneg hv] at hsides
  refine le_trans ?_ hside
  rw [hscale]
  rcases le_or_gt place exponent with hle | hgt
  · obtain ⟨n, hn⟩ := Int.eq_ofNat_of_zero_le (show 0 ≤ exponent - place by omega)
    have hcount :
        (significand : ℝ) * 2 ^ exponent = ((significand * 2 ^ n : ℕ) : ℝ) * 2 ^ place := by
      rw [show exponent = n + place by omega, zpow_add₀ two_ne_zero]
      push_cast
      rw [zpow_natCast, mul_assoc]
    rw [hcount, hscale]
    exact mul_le_mul_of_nonneg_right (h.near_le _) hunit.le
  · have hsmall : (significand : ℝ) * 2 ^ exponent ≤ 2 ^ 52 * 2 ^ place := by
      have hsignificand : (significand : ℝ) ≤ 2 ^ 53 := by exact_mod_cast hlt.le
      calc (significand : ℝ) * 2 ^ exponent
          ≤ 2 ^ 53 * 2 ^ exponent := by gcongr
        _ = 2 ^ 52 * 2 ^ (exponent + 1) := by rw [zpow_add_one₀ two_ne_zero]; ring
        _ ≤ 2 ^ 52 * 2 ^ place := by
            gcongr
            · exact one_le_two
            · omega
    have hlarge : 2 ^ 52 * 2 ^ place ≤ v :=
      (le_div_iff₀ hunit).mp (h.le_div (by omega))
    have hnear := h.near_le (2 ^ 52)
    rw [← mul_le_mul_iff_left₀ hunit, ← hscale, ← hscale] at hnear
    rw [← hscale]
    refine hnear.trans ?_
    rw [Nat.cast_pow, Nat.cast_ofNat, abs_of_nonpos (sub_nonpos.mpr hlarge),
      abs_of_nonpos (sub_nonpos.mpr (hsmall.trans hlarge))]
    linarith

end RoundsAt

/-- An unpacked number is what a number is rounded to, without regard to the greatest double. -/
structure Rounded (v : ℝ) (u : UnpackedFloat) : Prop where
  canonical : IsCanonical u
  nearest : ∃ r, valueOf u = some r ∧ Nearest v r

theorem targetExponent_eq (t : ℤ) : Format.binary64.targetExponent t = max (t - 53) (-1074) := rfl

/-- The leading bit of a significand tells the size of the number. -/
theorem lt_two_pow_totalExponent (h : Tells m (v / 2 ^ e) a) : v < 2 ^ totalExponent m e := by
  have hunit : (0 : ℝ) < 2 ^ e := zpow_pos two_pos e
  have hm : ((m + 1 : ℕ) : ℝ) ≤ ((2 ^ (m.log2 + 1) : ℕ) : ℝ) := by exact_mod_cast Nat.lt_log2_self
  push_cast at hm
  have hlt := (div_lt_iff₀ hunit).mp h.bounds.2
  calc v < (m + 1) * 2 ^ e := hlt
    _ ≤ 2 ^ (m.log2 + 1) * 2 ^ e := by gcongr
    _ = 2 ^ totalExponent m e := by
        rw [totalExponent, zpow_add₀ two_ne_zero, ← zpow_natCast]
        push_cast
        rfl

theorem two_pow_totalExponent_le (h : Tells m (v / 2 ^ e) a) (hm : m ≠ 0) :
    2 ^ (totalExponent m e - 1) ≤ v := by
  have hunit : (0 : ℝ) < 2 ^ e := zpow_pos two_pos e
  have hlog : ((2 ^ m.log2 : ℕ) : ℝ) ≤ (m : ℝ) := by exact_mod_cast Nat.log2_self_le hm
  push_cast at hlog
  have hle := (le_div_iff₀ hunit).mp h.bounds.1
  calc (2 : ℝ) ^ (totalExponent m e - 1) = 2 ^ m.log2 * 2 ^ e := by
        rw [totalExponent, ← zpow_natCast, ← zpow_add₀ two_ne_zero]
        congr 1
        ring
    _ ≤ m * 2 ^ e := by gcongr
    _ ≤ v := hle

/-- Enough bits of a number, shifted to its last place and rounded, count it. -/
theorem roundsAt_of_tells (h : Tells m (v / 2 ^ e) a) (hbits : 2 ^ 52 ≤ m ∨ e ≤ -1074) :
    let shifted := shiftToTargetExponent .binary64 m e a
    RoundsAt v shifted.2 shifted.1.roundedMantissa := by
  have htotal : 2 ^ 52 ≤ m → 52 ≤ m.log2 := fun hm => (Nat.le_log2 (by omega)).mpr hm
  have hle : e ≤ Format.binary64.targetExponent (totalExponent m e) := by
    rw [targetExponent_eq, totalExponent]
    omega
  have hplace : (shiftToTargetExponent .binary64 m e a).2 =
      Format.binary64.targetExponent (totalExponent m e) := by
    change e + ((_ - e).toNat : ℤ) = _
    omega
  have htells := h.ofMantissaAndAccuracy.shiftRight
    (Format.binary64.targetExponent (totalExponent m e) - e).toNat
  rw [div_div, ← zpow_natCast, ← zpow_add₀ two_ne_zero, Int.toNat_of_nonneg (by omega),
    add_sub_cancel] at htells
  dsimp only
  rw [hplace]
  refine ⟨by rw [targetExponent_eq]; omega, ?_, ?_, htells.roundToNearestEven⟩
  · refine (lt_two_pow_totalExponent h).trans_le (zpow_le_zpow_right₀ one_le_two ?_)
    rw [targetExponent_eq]
    omega
  · by_cases hm : m = 0
    · left
      rw [targetExponent_eq, totalExponent, hm]
      change max (((0 : ℕ) : ℤ) + 1 + e - 53) _ = _
      omega
    · rw [targetExponent_eq]
      rcases le_or_gt (totalExponent m e - 53) (-1074) with hsub | hnormal
      · exact .inl (max_eq_right hsub)
      · right
        rw [max_eq_left hnormal.le]
        convert two_pow_totalExponent_le h hm using 2
        ring

/-- A count that was not rounded up to a power of two is canonical. -/
theorem RoundsAt.canonical_of_lt {place : ℤ} {count : ℕ} (h : RoundsAt v place count)
    (hlt : count < 2 ^ 53) : Canonical count place := by
  refine ⟨hlt, h.ge, ?_⟩
  by_cases hplace : place = -1074
  · exact .inr hplace
  · exact .inl (h.le_count hplace)

/-- A count that was rounded up to a power of two is canonical in the next place. -/
theorem canonical_carry {place : ℤ} (hge : -1074 ≤ place) : Canonical (2 ^ 52) (place + 1) :=
  ⟨by decide, by omega, .inl le_rfl⟩

theorem carry_mul (place : ℤ) :
    ((2 ^ 52 : ℕ) : ℚ) * 2 ^ (place + 1) = ((2 ^ 53 : ℕ) : ℚ) * 2 ^ place := by
  rw [zpow_add_one₀ two_ne_zero]
  push_cast
  ring

/-- Counted in the last place, a number is canonical, after one more shift if it was rounded up to a
power of two. -/
theorem RoundsAt.canonical {place : ℤ} {count : ℕ} (h : RoundsAt v place count) :
    let shifted := shiftToTargetExponent .binary64 count place .exact
    Canonical shifted.1.mantissa shifted.2 ∧
      (shifted.1.mantissa : ℚ) * 2 ^ shifted.2 = count * 2 ^ place := by
  have hge := h.ge
  unfold shiftToTargetExponent shiftToExponent
  dsimp only
  rcases Nat.eq_or_lt_of_le h.count_le with rfl | hlt
  · have hshift : (Format.binary64.targetExponent (totalExponent (2 ^ 53) place) - place).toNat =
        1 := by
      rw [targetExponent_eq, totalExponent, Nat.log2_two_pow]
      omega
    rw [hshift]
    exact ⟨canonical_carry hge, carry_mul place⟩
  · have hlog : count.log2 + 1 ≤ 53 := by
      rcases Nat.eq_zero_or_pos count with rfl | hpos
      · decide
      · exact (Nat.log2_lt hpos.ne').mpr hlt
    have hshift : (Format.binary64.targetExponent (totalExponent count place) - place).toNat =
        0 := by
      rw [targetExponent_eq, totalExponent]
      omega
    rw [hshift, Nat.cast_zero, add_zero]
    exact ⟨h.canonical_of_lt hlt, rfl⟩

/-- A magnitude with a sign is as near as the magnitude itself. -/
theorem Nearest.factor_mul {r : ℚ} (h : Nearest v r) (s : Sign) :
    Nearest (factor s * v) (factor s * r : ℚ) := by
  intro d hd
  cases s with
  | negative =>
    have hopposite := h (-d) hd.neg
    rw [← abs_neg, ← abs_neg ((d : ℝ) - _)]
    simp only [factor]
    push_cast at hopposite ⊢
    ring_nf at hopposite ⊢
    exact hopposite
  | positive => simpa [factor] using h d hd

/-- The opposite of a number is rounded to the opposite. -/
theorem Nearest.neg {r : ℚ} (h : Nearest v r) : Nearest (-v) (-r : ℚ) := by
  simpa [factor] using h.factor_mul .negative

/-- Rounding by an accuracy gives what the number is rounded to. -/
theorem rounded_roundWithAccuracy (s : Sign) (h : Tells m (v / 2 ^ e) a) (hv : 0 ≤ v)
    (hbits : 2 ^ 52 ≤ m ∨ e ≤ -1074) :
    Rounded (factor s * v) (roundWithAccuracy .binary64 s m e a) := by
  have hrounds := roundsAt_of_tells h hbits
  obtain ⟨hcanonical, hvalue⟩ := hrounds.canonical
  unfold roundWithAccuracy
  dsimp only at hrounds hcanonical hvalue
  generalize shiftToTargetExponent .binary64 m e a = shifted at *
  obtain ⟨em, place⟩ := shifted
  dsimp only at hrounds hcanonical hvalue ⊢
  generalize shiftToTargetExponent .binary64 em.roundedMantissa place .exact = final at *
  obtain ⟨⟨mantissa, roundBit, stickyBit⟩, exponent⟩ := final
  dsimp only at hrounds hcanonical hvalue ⊢
  have hnearest : Nearest v (mantissa * 2 ^ exponent : ℚ) := by
    rw [hvalue]
    push_cast
    exact hrounds.nearest hv
  by_cases hzero : mantissa = 0
  · rw [dif_pos hzero]
    subst hzero
    exact ⟨trivial, 0, rfl, by simpa using hnearest.factor_mul s⟩
  · rw [dif_neg hzero]
    exact ⟨hcanonical, _, rfl, hnearest.factor_mul s⟩

/-- A significand in smaller units. -/
theorem shiftLeft_mul (m : ℕ) {e t : ℤ} (h : t ≤ e) :
    ((m <<< (e - t).toNat : ℕ) : ℝ) * 2 ^ t = m * 2 ^ e := by
  obtain ⟨n, hn⟩ := Int.eq_ofNat_of_zero_le (sub_nonneg.mpr h)
  obtain rfl : e = n + t := by omega
  rw [add_sub_cancel_right, Int.toNat_natCast, Nat.shiftLeft_eq, zpow_add₀ two_ne_zero,
    zpow_natCast]
  push_cast
  ring

/-- A significand of any size is rounded. -/
theorem rounded_round (s : Sign) (hm : 0 < m) :
    Rounded (factor s * (m * 2 ^ e)) (UnpackedFloat.round .binary64 s m e) := by
  unfold UnpackedFloat.round decreaseExponent
  dsimp only
  rw [targetExponent_eq, totalExponent]
  generalize htarget : max ((m.log2 : ℤ) + 1 + e - 53) (-1074) = target
  generalize hshift : (e - target).toNat = shift
  have hvalue := shiftLeft_mul m (show e - shift ≤ e by omega)
  rw [sub_sub_cancel, Int.toNat_natCast] at hvalue
  refine rounded_roundWithAccuracy s ?_ (by positivity) ?_
  · rw [← hvalue]
    exact mul_div_cancel_right₀ _ (zpow_pos two_pos _).ne'
  · -- Unless the last place is the least one, the shift makes up for the bits that lack.
    rcases le_or_gt (e - shift) (-1074) with hsub | hnormal
    · exact .inr hsub
    · left
      rw [Nat.shiftLeft_eq]
      calc 2 ^ 52 ≤ 2 ^ (m.log2 + shift) := Nat.pow_le_pow_right two_pos (by omega)
        _ = 2 ^ m.log2 * 2 ^ shift := pow_add ..
        _ ≤ m * 2 ^ shift := Nat.mul_le_mul_right _ (Nat.log2_self_le hm.ne')

/-- A canonical number is rounded to itself. -/
theorem rounded_self {u : UnpackedFloat} {q : ℚ} (h : IsCanonical u) (hu : valueOf u = some q) :
    Rounded q u :=
  ⟨h, q, hu, fun d _ => by rw [sub_self, abs_zero]; exact abs_nonneg _⟩

/-- A signed significand is rounded. -/
theorem rounded_normalize (n e : ℤ) (s : Sign) :
    Rounded (n * 2 ^ e) (UnpackedFloat.normalize .binary64 n e s) := by
  unfold UnpackedFloat.normalize
  split
  next hlt =>
    have hneg := compare_lt_iff_lt.mp hlt
    obtain ⟨k, hk⟩ := Int.eq_ofNat_of_zero_le (show 0 ≤ -n by omega)
    obtain rfl : n = -k := by omega
    have hrounded := @rounded_round k e .negative (by omega)
    rw [neg_neg, Int.toNat_natCast]
    simpa [factor] using hrounded
  next heq =>
    obtain rfl := compare_eq_iff_eq.mp heq
    simpa using @rounded_self (.zero s) 0 trivial rfl
  next hgt =>
    have hpos := compare_gt_iff_gt.mp hgt
    obtain ⟨k, hk⟩ := Int.eq_ofNat_of_zero_le (show 0 ≤ n by omega)
    obtain rfl : n = k := by omega
    have hrounded := @rounded_round k e .positive (by omega)
    rw [Int.toNat_natCast]
    simpa [factor] using hrounded

end Landscape.Number
