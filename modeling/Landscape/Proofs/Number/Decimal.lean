import Landscape.Number.Reading
import Landscape.Proofs.Number.Shortest

/-!
# Decimal digits are read as the double they round to

The value of some digits is at least that of the first one that is not zero, so that digits which
round to a double have neither too many places nor too few to be read exactly.
-/

namespace Landscape.Number

/-- The values of decimal digits. -/
def digitsOf (cs : List Char) : List Nat := cs.map fun c => c.toNat - '0'.toNat

/-- Reading digits one by one gives what they spell. -/
theorem ofDigits_digitsOf (cs : List Char) : ofDigits (digitsOf cs) = Nat.ofDigitChars 10 cs 0 := by
  rw [ofDigits, digitsOf, List.foldl_map, Nat.ofDigitChars_eq_foldl]

/-- Digits after a number move it up. -/
theorem foldl_digits (n : Nat) (ds : List Nat) :
    ds.foldl (fun n d => 10 * n + d) n = n * 10 ^ ds.length + ofDigits ds := by
  induction ds generalizing n with
  | nil => simp [ofDigits]
  | cons d ds ih =>
    have hzero := ih d
    rw [ofDigits, List.foldl_cons, ih, List.foldl_cons, Nat.mul_zero, Nat.zero_add, hzero,
      List.length_cons]
    ring

theorem ofDigits_cons (d : Nat) (ds : List Nat) :
    ofDigits (d :: ds) = d * 10 ^ ds.length + ofDigits ds := by
  rw [ofDigits, List.foldl_cons, Nat.mul_zero, Nat.zero_add, foldl_digits]

theorem ofDigits_append (ds es : List Nat) :
    ofDigits (ds ++ es) = ofDigits ds * 10 ^ es.length + ofDigits es := by
  rw [ofDigits, List.foldl_append, foldl_digits]
  rfl

/-- Digits stand for less than the power of ten with one more digit. -/
theorem ofDigits_lt (ds : List Nat) (h : ∀ d ∈ ds, d < 10) : ofDigits ds < 10 ^ ds.length := by
  induction ds with
  | nil => decide
  | cons d ds ih =>
    obtain ⟨hd, hds⟩ := List.forall_mem_cons.mp h
    have hlt := ih hds
    rw [ofDigits_cons, List.length_cons, Nat.pow_succ]
    have : d * 10 ^ ds.length ≤ 9 * 10 ^ ds.length := Nat.mul_le_mul_right _ (by omega)
    omega

/-- Zeros at the beginning make no difference. -/
theorem ofDigits_dropWhile (ds : List Nat) : ofDigits (ds.dropWhile (· == 0)) = ofDigits ds := by
  induction ds with
  | nil => rfl
  | cons d ds ih =>
    by_cases hd : d = 0
    · simp [hd, ih, ofDigits_cons]
    · simp [hd]

/-- Digits stand for at least the power of ten with as many digits as count. -/
theorem ofDigits_ge (ds : List Nat) (h : ds.dropWhile (· == 0) ≠ []) :
    10 ^ ((ds.dropWhile (· == 0)).length - 1) ≤ ofDigits ds := by
  rw [← ofDigits_dropWhile]
  have hhead := List.head_dropWhile_not (· == 0) h
  cases hds : ds.dropWhile (· == 0) with
  | nil => exact absurd hds h
  | cons d es =>
    simp only [hds, List.head_cons, beq_eq_false_iff_ne] at hhead
    rw [ofDigits_cons, List.length_cons, Nat.add_sub_cancel]
    have : 1 * 10 ^ es.length ≤ d * 10 ^ es.length := Nat.mul_le_mul_right _ (by omega)
    omega

variable {significand : Nat} {exponent : Int}

/-- What rounds to a double is neither too small nor too great. -/
theorem RoundsTo.bounds {q : ℚ} (h : RoundsTo q significand exponent)
    (hdouble : IsDouble significand exponent) (hpos : 0 < significand) :
    (2 : ℚ) ^ (-1075 : Int) ≤ q ∧ q < 2 ^ (1024 : Int) := by
  have hulp : (0 : ℚ) < 2 ^ exponent := zpow_pos two_pos exponent
  have hreach := reach_le significand exponent
  have hone : (1 : ℚ) ≤ significand := by exact_mod_cast hpos
  have hlt : (significand : ℚ) + 1 ≤ 2 ^ 53 := by exact_mod_cast hdouble.lt
  constructor
  · have hleast : (2 : ℚ) ^ (-1074 : Int) ≤ 2 ^ exponent :=
      zpow_le_zpow_right₀ one_le_two hdouble.ge
    have hhalf : (2 : ℚ) ^ (-1075 : Int) = 1 / 2 * 2 ^ (-1074 : Int) := by
      rw [show (-1075 : Int) = -1 + -1074 by rfl, zpow_add₀ two_ne_zero]
      norm_num
    have hge := h.ge
    rw [hhalf]
    nlinarith
  · have hgreatest : (2 : ℚ) ^ exponent ≤ 2 ^ (971 : Int) :=
      zpow_le_zpow_right₀ one_le_two hdouble.le
    have hscale : (2 : ℚ) ^ (1024 : Int) = 2 ^ 53 * 2 ^ (971 : Int) := zpow_add_natCast 971 53
    have hle := h.le
    rw [hscale]
    generalize (2 : ℚ) ^ (971 : Int) = greatest at hgreatest ⊢
    calc q ≤ (significand + 1 / 2) * 2 ^ exponent := hle
      _ < 2 ^ 53 * 2 ^ exponent := by
        gcongr
        linarith
      _ ≤ 2 ^ 53 * greatest := by gcongr

/-- A magnitude in the range of doubles takes a size that is computed and not settled beforehand. -/
theorem size_bounds {n size : Nat} {place : Int} (hlt : n < 10 ^ size)
    (hge : 10 ^ (size - 1) ≤ n) (hlow : (2 : ℚ) ^ (-1075 : Int) ≤ n * 10 ^ place)
    (hhigh : (n : ℚ) * 10 ^ place < 2 ^ (1024 : Int)) :
    -400 ≤ (size : Int) + place ∧ (size : Int) + place ≤ 400 := by
  have hpower : (0 : ℚ) < 10 ^ place := zpow_pos (by norm_num) place
  have hten {a b : Int} (h : (10 : ℚ) ^ a < 10 ^ b) : a < b :=
    (zpow_lt_zpow_iff_right₀ (by norm_num)).mp h
  have hscale (k : Nat) : (10 : ℚ) ^ (k + place) = (10 ^ k : Nat) * 10 ^ place := by
    rw [zpow_add₀ (by norm_num), zpow_natCast, Nat.cast_pow, Nat.cast_ofNat]
  constructor
  · have hsmall : (10 : ℚ) ^ (-401 : Int) < 2 ^ (-1075 : Int) := by
      have hpowers : (2 : Nat) ^ 1075 < 10 ^ 401 := by decide +kernel
      rw [zpow_neg, zpow_neg, inv_lt_inv₀ (by positivity) (by positivity), zpow_ofNat, zpow_ofNat]
      exact_mod_cast hpowers
    have hover : (n : ℚ) * 10 ^ place < 10 ^ (size + place) := by
      rw [hscale]
      gcongr
    have := hten (hsmall.trans_le (hlow.trans hover.le))
    omega
  · have hgreat : (2 : ℚ) ^ (1024 : Int) < 10 ^ (400 : Int) := by
      have hpowers : (2 : Nat) ^ 1024 < 10 ^ 400 := by decide +kernel
      rw [zpow_ofNat, zpow_ofNat]
      exact_mod_cast hpowers
    have hunder : (10 : ℚ) ^ (((size - 1 : Nat) : Int) + place) ≤ n * 10 ^ place := by
      rw [hscale]
      gcongr
    have := hten ((hunder.trans_lt hhigh).trans hgreat)
    omega

/-- Digits that round to a double are read as it. -/
theorem ofDecimal_eq {ds : List Nat} {place : Int} (hdigits : ∀ d ∈ ds, d < 10)
    (hdouble : IsDouble significand exponent) (hpos : 0 < significand)
    (h : RoundsTo (ofDigits ds * 10 ^ place) significand exponent) :
    ofDecimal ds place = double significand exponent := by
  obtain ⟨hlow, hhigh⟩ := h.bounds hdouble hpos
  have hdrop := ofDigits_dropWhile ds
  have hge := ofDigits_ge ds
  have hlt := ofDigits_lt (ds.dropWhile (· == 0)) fun d hd =>
    hdigits d ((List.dropWhile_sublist _).subset hd)
  unfold ofDecimal
  simp only [Nat.pow_eq]
  generalize ds.dropWhile (· == 0) = significant at *
  rw [← hdrop] at h hlow hhigh hge
  have hvalue : 0 < ofDigits significant := by
    rw [Nat.pos_iff_ne_zero]
    intro hzero
    rw [hzero, Nat.cast_zero, zero_mul] at hlow
    exact absurd hlow (not_le.mpr (zpow_pos two_pos _))
  have hne : significant ≠ [] := by
    rintro rfl
    exact absurd hvalue (Nat.lt_irrefl 0)
  have hsize := size_bounds hlt (hge hne) hlow hhigh
  rw [if_neg, if_neg]
  · have hnum : 0 < ofDigits significant * 10 ^ place.toNat :=
      Nat.mul_pos hvalue (Nat.pow_pos (by decide))
    refine nearest_eq hnum (Nat.pow_pos (by decide)) hdouble ?_
    have htens := zpow_toNat_div 10 place
    rw [Nat.cast_ofNat] at htens
    rw [Nat.cast_mul, mul_div_assoc, htens]
    exact h
  · omega
  · simp [hne, hsize.1]

end Landscape.Number
