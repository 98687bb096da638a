import Landscape.Proofs.Number.Rounding

/-!
# The range of doubles

An integer has no double if rounding takes it to a power of two that is beyond all of them. This
begins half a unit of the last place above the greatest double.
-/

namespace Landscape.Number

open Float.Model

/-- A double is finite unless all bits of its exponent are set. -/
theorem isFinite_of_toBits {x : Float} (h : x.toBits.toNat % 2 ^ 63 < 2047 * 2 ^ 52) :
    x.isFinite = true := by
  have hne : exponentOf x.toBits.toBitVec ≠ -1#11 := by
    intro heq
    have hn := congrArg BitVec.toNat heq
    rw [toNat_exponentOf] at hn
    change x.toBits.toNat / 2 ^ 52 % 2 ^ 11 = 2047 at hn
    omega
  change (UnpackedFloat.unpack .binary64 x.toBits.toBitVec).isFinite = true
  rw [unpack_eq hne, unpackWith]
  by_cases h0 : exponentOf x.toBits.toBitVec = 0#11
  · rw [if_pos h0]
    by_cases hz : mantissaOf x.toBits.toBitVec = 0#52
    · rw [dif_pos hz]
      rfl
    · rw [dif_neg hz]
      rfl
  · rw [if_neg h0]
    rfl

/-- A double below infinity is finite with either sign. -/
theorem isFinite_signed {bits : Nat} (h : bits < 2047 * 2 ^ 52) (negative : Bool) :
    (signed negative (Float.ofBits (UInt64.ofNat bits))).isFinite = true := by
  apply isFinite_of_toBits
  cases negative with
  | true =>
    rw [signed, if_pos rfl, toNat_toBits_neg_ofBits h]
    omega
  | false =>
    rw [signed, if_neg Bool.false_ne_true, toNat_toBits_ofBits h]
    omega

/-- Infinity is not finite. -/
theorem isFinite_signed_infinity (negative : Bool) :
    (signed negative infinity).isFinite = false := by
  cases negative with
  | true => decide +kernel
  | false => decide +kernel

/-- A quotient less than half a unit above a natural is rounded to no greater one. -/
theorem roundQuotient_le {num den s : Nat} (h : 2 * num < (2 * s + 1) * den) :
    roundQuotient num den ≤ s := by
  have hden : 0 < den := Nat.pos_of_ne_zero fun h0 => by simp [h0] at h
  have hlt := Nat.mod_lt num hden
  have hparts := Nat.div_add_mod num den
  unfold roundQuotient
  generalize num / den = q at *
  generalize num % den = m at *
  subst hparts
  have hqs : q ≤ s := by
    by_contra hcon
    have : den * (s + 1) ≤ den * q := Nat.mul_le_mul_left _ (by omega)
    nlinarith
  dsimp only
  rcases Nat.eq_or_lt_of_le hqs with rfl | hlt'
  · rw [if_pos (by nlinarith)]
  · split
    · omega
    · split
      · omega
      · omega

/-- A quotient no more than half a unit below an even natural is rounded to no smaller one. -/
theorem le_roundQuotient {num den s : Nat} (hden : 0 < den) (heven : s % 2 = 0)
    (h : 2 * s * den ≤ 2 * num + den) : s ≤ roundQuotient num den := by
  have hlt := Nat.mod_lt num hden
  have hparts := Nat.div_add_mod num den
  unfold roundQuotient
  generalize num / den = q at *
  generalize num % den = m at *
  subst hparts
  have hsq : s ≤ q + 1 := by
    by_contra hcon
    have : den * (q + 2) ≤ den * s := Nat.mul_le_mul_left _ (by omega)
    nlinarith
  dsimp only
  rcases Nat.eq_or_lt_of_le hsq with rfl | hlt'
  · rw [if_neg (by nlinarith)]
    split
    · rfl
    · omega
  · split
    · omega
    · split
      · omega
      · omega

/-- The least magnitude that has no double. -/
def leastOverflow : Nat := 2 ^ 1024 - 2 ^ 970

/-- It lies in the middle between the greatest double and the power of two after it. -/
theorem leastOverflow_eq : leastOverflow = (2 ^ 54 - 1) * 2 ^ 970 := by
  rw [leastOverflow, Nat.sub_mul, ← pow_add, one_mul]

/-- Counted in units of a place, an integer has the same size. -/
theorem two_mul_inUnits_lt_iff (num count : Nat) (place : Int) :
    2 * (inUnits num 1 place).1 < count * (inUnits num 1 place).2 ↔
      2 * (num : ℚ) < count * 2 ^ place := by
  have hunit : (0 : ℚ) < (inUnits num 1 place).2 := by exact_mod_cast inUnits_pos one_pos num place
  have hdiv := inUnits_div num 1 place
  rw [Nat.cast_one, div_one, div_eq_div_iff hunit.ne' (zpow_pos two_pos place).ne'] at hdiv
  have hplace : (0 : ℚ) < 2 ^ place := zpow_pos two_pos place
  rw [← Nat.cast_lt (α := ℚ), ← mul_lt_mul_iff_left₀ hplace,
    ← mul_lt_mul_iff_left₀ (b := 2 * (num : ℚ)) hunit]
  push_cast
  rw [mul_assoc, hdiv, ← mul_assoc, mul_right_comm _ _ ((2 : ℚ) ^ place)]

/-- A power of two counted in smaller ones. -/
theorem zpow_add_eq (place n : Nat) :
    (2 : ℚ) ^ (place + n : Int) = ((2 ^ n * 2 ^ place : Nat) : ℚ) := by
  rw [zpow_add_natCast, zpow_natCast]
  push_cast
  rfl

/-- The bits of an integer that is rounded at a place. -/
def bitsAt (num : Nat) (place : Int) : Nat :=
  (place + 1074).toNat * 2 ^ 52 + roundQuotient (inUnits num 1 place).1 (inUnits num 1 place).2

/-- Rounded below the last place of the greatest doubles, an integer has less bits than infinity. -/
theorem bitsAt_lt {num : Nat} {place : Int} (hbelow : (num : ℚ) < 2 ^ (place + 53))
    (hplace : place < 971) : bitsAt num place < 2047 * 2 ^ 52 := by
  have hround : roundQuotient (inUnits num 1 place).1 (inUnits num 1 place).2 ≤ 2 ^ 53 := by
    apply roundQuotient_le
    rw [two_mul_inUnits_lt_iff]
    have hpos := zpow_pos (two_pos (α := ℚ)) place
    rw [zpow_add₀ two_ne_zero] at hbelow
    push_cast
    norm_num at hbelow ⊢
    linarith
  unfold bitsAt
  omega

/-- Rounded above it, an integer has no less bits than infinity. -/
theorem le_bitsAt {num : Nat} {place : Int} (habove : (2 : ℚ) ^ (place + 52) ≤ num)
    (hplace : 971 < place) : 2047 * 2 ^ 52 ≤ bitsAt num place := by
  have hround : 2 ^ 52 ≤ roundQuotient (inUnits num 1 place).1 (inUnits num 1 place).2 := by
    apply le_roundQuotient (inUnits_pos one_pos num place) (by decide)
    have hmiddle := two_mul_inUnits_lt_iff num (2 ^ 53 - 1) place
    have hpos := zpow_pos (two_pos (α := ℚ)) place
    rw [zpow_add₀ two_ne_zero] at habove
    have hnot : ¬2 * (num : ℚ) < (2 ^ 53 - 1 : Nat) * 2 ^ place := by
      norm_num at habove ⊢
      linarith
    rw [← hmiddle] at hnot
    omega
  unfold bitsAt
  omega

/-- Rounded at it, an integer has less bits than infinity in the range of doubles. -/
theorem bitsAt_lt_iff (num : Nat) : bitsAt num 971 < 2047 * 2 ^ 52 ↔ num < leastOverflow := by
  have hunit := inUnits_pos one_pos num 971
  have hcount := two_mul_inUnits_lt_iff num (2 ^ 54 - 1) 971
  have hscale : (2 : ℚ) ^ (971 : Int) = ((2 ^ 1 * 2 ^ 970 : Nat) : ℚ) := zpow_add_eq 970 1
  unfold bitsAt
  rw [leastOverflow_eq]
  generalize 2 ^ 970 = u at hscale ⊢
  rw [pow_one, Nat.cast_mul, Nat.cast_ofNat] at hscale
  have hmiddle : 2 * (inUnits num 1 971).1 < (2 ^ 54 - 1) * (inUnits num 1 971).2 ↔
      num < (2 ^ 54 - 1) * u := by
    rw [hcount, hscale, mul_left_comm, mul_lt_mul_iff_right₀ two_pos]
    exact_mod_cast Iff.rfl
  generalize (inUnits num 1 971).1 = a at *
  generalize (inUnits num 1 971).2 = b at *
  constructor
  · intro h
    by_contra hcon
    have hround : 2 ^ 53 ≤ roundQuotient a b := le_roundQuotient hunit (by decide) (by omega)
    omega
  · intro h
    have hround : roundQuotient a b ≤ 2 ^ 53 - 1 := roundQuotient_le (by omega)
    omega

/-- The bits of the double nearest to an integer are less than those of infinity in the range of
doubles. Below and above the last place of the greatest doubles there is no doubt about it. -/
theorem bitsAt_lastPlace_lt_iff {num : Nat} (hnum : 0 < num) :
    bitsAt num (lastPlace num 1) < 2047 * 2 ^ 52 ↔ num < leastOverflow := by
  obtain ⟨-, hbelow, habove⟩ := lastPlace_spec hnum one_pos
  rw [Nat.cast_one, div_one] at hbelow habove
  generalize lastPlace num 1 = place at *
  have hmono {a b : Int} (h : a ≤ b) : (2 : ℚ) ^ a ≤ 2 ^ b := zpow_le_zpow_right₀ one_le_two h
  rcases lt_trichotomy place 971 with hlt | rfl | hgt
  · rw [iff_true_left (bitsAt_lt hbelow hlt), leastOverflow_eq]
    have hsmall := hbelow.trans_le (hmono (b := (970 : Nat) + (53 : Nat)) (by omega))
    rw [zpow_add_eq] at hsmall
    generalize 2 ^ 970 = u at hsmall ⊢
    have : num < 2 ^ 53 * u := by exact_mod_cast hsmall
    omega
  · exact bitsAt_lt_iff num
  · have habove := habove.resolve_left (by omega)
    rw [iff_false_left (Nat.not_lt.mpr (le_bitsAt habove hgt)), leastOverflow_eq]
    have hlarge := (hmono (a := (970 : Nat) + (54 : Nat)) (by omega)).trans habove
    rw [zpow_add_eq] at hlarge
    generalize 2 ^ 970 = u at hlarge ⊢
    have : 2 ^ 54 * u ≤ num := by exact_mod_cast hlarge
    omega

/-- The double nearest to an integer is finite in the range of doubles. -/
theorem isFinite_ofInt (n : Int) : (ofInt n).isFinite = true ↔ n.natAbs < leastOverflow := by
  unfold ofInt nearest
  split
  next hzero =>
    have hzero : n.natAbs = 0 := by simpa using hzero
    have hpos : 0 < leastOverflow := by
      rw [leastOverflow_eq]
      positivity
    rw [hzero, iff_true_right hpos]
    exact isFinite_signed (show 0 < 2047 * 2 ^ 52 by decide) _
  next hne =>
    have hpos : 0 < n.natAbs := by simpa [Nat.pos_iff_ne_zero] using hne
    rw [← bitsAt_lastPlace_lt_iff hpos, bitsAt]
    simp only [Nat.pow_eq]
    split
    next hle =>
      rw [isFinite_signed_infinity]
      simp only [Bool.false_eq_true, false_iff, not_lt]
      exact hle
    next hlt =>
      rw [iff_true_right (show _ < 2047 * 2 ^ 52 from Nat.not_le.mp hlt)]
      exact isFinite_signed (Nat.not_le.mp hlt) _

/-- An integer has no double where its magnitude is too large for one. -/
theorem ofInt?_eq_none_iff {n : Int} : ofInt? n = none ↔ leastOverflow ≤ n.natAbs := by
  rw [← Nat.not_lt, ← isFinite_ofInt, ofInt?]
  simp

end Landscape.Number
