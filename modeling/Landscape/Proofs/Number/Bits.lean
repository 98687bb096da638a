import Mathlib.Algebra.Group.Nat.Defs
import Landscape.Number.Binary

/-!
# Doubles and their bits

A double that is no not-a-number is given by its 64 bits: a sign, eleven bits of exponent, and the
rest of the significand. Taking a double apart into sign, significand and exponent loses nothing.
-/

namespace Landscape.Number

open Float.Model

/-- Doubles with the same bits are the same. -/
theorem eq_of_toBits_eq {x y : Float} (h : x.toBits = y.toBits) : x = y := by
  obtain ⟨⟨bits, hbits⟩⟩ := x
  obtain ⟨⟨bits', hbits'⟩⟩ := y
  obtain rfl : bits = bits' := h
  rfl

/-- Bits in a row as a number. -/
theorem toNat_append {n m : Nat} (x : BitVec n) (y : BitVec m) :
    (x ++ y).toNat = x.toNat * 2 ^ m + y.toNat := by
  rw [BitVec.toNat_append, ← Nat.shiftLeft_add_eq_or_of_lt y.isLt, Nat.shiftLeft_eq]

/-- The first bit. -/
def signOf (b : BitVec 64) : BitVec 1 := @UnpackedFloat.unpackSign .binary64 b

/-- The eleven bits after the first. -/
def exponentOf (b : BitVec 64) : BitVec 11 := @UnpackedFloat.unpackExponent .binary64 b

/-- The other bits. -/
def mantissaOf (b : BitVec 64) : BitVec 52 := @UnpackedFloat.unpackMantissa .binary64 b

theorem toNat_exponentOf (b : BitVec 64) : (exponentOf b).toNat = b.toNat / 2 ^ 52 % 2 ^ 11 := by
  simp [exponentOf, UnpackedFloat.unpackExponent, Nat.shiftRight_eq_div_pow]

theorem toNat_mantissaOf (b : BitVec 64) : (mantissaOf b).toNat = b.toNat % 2 ^ 52 := by
  simp [mantissaOf, UnpackedFloat.unpackMantissa]

theorem toNat_signOf (b : BitVec 64) : (signOf b).toNat = b.toNat / 2 ^ 63 % 2 := by
  change (b.extractLsb' 63 1).toNat = _
  simp [Nat.shiftRight_eq_div_pow]

/-- The finite number of some bits, with a sign of its own. -/
def unpackWith (s : UnpackedFloat.Sign) (b : BitVec 64) : UnpackedFloat :=
  if exponentOf b = 0#_ then
    if h : mantissaOf b = 0#_ then .zero s
    else .finite s (mantissaOf b).toNat (-1074)
      (by simpa [BitVec.toNat_pos, BitVec.pos_iff_ne_zero])
  else .finite s (1#1 ++ mantissaOf b).toNat ((exponentOf b).toNat - 1075)
    (by rw [toNat_append]; exact Nat.add_pos_left (by decide) _)

/-- A finite number is unpacked with the sign that its first bit says. -/
theorem unpack_eq {b : BitVec 64} (h : exponentOf b ≠ -1#11) :
    UnpackedFloat.unpack .binary64 b =
      unpackWith (UnpackedFloat.Sign.ofBitVec (signOf b)) b := by
  change (if exponentOf b = -1#11 then _ else if exponentOf b = 0#11 then _ else _) = _
  rw [if_neg h]
  by_cases h0 : exponentOf b = 0#11
  · have hexponent : ((exponentOf b).toNat : Int) - (1023 + 52) + 1 = -1074 := by
      rw [h0]
      rfl
    rw [if_pos h0, unpackWith, if_pos h0]
    by_cases hz : mantissaOf b = 0#52
    · rw [dif_pos hz]
      exact dif_pos hz
    · rw [dif_neg hz]
      refine (dif_neg hz).trans ?_
      congr 1
  · rw [if_neg h0, unpackWith, if_neg h0]
    rfl

theorem neg_unpackWith (s : UnpackedFloat.Sign) (b : BitVec 64) :
    (unpackWith s b).neg = unpackWith (-s) b := by
  by_cases h0 : exponentOf b = 0#11
  · rw [unpackWith, unpackWith, if_pos h0, if_pos h0]
    by_cases hz : mantissaOf b = 0#52
    · rw [dif_pos hz, dif_pos hz]
      rfl
    · rw [dif_neg hz, dif_neg hz]
      rfl
  · rw [unpackWith, unpackWith, if_neg h0, if_neg h0]
    rfl

/-- A finite number is packed into the bits that it was unpacked from, but for the sign. -/
theorem pack_unpackWith {b : BitVec 64} (h : exponentOf b ≠ -1#11) (s : UnpackedFloat.Sign) :
    UnpackedFloat.pack .binary64 (unpackWith s b) =
      UnpackedFloat.packComponents .binary64 s (exponentOf b) (mantissaOf b) := by
  have hlt : (exponentOf b).toNat < 2047 := by
    have hall := (exponentOf b).isLt
    have hne : (exponentOf b).toNat ≠ 2047 := fun h' => h (BitVec.eq_of_toNat_eq h')
    omega
  have hm := (mantissaOf b).isLt
  by_cases h0 : exponentOf b = 0#11
  · rw [unpackWith, if_pos h0]
    by_cases hz : mantissaOf b = 0#52
    · rw [dif_pos hz, h0, hz]
      rfl
    · have hlog : (mantissaOf b).toNat.log2 + 1 ≠ Format.mantissaBits .binary64 := by
        have hpos : (mantissaOf b).toNat ≠ 0 := fun h' => hz (BitVec.eq_of_toNat_eq h')
        have := (Nat.log2_lt hpos).mpr hm
        change _ ≠ 53
        omega
      rw [dif_neg hz]
      unfold UnpackedFloat.pack
      dsimp only
      rw [if_neg (by decide), if_neg hlog, h0]
      congr 1
      exact BitVec.ofNat_toNat _ _
  · have hvalue : (1#1 ++ mantissaOf b).toNat = 2 ^ 52 + (mantissaOf b).toNat := by
      rw [toNat_append]
      rfl
    have hlog : (1#1 ++ mantissaOf b).toNat.log2 + 1 = Format.mantissaBits .binary64 := by
      rw [hvalue]
      have hle : 52 ≤ (2 ^ 52 + (mantissaOf b).toNat).log2 :=
        (Nat.le_log2 (by omega)).mpr (by omega)
      have hlt : (2 ^ 52 + (mantissaOf b).toNat).log2 < 53 :=
        (Nat.log2_lt (by omega)).mpr (by omega)
      change _ = 53
      omega
    have hbiased : (((exponentOf b).toNat - 1075 : Int) + (Format.binary64.exponentBias : Nat) +
        (Format.binary64.mantissaBitsWithoutImplicit : Nat)).toNat = (exponentOf b).toNat := by
      change (((exponentOf b).toNat - 1075 : Int) + 1023 + 52).toNat = _
      omega
    rw [unpackWith, if_neg h0]
    unfold UnpackedFloat.pack
    dsimp only
    rw [hbiased, if_neg (by omega), if_pos hlog, hvalue]
    congr 1
    · exact BitVec.ofNat_toNat _ _
    · apply BitVec.eq_of_toNat_eq
      change (2 ^ 52 + (mantissaOf b).toNat) % 2 ^ 52 = _
      omega

theorem toNat_packComponents (s : UnpackedFloat.Sign) (e : BitVec 11) (m : BitVec 52) :
    (UnpackedFloat.packComponents .binary64 s e m).toNat =
      s.toBitVec.toNat * 2 ^ 63 + e.toNat * 2 ^ 52 + m.toNat := by
  change ((s.toBitVec ++ e) ++ m).toNat = _
  rw [toNat_append, toNat_append]
  omega

/-- A finite number is packed into the bits that it was unpacked from. -/
theorem pack_unpack {b : BitVec 64} (h : exponentOf b ≠ -1#11) :
    UnpackedFloat.pack .binary64 (UnpackedFloat.unpack .binary64 b) = b := by
  rw [unpack_eq h, pack_unpackWith h]
  have hsign : (UnpackedFloat.Sign.ofBitVec (signOf b)).toBitVec = signOf b := by
    rcases (signOf b).eq_zero_or_eq_one with h | h <;> rw [h] <;> rfl
  apply BitVec.eq_of_toNat_eq
  rw [toNat_packComponents, hsign, toNat_signOf, toNat_exponentOf, toNat_mantissaOf]
  have := b.isLt
  omega

theorem exponentOf_ne {n : Nat} (h : n < 2047 * 2 ^ 52) :
    exponentOf (BitVec.ofNat 64 n) ≠ -1#11 := by
  intro heq
  have hn := congrArg BitVec.toNat heq
  rw [toNat_exponentOf, BitVec.toNat_ofNat] at hn
  change _ = 2047 at hn
  omega

/-- A double has the bits that it is made from. -/
theorem toNat_toBits_ofBits {n : Nat} (h : n < 2047 * 2 ^ 52) :
    (Float.ofBits (UInt64.ofNat n)).toBits.toNat = n := by
  change (UnpackedFloat.pack .binary64
    (UnpackedFloat.unpack .binary64 (BitVec.ofNat 64 n))).toNat = n
  rw [pack_unpack (exponentOf_ne h)]
  exact Nat.mod_eq_of_lt (by omega)

/-- The opposite of a double has the first bit as well. -/
theorem toNat_toBits_neg_ofBits {n : Nat} (h : n < 2047 * 2 ^ 52) :
    (-Float.ofBits (UInt64.ofNat n)).toBits.toNat = 2 ^ 63 + n := by
  change (UnpackedFloat.pack .binary64 (UnpackedFloat.unpack .binary64
    (UnpackedFloat.pack .binary64 (UnpackedFloat.unpack .binary64 (BitVec.ofNat 64 n)))).neg).toNat
      = _
  have hne := exponentOf_ne h
  have hsign : signOf (BitVec.ofNat 64 n) = 0#1 := by
    apply BitVec.eq_of_toNat_eq
    rw [toNat_signOf, BitVec.toNat_ofNat]
    change _ = 0
    omega
  rw [pack_unpack hne, unpack_eq hne, neg_unpackWith, pack_unpackWith hne, hsign,
    toNat_packComponents, toNat_exponentOf, toNat_mantissaOf, BitVec.toNat_ofNat]
  change 1 * 2 ^ 63 + _ + _ = _
  omega

/-- A significand and an exponent that make up a finite double in the one way there is. -/
structure IsDouble (significand : Nat) (exponent : Int) : Prop where
  lt : significand < 2 ^ 53
  ge : -1074 ≤ exponent
  le : exponent ≤ 971
  normal : 2 ^ 52 ≤ significand ∨ exponent = -1074

/-- The double that a significand and an exponent make up. -/
def double (significand : Nat) (exponent : Int) : Float :=
  Float.ofBits (UInt64.ofNat ((exponent + 1074).toNat * 2 ^ 52 + significand))

/-- A finite double is made up of its sign, significand and exponent. -/
theorem ofFloat_eq_finite {x : Float} {negative : Bool} {significand : Nat} {exponent : Int}
    (h : Binary.ofFloat x = .finite negative significand exponent) :
    IsDouble significand exponent ∧ x = signed negative (double significand exponent) := by
  have hlt := x.toBits.toNat_lt
  unfold Binary.ofFloat at h
  simp only [Nat.pow_eq] at h
  generalize hbits : x.toBits.toNat = bits at h hlt
  have hfield : bits / 2 ^ 52 % 2 ^ 11 ≠ 2047 := by
    intro hfield
    simp only [hfield, beq_self_eq_true, if_true] at h
    split at h <;> cases h
  have hparts : IsDouble significand exponent ∧ negative = (bits / 2 ^ 63 % 2 == 1) ∧
      (exponent + 1074).toNat * 2 ^ 52 + significand = bits % 2 ^ 63 := by
    simp only [beq_iff_eq, hfield, if_false] at h
    split at h
    next hzero =>
      obtain ⟨hnegative, rfl, rfl⟩ := Binary.finite.inj h
      exact ⟨⟨by omega, by omega, by omega, .inr rfl⟩, hnegative.symm, by omega⟩
    next hzero =>
      obtain ⟨hnegative, rfl, rfl⟩ := Binary.finite.inj h
      exact ⟨⟨by omega, by omega, by omega, .inl (by omega)⟩, hnegative.symm, by omega⟩
  obtain ⟨hdouble, hnegative, hvalue⟩ := hparts
  have hbound : bits % 2 ^ 63 < 2047 * 2 ^ 52 := by omega
  refine ⟨hdouble, eq_of_toBits_eq (UInt64.toNat_inj.mp ?_)⟩
  rw [hbits]
  unfold signed double
  rw [hvalue]
  split
  next hneg =>
    rw [hneg] at hnegative
    have := beq_iff_eq.mp hnegative.symm
    rw [toNat_toBits_neg_ofBits hbound]
    omega
  next hneg =>
    rw [Bool.eq_false_iff.mpr hneg] at hnegative
    have := beq_eq_false_iff_ne.mp hnegative.symm
    rw [toNat_toBits_ofBits hbound]
    omega

/-- An infinite double is made up of its sign. -/
theorem ofFloat_eq_infinite {x : Float} {negative : Bool}
    (h : Binary.ofFloat x = .infinite negative) : x = signed negative infinity := by
  have hlt := x.toBits.toNat_lt
  unfold Binary.ofFloat at h
  simp only [Nat.pow_eq] at h
  generalize hbits : x.toBits.toNat = bits at h hlt
  have hparts : bits % 2 ^ 63 = 2047 * 2 ^ 52 ∧ negative = (bits / 2 ^ 63 % 2 == 1) := by
    split at h
    next hfield =>
      rw [beq_iff_eq] at hfield
      split at h
      next hzero =>
        rw [beq_iff_eq] at hzero
        exact ⟨by omega, (Binary.infinite.inj h).symm⟩
      · cases h
    · split at h <;> cases h
  obtain ⟨hvalue, hnegative⟩ := hparts
  have hbits' : bits = (signed negative infinity).toBits.toNat := by
    cases negative with
    | true =>
      have := beq_iff_eq.mp hnegative.symm
      rw [show (signed true infinity).toBits.toNat = 2 ^ 63 + 2047 * 2 ^ 52 by decide +kernel]
      omega
    | false =>
      have := beq_eq_false_iff_ne.mp hnegative.symm
      rw [show (signed false infinity).toBits.toNat = 2047 * 2 ^ 52 by decide +kernel]
      omega
  exact eq_of_toBits_eq (UInt64.toNat_inj.mp (hbits.trans hbits'))

/-- There is one double that is not a number. -/
theorem ofFloat_eq_nan {x : Float} (h : Binary.ofFloat x = .nan) : x = notANumber := by
  have hparts : x.toBits.toNat / 2 ^ 52 % 2 ^ 11 = 2047 ∧ x.toBits.toNat % 2 ^ 52 ≠ 0 := by
    unfold Binary.ofFloat at h
    simp only [Nat.pow_eq] at h
    split at h
    next hfield =>
      split at h
      · cases h
      next hzero => exact ⟨beq_iff_eq.mp hfield, fun hz => hzero (beq_iff_eq.mpr hz)⟩
    · split at h <;> cases h
  obtain ⟨⟨bits, hvalid⟩⟩ := x
  have hexponent : exponentOf bits.toBitVec = -1#11 :=
    BitVec.eq_of_toNat_eq ((toNat_exponentOf _).trans hparts.1)
  have hmantissa : mantissaOf bits.toBitVec ≠ 0#52 := by
    intro hzero
    have hfraction := congrArg BitVec.toNat hzero
    rw [toNat_mantissaOf] at hfraction
    exact hparts.2 hfraction
  have hbits := hvalid.eq_packedNaN hexponent hmantissa
  refine eq_of_toBits_eq (UInt64.toBitVec_inj.mp ?_)
  exact hbits.trans (by decide +kernel)

end Landscape.Number
