import Landscape.Proofs.Number.Rounding

/-!
# The values of doubles

A double that is neither infinite nor a not-a-number has an exact value, a significand of 53 bits at
most times a power of two. Unpacking it gives this value, and packing keeps it up to the greatest
double.
-/

namespace Landscape.Number

open Float.Model Float.Model.UnpackedFloat

/-- The factor of a sign. -/
def factor : Sign → ℚ
  | .negative => -1
  | .positive => 1

/-- The value of an unpacked number, if it has one. -/
def valueOf : UnpackedFloat → Option ℚ
  | .finite s m e _ => some (factor s * (m * 2 ^ e))
  | .zero _ => some 0
  | .infinity _ | .notANumber => none

/-- The value of a number is its significand times a power of two, with its sign. -/
theorem valueOf_finite {s : Sign} {m : ℕ} {e : ℤ} {h : 0 < m} :
    valueOf (.finite s m e h) = some (factor s * (m * 2 ^ e)) := rfl

/-- A rational that some double stands for. -/
def IsExact (d : ℚ) : Prop :=
  ∃ (significand : ℕ) (exponent : ℤ),
    significand < 2 ^ 53 ∧ -1074 ≤ exponent ∧ exponent ≤ 971 ∧ |d| = significand * 2 ^ exponent

variable {d q : ℚ} {x y : Float} {u : UnpackedFloat}

theorem IsExact.neg (h : IsExact d) : IsExact (-d) := by
  obtain ⟨significand, exponent, hlt, hge, hle, hd⟩ := h
  exact ⟨significand, exponent, hlt, hge, hle, by rw [abs_neg, hd]⟩

theorem IsExact.abs (h : IsExact d) : IsExact |d| := by
  obtain ⟨significand, exponent, hlt, hge, hle, hd⟩ := h
  exact ⟨significand, exponent, hlt, hge, hle, by rw [abs_abs, hd]⟩

/-- Exact numbers lie within the range of doubles. -/
theorem IsExact.abs_lt (h : IsExact d) : |d| < 2 ^ (1024 : ℤ) := by
  obtain ⟨significand, exponent, hlt, -, hle, hd⟩ := h
  have hsignificand : (significand : ℚ) < 2 ^ 53 := by exact_mod_cast hlt
  have hscale : (2 : ℚ) ^ (1024 : ℤ) = 2 ^ 53 * 2 ^ (971 : ℤ) := zpow_add_natCast 971 53
  have hunit : (2 : ℚ) ^ exponent ≤ 2 ^ (971 : ℤ) := zpow_le_zpow_right₀ one_le_two hle
  rw [hd, hscale]
  exact mul_lt_mul hsignificand hunit (zpow_pos two_pos exponent) (by positivity)

theorem isExact_zero : IsExact 0 := ⟨0, 0, by decide, by decide, by decide, by simp⟩

/-- Powers of two are exact in the whole range of doubles. -/
theorem isExact_zpow {e : ℤ} (hge : -1074 ≤ e) (hle : e ≤ 1023) : IsExact (2 ^ e) := by
  have habs : |(2 : ℚ) ^ e| = 2 ^ e := abs_of_pos (zpow_pos two_pos e)
  rcases le_or_gt e 971 with h | h
  · exact ⟨1, e, by decide, hge, h, by rw [habs]; simp⟩
  · obtain ⟨n, hn⟩ := Int.eq_ofNat_of_zero_le (show 0 ≤ e - 971 by omega)
    obtain rfl : e = 971 + n := by omega
    refine ⟨2 ^ n, 971, ?_, by decide, le_rfl, ?_⟩
    · exact Nat.pow_lt_pow_right (by decide) (by omega)
    · rw [habs, zpow_add_natCast, Nat.cast_pow, Nat.cast_ofNat]

/-- What bits are unpacked to is within the range of doubles. -/
theorem isDouble_of_unpack {b : BitVec 64} {s : Sign} {m : ℕ} {e : ℤ} {h : 0 < m}
    (hb : UnpackedFloat.unpack .binary64 b = .finite s m e h) : IsDouble m e := by
  by_cases hall : exponentOf b = -1#11
  · exfalso
    change (if exponentOf b = -1#11 then _ else _) = _ at hb
    rw [if_pos hall] at hb
    by_cases hz : mantissaOf b = 0#52
    · cases (if_pos hz).symm.trans hb
    · cases (if_neg hz).symm.trans hb
  rw [unpack_eq hall, unpackWith] at hb
  have hm := (mantissaOf b).isLt
  have hlt : (exponentOf b).toNat < 2047 := by
    have := (exponentOf b).isLt
    have hne : (exponentOf b).toNat ≠ 2047 := fun h' => hall (BitVec.eq_of_toNat_eq h')
    omega
  by_cases h0 : exponentOf b = 0#11
  · rw [if_pos h0] at hb
    by_cases hz : mantissaOf b = 0#52
    · rw [dif_pos hz] at hb
      cases hb
    · rw [dif_neg hz] at hb
      obtain ⟨-, rfl, rfl⟩ := UnpackedFloat.finite.inj hb
      exact ⟨by omega, by omega, by omega, .inr rfl⟩
  · rw [if_neg h0] at hb
    have hne : (exponentOf b).toNat ≠ 0 := fun h' => h0 (BitVec.eq_of_toNat_eq h')
    obtain ⟨-, rfl, rfl⟩ := UnpackedFloat.finite.inj hb
    rw [toNat_append]
    change IsDouble (1 * 2 ^ 52 + (mantissaOf b).toNat) _
    exact ⟨by omega, by omega, by omega, .inl (by omega)⟩

/-- A significand and an exponent as one rational. -/
theorem mkRat_scaled (significand : ℕ) (exponent : ℤ) :
    mkRat (scaled significand exponent).1 (scaled significand exponent).2 =
      significand * 2 ^ exponent := by
  have hpower := zpow_toNat_div 2 exponent
  rw [Nat.cast_ofNat] at hpower
  rw [Rat.mkRat_eq_div, scaled, ← hpower]
  push_cast
  simp only [Nat.pow_eq, Nat.cast_pow, Nat.cast_ofNat]
  ring

/-- A double is made up of its significand and exponent exactly. -/
theorem toRat?_double {significand : ℕ} {exponent : ℤ} (h : IsDouble significand exponent) :
    toRat? (double significand exponent) = some (significand * 2 ^ exponent : ℚ) := by
  obtain ⟨hlt, hge, hle, hnormal⟩ := h
  have hbits : (double significand exponent).toBits.toNat =
      (exponent + 1074).toNat * 2 ^ 52 + significand := by
    rw [double]
    exact toNat_toBits_ofBits (by omega)
  have hparts : Binary.ofFloat (double significand exponent) =
      .finite false significand exponent := by
    unfold Binary.ofFloat
    simp only [Nat.pow_eq]
    generalize (double significand exponent).toBits.toNat = bits at hbits
    have hsign : ¬bits / 2 ^ 63 % 2 = 1 := by omega
    have hfinite : ¬bits / 2 ^ 52 % 2 ^ 11 = 2047 := by omega
    simp only [beq_iff_eq, hfinite, if_false]
    split
    next hzero =>
      obtain rfl : exponent = -1074 := by omega
      rw [beq_false_of_ne hsign, show bits % 2 ^ 52 = significand by omega]
    next hne =>
      have hnormal : 2 ^ 52 ≤ significand := by omega
      rw [beq_false_of_ne hsign, show 2 ^ 52 + bits % 2 ^ 52 = significand by omega,
        show ((bits / 2 ^ 52 % 2 ^ 11 : ℕ) : ℤ) - 1075 = exponent by omega]
  rw [toRat?, hparts, ← mkRat_scaled]
  rfl

/-- The exact value of a double is that of what it is unpacked to. -/
theorem toRat?_eq (x : Float) : toRat? x = valueOf x.toModel.unpack := by
  have hunpack : x.toModel.unpack = UnpackedFloat.unpack .binary64 x.toBits.toBitVec := rfl
  have hbits : x.toBits.toNat = x.toBits.toBitVec.toNat := rfl
  rw [hunpack, toRat?, Binary.ofFloat, hbits]
  generalize x.toBits.toBitVec = b
  have hfield := toNat_exponentOf b
  have hfraction := toNat_mantissaOf b
  have hsign := toNat_signOf b
  simp only [Nat.pow_eq, ← hfield, ← hfraction, ← hsign]
  have hfactor (q : ℚ) : (if (signOf b).toNat = 1 then -q else q) =
      factor (Sign.ofBitVec (signOf b)) * q := by
    rcases (signOf b).eq_zero_or_eq_one with h | h <;> simp [h, Sign.ofBitVec, factor]
  by_cases hall : exponentOf b = -1#11
  · have hinfinite : UnpackedFloat.unpack .binary64 b =
        if mantissaOf b = 0#52 then .infinity (Sign.ofBitVec (signOf b)) else .notANumber :=
      if_pos hall
    have h2047 : (exponentOf b).toNat = 2047 := congrArg BitVec.toNat hall
    rw [hinfinite, h2047]
    by_cases hz : mantissaOf b = 0#52
    · rw [if_pos hz]
      change _ = none
      simp [hz]
    · have hz' : (mantissaOf b).toNat ≠ 0 := fun h' => hz (BitVec.eq_of_toNat_eq h')
      rw [if_neg hz]
      change _ = none
      simp [hz']
  have hne : (exponentOf b).toNat ≠ 2047 := fun h' => hall (BitVec.eq_of_toNat_eq h')
  rw [unpack_eq hall, unpackWith]
  by_cases h0 : exponentOf b = 0#11
  · have h0' : (exponentOf b).toNat = 0 := congrArg BitVec.toNat h0
    rw [if_pos h0]
    by_cases hz : mantissaOf b = 0#52
    · rw [dif_pos hz]
      change _ = some 0
      simp [h0', hz, mkRat_scaled]
    · rw [dif_neg hz, valueOf_finite]
      simpa [h0', mkRat_scaled] using hfactor _
  · have h0' : (exponentOf b).toNat ≠ 0 := fun h' => h0 (BitVec.eq_of_toNat_eq h')
    have hleading : (1#1 ++ mantissaOf b).toNat = 2 ^ 52 + (mantissaOf b).toNat := toNat_append ..
    rw [if_neg h0, valueOf_finite, hleading]
    simpa [hne, h0', mkRat_scaled] using hfactor _

/-- The magnitude of a signed number. -/
theorem abs_factor_mul (s : Sign) {q : ℚ} (hq : 0 ≤ q) : |factor s * q| = q := by
  cases s with
  | negative => rw [factor, neg_one_mul, abs_neg, abs_of_nonneg hq]
  | positive => rw [factor, one_mul, abs_of_nonneg hq]

/-- The value of a double is exact. -/
theorem isExact_of_toRat? (h : toRat? x = some q) : IsExact q := by
  rw [toRat?_eq] at h
  cases hunpack : x.toModel.unpack with
  | notANumber => rw [hunpack] at h; cases h
  | infinity s => rw [hunpack] at h; cases h
  | zero s =>
    rw [hunpack] at h
    exact Option.some.inj h ▸ isExact_zero
  | finite s m e hm =>
    rw [hunpack] at h
    obtain ⟨hlt, hge, hle, -⟩ := isDouble_of_unpack hunpack
    refine ⟨m, e, hlt, hge, hle, ?_⟩
    rw [← Option.some.inj h]
    exact abs_factor_mul s (mul_nonneg (Nat.cast_nonneg m) (zpow_pos two_pos e).le)

/-- A double is finite exactly if it has a value. -/
theorem isFinite_iff : x.isFinite = true ↔ ∃ q, toRat? x = some q := by
  have hfinite : x.isFinite = x.toModel.unpack.isFinite := rfl
  rw [hfinite, toRat?_eq]
  cases x.toModel.unpack with
  | notANumber => exact ⟨Bool.noConfusion, fun ⟨_, h⟩ => nomatch h⟩
  | infinity s => exact ⟨Bool.noConfusion, fun ⟨_, h⟩ => nomatch h⟩
  | zero s => exact ⟨fun _ => ⟨_, rfl⟩, fun _ => rfl⟩
  | finite s m e hm => exact ⟨fun _ => ⟨_, rfl⟩, fun _ => rfl⟩

/-- A significand and an exponent as a double has them, but for the greatest exponent. -/
structure Canonical (significand : ℕ) (exponent : ℤ) : Prop where
  lt : significand < 2 ^ 53
  ge : -1074 ≤ exponent
  normal : 2 ^ 52 ≤ significand ∨ exponent = -1074

/-- Canonical numbers within the range of doubles have exponents within theirs. -/
theorem Canonical.le {m : ℕ} {e : ℤ} (h : Canonical m e)
    (hlt : (m : ℚ) * 2 ^ e < 2 ^ (1024 : ℤ)) : e ≤ 971 := by
  by_contra hgt
  have hnormal : (2 : ℚ) ^ 52 ≤ m := by exact_mod_cast h.normal.resolve_right (by omega)
  have hscale : (2 : ℚ) ^ (1024 : ℤ) = 2 ^ 52 * 2 ^ (972 : ℤ) := zpow_add_natCast 972 52
  have hunit : (2 : ℚ) ^ (972 : ℤ) ≤ 2 ^ e := zpow_le_zpow_right₀ one_le_two (by omega)
  rw [hscale] at hlt
  exact absurd hlt (not_lt.mpr (mul_le_mul hnormal hunit (by positivity) (by positivity)))

/-- An unpacked number that is rounded, without regard to the greatest double. -/
def IsCanonical : UnpackedFloat → Prop
  | .finite _ m e _ => Canonical m e
  | .infinity _ | .zero _ | .notANumber => True

/-- What a double is unpacked to is canonical. -/
theorem isCanonical_unpack (x : Float) : IsCanonical x.toModel.unpack := by
  cases hunpack : x.toModel.unpack with
  | finite s m e hm =>
    obtain ⟨hlt, hge, -, hnormal⟩ := isDouble_of_unpack hunpack
    exact ⟨hlt, hge, hnormal⟩
  | _ => exact trivial

section Components

variable (s : Sign) (exponent : BitVec 11) (mantissa : BitVec 52)

theorem exponentOf_packComponents :
    exponentOf (UnpackedFloat.packComponents .binary64 s exponent mantissa) = exponent :=
  unpackExponent_packComponents

theorem mantissaOf_packComponents :
    mantissaOf (UnpackedFloat.packComponents .binary64 s exponent mantissa) = mantissa :=
  unpackMantissa_packComponents

/-- Packed parts are unpacked with their sign. -/
theorem unpack_packComponents (h : exponent ≠ -1#11) :
    UnpackedFloat.unpack .binary64 (UnpackedFloat.packComponents .binary64 s exponent mantissa) =
      unpackWith s (UnpackedFloat.packComponents .binary64 s exponent mantissa) := by
  have hexponent := exponentOf_packComponents s exponent mantissa
  have hbits := toNat_packComponents s exponent mantissa
  generalize UnpackedFloat.packComponents .binary64 s exponent mantissa = b at hexponent hbits ⊢
  have hsign : signOf b = s.toBitVec := by
    apply BitVec.eq_of_toNat_eq
    have := s.toBitVec.isLt
    have := exponent.isLt
    have := mantissa.isLt
    rw [toNat_signOf, hbits]
    omega
  have hback : Sign.ofBitVec (signOf b) = s := by
    rw [hsign]
    cases s <;> rfl
  rw [unpack_eq (hexponent ▸ h), hback]

/-- Packed parts of a normal number are unpacked. -/
theorem unpack_normal (h : exponent ≠ -1#11) (h0 : exponent ≠ 0#11) :
    UnpackedFloat.unpack .binary64 (UnpackedFloat.packComponents .binary64 s exponent mantissa) =
      .finite s (2 ^ 52 + mantissa.toNat) (exponent.toNat - 1075) (by omega) := by
  have hexponent := exponentOf_packComponents s exponent mantissa
  have hmantissa := mantissaOf_packComponents s exponent mantissa
  have hunpack := unpack_packComponents s exponent mantissa h
  generalize UnpackedFloat.packComponents .binary64 s exponent mantissa = b at *
  rw [hunpack, unpackWith, if_neg (hexponent ▸ h0)]
  rw [UnpackedFloat.finite.injEq, hexponent, hmantissa, toNat_append]
  exact ⟨rfl, rfl, rfl⟩

/-- Packed parts of a subnormal number are unpacked. -/
theorem unpack_subnormal (h : mantissa ≠ 0#52) :
    UnpackedFloat.unpack .binary64 (UnpackedFloat.packComponents .binary64 s 0#11 mantissa) =
      .finite s mantissa.toNat (-1074)
        (Nat.pos_of_ne_zero fun h0 => h (BitVec.eq_of_toNat_eq h0)) := by
  have hexponent := exponentOf_packComponents s 0#11 mantissa
  have hmantissa := mantissaOf_packComponents s 0#11 mantissa
  have hunpack := unpack_packComponents s 0#11 mantissa (by decide)
  generalize UnpackedFloat.packComponents .binary64 s 0#11 mantissa = b at *
  rw [hunpack, unpackWith, if_pos hexponent, dif_neg (hmantissa ▸ h), UnpackedFloat.finite.injEq]
  exact ⟨rfl, congrArg BitVec.toNat hmantissa, rfl⟩

/-- Packed infinities are unpacked. -/
theorem unpack_packedInfinity :
    UnpackedFloat.unpack .binary64 (UnpackedFloat.packedInfinity .binary64 s) = .infinity s := by
  cases s <;> rfl

end Components

/-- What has a sign of its own is a number. -/
theorem unpackWith_ne_nan (s : Sign) (b : BitVec 64) : unpackWith s b ≠ .notANumber := by
  rw [unpackWith]
  by_cases h0 : exponentOf b = 0#11
  · rw [if_pos h0]
    by_cases hz : mantissaOf b = 0#52
    · rw [dif_pos hz]
      exact UnpackedFloat.noConfusion
    · rw [dif_neg hz]
      exact UnpackedFloat.noConfusion
  · rw [if_neg h0]
    exact UnpackedFloat.noConfusion

/-- A number is packed as infinity if its exponent is too great, else with its significand. -/
theorem pack_finite {s : Sign} {m : ℕ} {e : ℤ} {hm : 0 < m} :
    UnpackedFloat.pack .binary64 (.finite s m e hm) =
      if 2048 ≤ (e + 1075).toNat + 1 then UnpackedFloat.packedInfinity .binary64 s
      else if m.log2 + 1 = 53 then
        UnpackedFloat.packComponents .binary64 s (.ofNat 11 (e + 1075).toNat) (.ofNat 52 m)
      else UnpackedFloat.packComponents .binary64 s 0#11 (.ofNat 52 m) := by
  have hbias : e + 1075 = e + 1023 + 52 := by omega
  rw [hbias]
  rfl

/-- What is packed is no not-a-number unless it was one. -/
theorem unpack_pack_ne_nan (h : u ≠ .notANumber) :
    UnpackedFloat.unpack .binary64 (UnpackedFloat.pack .binary64 u) ≠ .notANumber := by
  have hcomponents (s : Sign) {exponent : BitVec 11} (hne : exponent ≠ -1#11)
      (mantissa : BitVec 52) : UnpackedFloat.unpack .binary64
        (UnpackedFloat.packComponents .binary64 s exponent mantissa) ≠ .notANumber :=
    unpack_packComponents s exponent mantissa hne ▸ unpackWith_ne_nan s _
  have hinfinity (s : Sign) : UnpackedFloat.unpack .binary64
      (UnpackedFloat.packedInfinity .binary64 s) ≠ .notANumber :=
    unpack_packedInfinity s ▸ UnpackedFloat.noConfusion
  cases u with
  | notANumber => exact absurd rfl h
  | infinity s => exact hinfinity s
  | zero s => exact hcomponents s (by decide) _
  | finite s m e hm =>
    rw [pack_finite]
    split
    · exact hinfinity s
    next hlt =>
      split
      · refine hcomponents s (fun hall => ?_) _
        have hbits := congrArg BitVec.toNat hall
        rw [BitVec.toNat_ofNat] at hbits
        change _ % 2048 = 2047 at hbits
        omega
      · exact hcomponents s (by decide) _

/-- Zeros are packed and unpacked. -/
theorem unpack_pack_zero (s : Sign) :
    UnpackedFloat.unpack .binary64 (UnpackedFloat.pack .binary64 (.zero s)) = .zero s := by
  cases s <;> rfl

/-- Packing keeps a canonical number within the range of doubles. -/
theorem unpack_pack {s : Sign} {m : ℕ} {e : ℤ} {hm : 0 < m} (h : Canonical m e) (hle : e ≤ 971) :
    UnpackedFloat.unpack .binary64 (UnpackedFloat.pack .binary64 (.finite s m e hm)) =
      .finite s m e hm := by
  obtain ⟨hlt, hge, hnormal⟩ := h
  have hmantissa : (BitVec.ofNat 52 m).toNat = m % 2 ^ 52 := BitVec.toNat_ofNat ..
  have hexponent : (BitVec.ofNat 11 (e + 1075).toNat).toNat = (e + 1075).toNat := by
    rw [BitVec.toNat_ofNat, Nat.mod_eq_of_lt (by omega)]
  rw [pack_finite, if_neg (by omega)]
  by_cases hleading : 2 ^ 52 ≤ m
  · have hlog : m.log2 + 1 = 53 := by
      have hge : 52 ≤ m.log2 := (Nat.le_log2 hm.ne').mpr hleading
      have hle : m.log2 < 53 := (Nat.log2_lt hm.ne').mpr hlt
      omega
    have hall : BitVec.ofNat 11 (e + 1075).toNat ≠ -1#11 := by
      intro heq
      have hbits := hexponent.symm.trans (congrArg BitVec.toNat heq)
      change _ = 2047 at hbits
      omega
    have h0 : BitVec.ofNat 11 (e + 1075).toNat ≠ 0#11 := by
      intro heq
      have hbits := hexponent.symm.trans (congrArg BitVec.toNat heq)
      change _ = 0 at hbits
      omega
    rw [if_pos hlog]
    refine (unpack_normal s _ _ hall h0).trans ?_
    rw [UnpackedFloat.finite.injEq, hmantissa, hexponent]
    exact ⟨rfl, by omega, by omega⟩
  · have hlog : m.log2 + 1 ≠ 53 := by
      have := (Nat.log2_lt hm.ne').mpr (not_le.mp hleading)
      omega
    have hne : BitVec.ofNat 52 m ≠ 0#52 := by
      intro heq
      have hbits := hmantissa.symm.trans (congrArg BitVec.toNat heq)
      change _ = 0 at hbits
      omega
    rw [if_neg hlog]
    refine (unpack_subnormal s _ hne).trans ?_
    rw [UnpackedFloat.finite.injEq, hmantissa]
    exact ⟨rfl, by omega, by omega⟩

end Landscape.Number
