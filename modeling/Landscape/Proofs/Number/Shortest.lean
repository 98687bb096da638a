import Landscape.Number.Shortest
import Landscape.Proofs.Number.Rounding

/-!
# The shortest decimal rounds to its double

Each neighbour on a decimal grid that counts as near enough lies in the interval of the double. With
seventeen digits half a unit of the grid is less than a quarter of the last place, so that one of
the neighbours is near enough and the search does not fail.
-/

namespace Landscape.Number

/-- The number that a decimal stands for. -/
def Decimal.value (d : Decimal) : ℚ := d.digits * 10 ^ d.place

/-- Zeros at the end make no difference. -/
theorem Decimal.value_trim (d : Decimal) : d.trim.value = d.value := by
  fun_induction Decimal.trim d with
  | case1 d h ih =>
    obtain ⟨digits, place⟩ := d
    obtain ⟨_, htens⟩ := h
    have hdigits : (digits : ℚ) = 10 * (digits / 10 : Nat) := by
      have : digits = 10 * (digits / 10) := by
        dsimp only at htens
        omega
      exact_mod_cast this
    rw [ih]
    simp only [Decimal.value]
    rw [zpow_add_one₀ (by norm_num), hdigits]
    ring
  | case2 d h => rfl

/-- A double is an exact quotient. -/
theorem scaled_div (significand : Nat) (exponent : Int) :
    ((scaled significand exponent).1 : ℚ) / (scaled significand exponent).2 =
      significand * 2 ^ exponent := by
  have hpower := zpow_toNat_div 2 exponent
  rw [Nat.cast_ofNat] at hpower
  rw [← hpower]
  simp only [scaled, Nat.pow_eq]
  push_cast
  field_simp

theorem scaled_pos (significand : Nat) (exponent : Int) : 0 < (scaled significand exponent).2 :=
  Nat.two_pow_pos _

/-- A quotient is counted in decimal units exactly. -/
theorem inDecimalUnits_div (num den : Nat) (place : Int) :
    ((inDecimalUnits num den place).1 : ℚ) / (inDecimalUnits num den place).2 =
      num / den / 10 ^ place := by
  have hpower := zpow_toNat_div 10 place
  rw [Nat.cast_ofNat] at hpower
  rw [← hpower]
  simp only [inDecimalUnits, Nat.pow_eq]
  push_cast
  field_simp

/-- How many digits there are says how great a natural is. -/
theorem digitCount_le_iff {n k : Nat} (hk : 0 < k) : digitCount n ≤ k ↔ n < 10 ^ k :=
  Nat.length_toDigits_le_iff (by decide) hk

theorem digitCount_pos (n : Nat) : 0 < digitCount n := Nat.length_toDigits_pos

/-- The leading place of a quotient is no greater than the quotient. -/
theorem leadingPlace_le {num den : Nat} (hnum : 0 < num) (hden : 0 < den) :
    (10 : ℚ) ^ leadingPlace num den ≤ num / den := by
  have hden' : (0 : ℚ) < den := by exact_mod_cast hden
  rw [le_div_iff₀ hden']
  unfold leadingPlace
  split
  next hle =>
    have hpos := digitCount_pos (num / den)
    have hpower : 10 ^ (digitCount (num / den) - 1) ≤ num / den := by
      rcases Nat.eq_zero_or_pos (digitCount (num / den) - 1) with h | h
      · rw [h]
        exact Nat.div_pos hle hden
      · by_contra hlt
        have := (digitCount_le_iff h).mpr (not_le.mp hlt)
        omega
    rw [Nat.le_div_iff_mul_le hden] at hpower
    have hexponent : (digitCount (num / den) : Int) - 1 = (digitCount (num / den) - 1 : Nat) := by
      omega
    rw [hexponent, zpow_natCast]
    exact_mod_cast hpower
  next hlt =>
    have hpower := (digitCount_le_iff (digitCount_pos _)).mp
      (Nat.le_refl (digitCount ((den - 1) / num)))
    generalize digitCount ((den - 1) / num) = k at hpower ⊢
    rw [Nat.div_lt_iff_lt_mul hnum] at hpower
    have hle : den ≤ 10 ^ k * num := by omega
    rw [zpow_neg, zpow_natCast, inv_mul_le_iff₀ (by positivity)]
    exact_mod_cast hle

variable {significand : Nat} {exponent : Int}

/-- A number below a double that is near enough rounds to it. -/
theorem roundsTo_of_below {q d : ℚ} (hq : q + d = significand * 2 ^ exponent) (hd : 0 ≤ d)
    (hreach : d ≤ reach significand exponent * 2 ^ exponent)
    (hodd : significand % 2 = 1 → d < reach significand exponent * 2 ^ exponent) :
    RoundsTo q significand exponent := by
  have hulp : (0 : ℚ) < 2 ^ exponent := zpow_pos two_pos exponent
  refine ⟨by linarith, by linarith, fun h => ⟨by linarith, ?_⟩⟩
  have := hodd h
  linarith

/-- A number above a double that is near enough rounds to it. -/
theorem roundsTo_of_above {q d : ℚ} (hq : q = significand * 2 ^ exponent + d) (hd : 0 ≤ d)
    (hreach : d ≤ 1 / 2 * 2 ^ exponent)
    (hodd : significand % 2 = 1 → d < 1 / 2 * 2 ^ exponent) :
    RoundsTo q significand exponent := by
  have hulp : (0 : ℚ) < 2 ^ exponent := zpow_pos two_pos exponent
  have hpos : 0 < reach significand exponent := by
    unfold reach
    split <;> norm_num
  have hbelow : 0 < reach significand exponent * 2 ^ exponent := by positivity
  refine ⟨by linarith, by linarith, fun h => ⟨?_, by linarith⟩⟩
  have := hodd h
  linarith

/-- Whether a distance is within reach; the end counts for an even significand. -/
def within (significand distance reach : Nat) : Bool :=
  if significand % 2 == 0 then distance ≤ reach else distance < reach

theorem within_iff {distance reach : Nat} : within significand distance reach = true ↔
    distance ≤ reach ∧ (significand % 2 = 1 → distance < reach) := by
  unfold within
  split
  next heven =>
    rw [beq_iff_eq] at heven
    rw [decide_eq_true_eq]
    omega
  next hodd =>
    rw [beq_iff_eq] at hodd
    rw [decide_eq_true_eq]
    omega

/-- A double on a decimal grid: so many units, and of these so many to the last place. -/
structure OnGrid (significand : Nat) (exponent place : Int) (value unit step : Nat) : Prop where
  unit_pos : 0 < unit
  value_eq : (value : ℚ) / unit * 10 ^ place = significand * 2 ^ exponent
  step_eq : (step : ℚ) / unit * 10 ^ place = 2 ^ exponent

/-- The grid of a place. -/
theorem onGrid (significand : Nat) (exponent place : Int) :
    OnGrid significand exponent place
      (inDecimalUnits (scaled significand exponent).1 (scaled significand exponent).2 place).1
      (inDecimalUnits (scaled significand exponent).1 (scaled significand exponent).2 place).2
      (2 ^ exponent.toNat * 10 ^ (-place).toNat) := by
  have hplace : (10 : ℚ) ^ place ≠ 0 := (zpow_pos (by norm_num) place).ne'
  have hvalue := inDecimalUnits_div (scaled significand exponent).1
    (scaled significand exponent).2 place
  rw [scaled_div] at hvalue
  refine ⟨?_, ?_, ?_⟩
  · exact Nat.mul_pos (scaled_pos _ _) (Nat.pow_pos (by decide))
  · rw [hvalue, div_mul_cancel₀ _ hplace]
  · have htwo := zpow_toNat_div 2 exponent
    have hten := zpow_toNat_div 10 (-place)
    rw [neg_neg] at hten
    rw [Nat.cast_ofNat] at htwo hten
    have hstep : ((2 ^ exponent.toNat * 10 ^ (-place).toNat : Nat) : ℚ) /
        (inDecimalUnits (scaled significand exponent).1 (scaled significand exponent).2 place).2 =
          2 ^ exponent * 10 ^ (-place) := by
      rw [← htwo, ← hten, div_mul_div_comm]
      simp only [inDecimalUnits, scaled, Nat.pow_eq, Nat.cast_mul]
    rw [hstep, zpow_neg, inv_mul_cancel_right₀ hplace]

variable {place : Int} {value unit step : Nat}

/-- A distance that is within reach in quarters of steps is so in the reals. -/
theorem OnGrid.distance_le (h : OnGrid significand exponent place value unit step)
    {distance quarters : Nat} {r : ℚ} (hr : (quarters : ℚ) = 4 * r * step)
    (hfits : within significand (4 * distance) quarters = true) :
    (distance : ℚ) / unit * 10 ^ place ≤ r * 2 ^ exponent ∧
      (significand % 2 = 1 → (distance : ℚ) / unit * 10 ^ place < r * 2 ^ exponent) := by
  obtain ⟨hunit, -, hstep⟩ := h
  have hpower : (0 : ℚ) < 10 ^ place := zpow_pos (by norm_num) place
  have hunit' : (0 : ℚ) < unit := by exact_mod_cast hunit
  obtain ⟨hle, hlt⟩ := within_iff.mp hfits
  have hscale : r * 2 ^ exponent = r * step / unit * 10 ^ place := by
    rw [← hstep]
    ring
  rw [hscale]
  constructor
  · have hle' : ((4 * distance : Nat) : ℚ) ≤ quarters := Nat.cast_le.mpr hle
    rw [hr] at hle'
    push_cast at hle'
    gcongr
    linarith
  · intro hodd
    have hlt' : ((4 * distance : Nat) : ℚ) < quarters := Nat.cast_lt.mpr (hlt hodd)
    rw [hr] at hlt'
    push_cast at hlt'
    gcongr
    linarith

/-- The neighbour below rounds to the double if it is within reach. -/
theorem OnGrid.low_roundsTo (h : OnGrid significand exponent place value unit step)
    (hfits : within significand (4 * (value % unit))
      (if significand == 2 ^ 52 && -1074 < exponent then step else 2 * step) = true) :
    RoundsTo (Decimal.value ⟨value / unit, place⟩) significand exponent := by
  have hpower : (0 : ℚ) < 10 ^ place := zpow_pos (by norm_num) place
  have hunit : (0 : ℚ) < unit := by exact_mod_cast h.unit_pos
  have hparts : (value : ℚ) = unit * (value / unit : Nat) + (value % unit : Nat) := by
    exact_mod_cast (Nat.div_add_mod value unit).symm
  have hreach :
      ((if significand == 2 ^ 52 && -1074 < exponent then step else 2 * step : Nat) : ℚ) =
        4 * reach significand exponent * step := by
    simp only [reach, Bool.and_eq_true, beq_iff_eq, decide_eq_true_eq]
    split <;> push_cast <;> ring
  obtain ⟨hle, hlt⟩ := h.distance_le hreach hfits
  refine roundsTo_of_below ?_ (by positivity) hle hlt
  rw [← h.value_eq, Decimal.value]
  generalize value / unit = low at *
  rw [hparts]
  field_simp

/-- The neighbour above rounds to the double if it is within reach. -/
theorem OnGrid.high_roundsTo (h : OnGrid significand exponent place value unit step)
    (hfits : within significand (4 * (unit - value % unit)) (2 * step) = true) :
    RoundsTo (Decimal.value ⟨value / unit + 1, place⟩) significand exponent := by
  have hpower : (0 : ℚ) < 10 ^ place := zpow_pos (by norm_num) place
  have hunit : (0 : ℚ) < unit := by exact_mod_cast h.unit_pos
  have hparts : (value : ℚ) + (unit - value % unit : Nat) = unit * (value / unit + 1 : Nat) := by
    have hdiv := Nat.div_add_mod value unit
    have hmod := Nat.mod_lt value h.unit_pos
    have hsum : value + (unit - value % unit) = unit * (value / unit + 1) := by
      rw [Nat.mul_add]
      omega
    exact_mod_cast hsum
  have hreach : ((2 * step : Nat) : ℚ) = 4 * (1 / 2) * step := by
    push_cast
    ring
  obtain ⟨hle, hlt⟩ := h.distance_le hreach hfits
  refine roundsTo_of_above ?_ (by positivity) hle hlt
  have hhigh : ((value / unit + 1 : Nat) : ℚ) = (value + (unit - value % unit : Nat)) / unit := by
    rw [hparts]
    field_simp
  rw [← h.value_eq, Decimal.value, hhigh]
  ring

/-- A neighbour on a grid rounds to the double. -/
theorem gridNeighbour_roundsTo {d : Decimal}
    (h : gridNeighbour significand exponent place = some d) :
    RoundsTo d.value significand exponent := by
  have hgrid := onGrid significand exponent place
  have hlow := hgrid.low_roundsTo
  have hhigh := hgrid.high_roundsTo
  unfold gridNeighbour at h
  dsimp only at h
  split at h
  next hl hh =>
    rw [Bool.and_eq_true] at hl
    split at h
    · obtain rfl := Option.some.inj h
      exact hlow hl.2
    · split at h
      · obtain rfl := Option.some.inj h
        exact hhigh hh
      · obtain rfl := Option.some.inj h
        rcases Nat.mod_two_eq_zero_or_one
          ((inDecimalUnits (scaled significand exponent).1
            (scaled significand exponent).2 place).1 /
            (inDecimalUnits (scaled significand exponent).1
              (scaled significand exponent).2 place).2) with heven | hodd
        · rw [heven]
          exact hlow hl.2
        · rw [hodd]
          exact hhigh hh
  next hl _ =>
    rw [Bool.and_eq_true] at hl
    obtain rfl := Option.some.inj h
    exact hlow hl.2
  next _ hh =>
    obtain rfl := Option.some.inj h
    exact hhigh hh
  · cases h

/-- On a grid with seventeen digits a double is many units, and so is each of its last place. -/
theorem OnGrid.unit_lt (h : OnGrid significand exponent place value unit step)
    (hdouble : IsDouble significand exponent)
    (hfine : (10 : ℚ) ^ (place + 16) ≤ significand * 2 ^ exponent) :
    unit ≤ value ∧ unit < step ∧ (significand = 2 ^ 52 → 2 * unit < step) := by
  obtain ⟨hunit, hvalue, hstep⟩ := h
  have hpower : (0 : ℚ) < 10 ^ place := zpow_pos (by norm_num) place
  have hunit' : (0 : ℚ) < unit := by exact_mod_cast hunit
  have hscale : (10 : ℚ) ^ (place + 16) = 10 ^ 16 * 10 ^ place := by
    rw [zpow_add₀ (by norm_num), mul_comm]
    rfl
  rw [hscale] at hfine
  have hvalue' : 10 ^ 16 * unit ≤ value := by
    rw [← hvalue, mul_le_mul_iff_left₀ hpower, le_div_iff₀ hunit'] at hfine
    exact_mod_cast hfine
  have hstep' : 10 ^ 16 * unit ≤ significand * step := by
    rw [← hstep, ← mul_assoc, mul_le_mul_iff_left₀ hpower, ← mul_div_assoc,
      le_div_iff₀ hunit'] at hfine
    exact_mod_cast hfine
  have hlt := hdouble.lt
  refine ⟨by omega, ?_, ?_⟩
  · by_contra hcon
    have : significand * step ≤ 2 ^ 53 * unit := Nat.mul_le_mul (by omega) (by omega)
    omega
  · rintro rfl
    omega

/-- A grid with seventeen digits has a neighbour that rounds to the double. -/
theorem gridNeighbour_ne_none (hdouble : IsDouble significand exponent)
    (hfine : (10 : ℚ) ^ (place + 16) ≤ significand * 2 ^ exponent) :
    gridNeighbour significand exponent place ≠ none := by
  have hgrid := onGrid significand exponent place
  obtain ⟨hvalue, hstep, hnarrow⟩ := hgrid.unit_lt hdouble hfine
  have hunit := hgrid.unit_pos
  clear hgrid
  unfold gridNeighbour
  dsimp only
  generalize (inDecimalUnits (scaled significand exponent).1
    (scaled significand exponent).2 place).1 = value at *
  generalize (inDecimalUnits (scaled significand exponent).1
    (scaled significand exponent).2 place).2 = unit at *
  generalize 2 ^ exponent.toNat * 10 ^ (-place).toNat = step at *
  have hmod := Nat.mod_lt value hunit
  have hlow : value / unit ≠ 0 := (Nat.div_pos hvalue hunit).ne'
  have hfits : 2 * (value % unit) ≤ unit → within significand (4 * (value % unit))
      (if significand == 2 ^ 52 && -1074 < exponent then step else 2 * step) = true := by
    intro hnear
    have hreach : 2 * unit <
        (if significand == 2 ^ 52 && -1074 < exponent then step else 2 * step) := by
      split
      next h =>
        rw [Bool.and_eq_true, beq_iff_eq] at h
        exact hnarrow h.1
      · omega
    exact within_iff.mpr ⟨by omega, fun _ => by omega⟩
  have hfits' : unit ≤ 2 * (value % unit) →
      within significand (4 * (unit - value % unit)) (2 * step) = true := fun hfar =>
    within_iff.mpr ⟨by omega, fun _ => by omega⟩
  split
  · split
    · exact Option.some_ne_none _
    · split <;> exact Option.some_ne_none _
  · exact Option.some_ne_none _
  · exact Option.some_ne_none _
  next hl hh =>
    exfalso
    rcases Nat.le_total (2 * (value % unit)) unit with hnear | hfar
    · have htrue : (value / unit != 0 && within significand (4 * (value % unit))
          (if significand == 2 ^ 52 && -1074 < exponent then step else 2 * step)) = true := by
        rw [Bool.and_eq_true, bne_iff_ne]
        exact ⟨hlow, hfits hnear⟩
      exact Bool.noConfusion (htrue.symm.trans hl)
    · exact Bool.noConfusion ((hfits' hfar).symm.trans hh)

/-- The shortest decimal of a double rounds to it. -/
theorem shortest_roundsTo (hdouble : IsDouble significand exponent) (hpos : 0 < significand) :
    RoundsTo (shortest significand exponent).value significand exponent := by
  have hnum : 0 < (scaled significand exponent).1 := Nat.mul_pos hpos (Nat.two_pow_pos _)
  have htop := leadingPlace_le hnum (scaled_pos significand exponent)
  rw [scaled_div] at htop
  unfold shortest
  dsimp only
  generalize leadingPlace (scaled significand exponent).1 (scaled significand exponent).2 = top
    at htop ⊢
  rw [Decimal.value_trim]
  cases hhit : (List.range 17).findSome? fun i =>
      gridNeighbour significand exponent (top - (i : Nat)) with
  | none =>
    rw [List.findSome?_eq_none_iff] at hhit
    have hnone := hhit 16 (by simp)
    refine absurd hnone (gridNeighbour_ne_none hdouble ?_)
    rwa [show top - ((16 : Nat) : Int) + 16 = top by omega]
  | some d =>
    obtain ⟨i, _, hd⟩ := List.exists_of_findSome?_eq_some hhit
    exact gridNeighbour_roundsTo hd

end Landscape.Number
