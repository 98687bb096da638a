import Landscape.Proofs.Number.Bits
import Mathlib.Algebra.Order.Field.Power
import Mathlib.Data.Rat.Cast.Order
import Mathlib.Tactic.FieldSimp
import Mathlib.Tactic.Linarith
import Mathlib.Tactic.Positivity
import Mathlib.Tactic.Ring

/-!
# Rounding to the nearest double

The reals that round to a double reach half a unit of its last place to each side, a quarter below a
power of two, and include their ends when the significand is even. A quotient in this interval is
rounded to the double, also from below a power of two, where its own last place is a smaller one.
-/

namespace Landscape.Number

/-- A quotient is rounded to a natural that is half a unit away at most, and nearer if it is odd. -/
theorem roundQuotient_eq {num den s : Nat} (hden : 0 < den) (hle : (num : ℚ) / den ≤ s + 1 / 2)
    (hge : s - 1 / 2 ≤ (num : ℚ) / den)
    (hodd : s % 2 = 1 → (num : ℚ) / den < s + 1 / 2 ∧ s - 1 / 2 < (num : ℚ) / den) :
    roundQuotient num den = s := by
  have hden' : (0 : ℚ) < den := by exact_mod_cast hden
  have hlt := Nat.mod_lt num hden
  have hparts := Nat.div_add_mod num den
  have hle' : 2 * num ≤ (2 * s + 1) * den := by
    rw [div_le_iff₀ hden'] at hle
    have : (2 * num : ℚ) ≤ (2 * s + 1) * den := by linarith
    exact_mod_cast this
  have hge' : 2 * s * den ≤ 2 * num + den := by
    rw [le_div_iff₀ hden'] at hge
    have : (2 * s * den : ℚ) ≤ 2 * num + den := by linarith
    exact_mod_cast this
  have hodd' : s % 2 = 1 → 2 * num < (2 * s + 1) * den ∧ 2 * s * den < 2 * num + den := by
    intro h
    obtain ⟨h₁, h₂⟩ := hodd h
    rw [div_lt_iff₀ hden'] at h₁
    rw [lt_div_iff₀ hden'] at h₂
    have h₁' : (2 * num : ℚ) < (2 * s + 1) * den := by linarith
    have h₂' : (2 * s * den : ℚ) < 2 * num + den := by linarith
    exact ⟨by exact_mod_cast h₁', by exact_mod_cast h₂'⟩
  unfold roundQuotient
  generalize num / den = q at *
  generalize num % den = m at *
  subst hparts
  have hqs : q ≤ s := by
    by_contra hcon
    have : den * (s + 1) ≤ den * q := Nat.mul_le_mul_left _ (by omega)
    nlinarith
  have hsq : s ≤ q + 1 := by
    by_contra hcon
    have : den * (q + 2) ≤ den * s := Nat.mul_le_mul_left _ (by omega)
    nlinarith
  dsimp only
  rcases Nat.eq_or_lt_of_le hqs with rfl | hlt'
  · have h1 : 2 * m ≤ den := by nlinarith
    have h2 : q % 2 = 1 → 2 * m < den := fun h => by nlinarith [(hodd' h).1]
    split
    · rfl
    · rw [if_neg (by omega)]
      omega
  · obtain rfl : s = q + 1 := by omega
    have h1 : den ≤ 2 * m := by nlinarith
    have h2 : (q + 1) % 2 = 1 → den < 2 * m := fun h => by nlinarith [(hodd' h).2]
    rw [if_neg (by omega)]
    split
    · rfl
    · omega

/-- A power as a quotient of naturals. -/
theorem zpow_toNat_div (base : Nat) (e : Int) :
    ((base ^ e.toNat : Nat) : ℚ) / (base ^ (-e).toNat : Nat) = (base : ℚ) ^ e := by
  rcases Int.le_total 0 e with h | h
  · obtain ⟨n, rfl⟩ := Int.eq_ofNat_of_zero_le h
    simp
  · obtain ⟨n, hn⟩ := Int.eq_ofNat_of_zero_le (Int.neg_nonneg.mpr h)
    obtain rfl : e = -n := by omega
    simp

/-- A quotient is counted in units exactly. -/
theorem inUnits_div (num den : Nat) (place : Int) :
    ((inUnits num den place).1 : ℚ) / (inUnits num den place).2 = num / den / 2 ^ place := by
  have hpower := zpow_toNat_div 2 place
  rw [Nat.cast_ofNat] at hpower
  rw [← hpower]
  simp only [inUnits, Nat.pow_eq]
  push_cast
  field_simp

theorem inUnits_pos {den : Nat} (hden : 0 < den) (num : Nat) (place : Int) :
    0 < (inUnits num den place).2 :=
  Nat.mul_pos hden (Nat.two_pow_pos _)

/-- The binary logarithm of a quotient up to one. -/
theorem log2_bounds {num den : Nat} (hnum : 0 < num) (hden : 0 < den) :
    (2 : ℚ) ^ ((num.log2 : Int) - den.log2 - 1) ≤ num / den ∧
      (num : ℚ) / den < 2 ^ ((num.log2 : Int) - den.log2 + 1) := by
  have hden' : (0 : ℚ) < den := by exact_mod_cast hden
  have hnum₁ : ((2 : ℚ) ^ num.log2) ≤ num := by exact_mod_cast Nat.log2_self_le hnum.ne'
  have hnum₂ : (num : ℚ) < 2 ^ (num.log2 + 1) := by exact_mod_cast Nat.lt_log2_self
  have hden₁ : ((2 : ℚ) ^ den.log2) ≤ den := by exact_mod_cast Nat.log2_self_le hden.ne'
  have hden₂ : (den : ℚ) < 2 ^ (den.log2 + 1) := by exact_mod_cast Nat.lt_log2_self
  constructor
  · rw [le_div_iff₀ hden']
    calc (2 : ℚ) ^ ((num.log2 : Int) - den.log2 - 1) * den
        ≤ 2 ^ ((num.log2 : Int) - den.log2 - 1) * 2 ^ (den.log2 + 1) := by gcongr
      _ = 2 ^ num.log2 := by
          rw [← zpow_natCast, ← zpow_natCast, ← zpow_add₀ two_ne_zero]
          congr 1
          push_cast
          ring
      _ ≤ num := hnum₁
  · rw [div_lt_iff₀ hden']
    calc (num : ℚ) < 2 ^ (num.log2 + 1) := hnum₂
      _ = 2 ^ ((num.log2 : Int) - den.log2 + 1) * 2 ^ den.log2 := by
          rw [← zpow_natCast, ← zpow_natCast, ← zpow_add₀ two_ne_zero]
          congr 1
          push_cast
          ring
      _ ≤ 2 ^ ((num.log2 : Int) - den.log2 + 1) * den := by gcongr

/-- The last place leaves 53 binary digits, or it is the least one. -/
theorem lastPlace_spec {num den : Nat} (hnum : 0 < num) (hden : 0 < den) :
    -1074 ≤ lastPlace num den ∧ (num : ℚ) / den < 2 ^ (lastPlace num den + 53) ∧
      (lastPlace num den = -1074 ∨ (2 : ℚ) ^ (lastPlace num den + 52) ≤ num / den) := by
  obtain ⟨hlow, hhigh⟩ := log2_bounds hnum hden
  unfold lastPlace
  generalize (num.log2 : Int) - den.log2 = d at hlow hhigh ⊢
  dsimp only
  generalize hguess : max (-1074) (d - 53) = guess
  have htest : 2 ^ 53 ≤ (inUnits num den guess).1 / (inUnits num den guess).2 ↔
      (2 : ℚ) ^ (guess + 53) ≤ num / den := by
    have hunit : (0 : ℚ) < (inUnits num den guess).2 := by
      exact_mod_cast inUnits_pos hden num guess
    have hscale : (2 : ℚ) ^ (guess + 53) = 2 ^ 53 * 2 ^ guess := by
      rw [zpow_add₀ two_ne_zero, mul_comm]
      rfl
    rw [Nat.le_div_iff_mul_le (inUnits_pos hden num guess), hscale,
      ← le_div_iff₀ (zpow_pos two_pos guess), ← inUnits_div, le_div_iff₀ hunit]
    exact_mod_cast Iff.rfl
  have hmono {a b : Int} (h : a ≤ b) : (2 : ℚ) ^ a ≤ 2 ^ b := zpow_le_zpow_right₀ one_le_two h
  split
  next h =>
    refine ⟨by omega, hhigh.trans_le (hmono (by omega)), .inr ?_⟩
    have := htest.mp h
    rwa [show guess + 1 + 52 = guess + 53 by ring]
  next h =>
    refine ⟨by omega, not_le.mp (mt htest.mpr h), ?_⟩
    rcases Int.le_total (d - 53) (-1074) with hle | hge
    · exact .inl (by omega)
    · exact .inr ((hmono (by omega)).trans hlow)

/-- How far below a double the reals reach that round to it, in units of its last place. -/
def reach (significand : Nat) (exponent : Int) : ℚ :=
  if significand = 2 ^ 52 ∧ -1074 < exponent then 1 / 4 else 1 / 2

/-- A real rounds to a double. -/
structure RoundsTo (q : ℚ) (significand : Nat) (exponent : Int) : Prop where
  le : q ≤ (significand + 1 / 2) * 2 ^ exponent
  ge : (significand - reach significand exponent) * 2 ^ exponent ≤ q
  odd : significand % 2 = 1 → q < (significand + 1 / 2) * 2 ^ exponent ∧
    (significand - reach significand exponent) * 2 ^ exponent < q

variable {significand : Nat} {exponent : Int}

theorem reach_le (significand : Nat) (exponent : Int) : reach significand exponent ≤ 1 / 2 := by
  unfold reach
  split <;> norm_num

/-- How many units of the last place a greater power of two has. -/
theorem zpow_add_natCast (exponent : Int) (n : Nat) :
    (2 : ℚ) ^ (exponent + n) = 2 ^ n * 2 ^ exponent := by
  rw [zpow_add₀ two_ne_zero, zpow_natCast, mul_comm]

/-- What rounds to a double has no greater last place. -/
theorem place_le {q : ℚ} {place : Int} (hdouble : IsDouble significand exponent)
    (h : RoundsTo q significand exponent)
    (hplace : place = -1074 ∨ (2 : ℚ) ^ (place + 52) ≤ q) : place ≤ exponent := by
  rcases hplace with rfl | hplace
  · exact hdouble.ge
  · have hulp : (0 : ℚ) < 2 ^ exponent := zpow_pos two_pos exponent
    have hsignificand : (significand : ℚ) + 1 ≤ 2 ^ 53 := by exact_mod_cast hdouble.lt
    have hq : q < 2 ^ (exponent + 53) := by
      have hle := h.le
      have hscale := zpow_add_natCast exponent 53
      push_cast at hscale
      rw [hscale]
      nlinarith
    have hlt := (zpow_lt_zpow_iff_right₀ (one_lt_two (α := ℚ))).mp (hplace.trans_lt hq)
    omega

/-- What rounds to a double and has a smaller last place lies below a power of two. -/
theorem eq_of_place_lt {q : ℚ} {place : Int} (hdouble : IsDouble significand exponent)
    (h : RoundsTo q significand exponent) (hplace : -1074 ≤ place) (hbelow : q < 2 ^ (place + 53))
    (hlt : place < exponent) : significand = 2 ^ 52 ∧ place = exponent - 1 := by
  have hulp : (0 : ℚ) < 2 ^ exponent := zpow_pos two_pos exponent
  have hnormal : 2 ^ 52 ≤ significand := by
    rcases hdouble.normal with h | h
    · exact h
    · omega
  have hscale (n : Nat) := zpow_add_natCast exponent n
  have hge := h.ge
  have hreach := reach_le significand exponent
  have hhigh : (significand : ℚ) < 2 ^ 52 + 1 := by
    have hq : q < 2 ^ (exponent + (52 : Nat)) :=
      hbelow.trans_le (zpow_le_zpow_right₀ one_le_two (by omega))
    rw [hscale 52] at hq
    by_contra hcon
    nlinarith
  have hsignificand : significand = 2 ^ 52 := by
    have : significand < 2 ^ 52 + 1 := by exact_mod_cast hhigh
    omega
  refine ⟨hsignificand, ?_⟩
  by_contra hne
  have hq : q < 2 ^ (exponent + (51 : Nat)) :=
    hbelow.trans_le (zpow_le_zpow_right₀ one_le_two (by omega))
  rw [hscale 51] at hq
  have hsignificand' : (significand : ℚ) = 2 ^ 52 := by exact_mod_cast hsignificand
  rw [hsignificand'] at hge
  nlinarith

/-- Counted in units of its last place, what rounds to a double is rounded to its significand. -/
theorem roundQuotient_of_roundsTo {a b : Nat} {q : ℚ} (hb : 0 < b)
    (hdiv : (a : ℚ) / b = q / 2 ^ exponent) (h : RoundsTo q significand exponent) :
    roundQuotient a b = significand := by
  have hulp : (0 : ℚ) < 2 ^ exponent := zpow_pos two_pos exponent
  have hreach := reach_le significand exponent
  have hge : (significand - 1 / 2) * 2 ^ exponent ≤ q := by nlinarith [h.ge]
  apply roundQuotient_eq hb
  · rw [hdiv, div_le_iff₀ hulp]
    exact h.le
  · rw [hdiv, le_div_iff₀ hulp]
    exact hge
  · intro hodd
    obtain ⟨hlt, hgt⟩ := h.odd hodd
    rw [hdiv, div_lt_iff₀ hulp, lt_div_iff₀ hulp]
    exact ⟨hlt, by nlinarith⟩

/-- Counted in halves of its last place, what rounds to a power of two from below is rounded to it
all the same. -/
theorem roundQuotient_of_roundsTo_below {a b : Nat} {q : ℚ} (hb : 0 < b)
    (hdiv : (a : ℚ) / b = q / 2 ^ (exponent - 1)) (hexponent : -1074 < exponent)
    (h : RoundsTo q (2 ^ 52) exponent) (hbelow : q < 2 ^ (exponent - 1 + 53)) :
    roundQuotient a b = 2 ^ 53 := by
  have hulp : (0 : ℚ) < 2 ^ (exponent - 1) := zpow_pos two_pos _
  have hscale : (2 : ℚ) ^ exponent = 2 * 2 ^ (exponent - 1) := by
    rw [← zpow_one_add₀ two_ne_zero]
    congr 1
    omega
  have hge := h.ge
  have hreach : reach (2 ^ 52) exponent = 1 / 4 := if_pos ⟨rfl, by omega⟩
  rw [hreach, hscale] at hge
  have hscale' : (2 : ℚ) ^ (exponent - 1 + 53) = 2 ^ 53 * 2 ^ (exponent - 1) :=
    zpow_add_natCast _ 53
  rw [hscale'] at hbelow
  apply roundQuotient_eq hb
  · rw [hdiv, div_le_iff₀ hulp]
    push_cast
    nlinarith
  · rw [hdiv, le_div_iff₀ hulp]
    push_cast at hge ⊢
    nlinarith
  · intro hodd
    norm_num at hodd

/-- A quotient that rounds to a double is rounded to it. -/
theorem nearest_eq {num den : Nat} (hnum : 0 < num) (hden : 0 < den)
    (hdouble : IsDouble significand exponent)
    (h : RoundsTo ((num : ℚ) / den) significand exponent) :
    nearest num den = double significand exponent := by
  obtain ⟨hplace, hbelow, habove⟩ := lastPlace_spec hnum hden
  have hdiv := inUnits_div num den (lastPlace num den)
  have hpos := inUnits_pos hden num (lastPlace num den)
  have hle := place_le hdouble h habove
  have hbits : (lastPlace num den + 1074).toNat * 2 ^ 52 +
      roundQuotient (inUnits num den (lastPlace num den)).1
        (inUnits num den (lastPlace num den)).2 = (exponent + 1074).toNat * 2 ^ 52 + significand := by
    generalize lastPlace num den = place at *
    -- The last place is that of the double, or it is the one below it.
    rcases eq_or_lt_of_le hle with rfl | hlt
    · rw [roundQuotient_of_roundsTo hpos hdiv h]
    · obtain ⟨rfl, rfl⟩ := eq_of_place_lt hdouble h hplace hbelow hlt
      rw [roundQuotient_of_roundsTo_below hpos hdiv (by omega) h hbelow]
      omega
  unfold nearest
  rw [if_neg (by simp [hnum.ne', hden.ne'])]
  simp only [Nat.pow_eq]
  rw [hbits, if_neg, double]
  obtain ⟨hlt, hge, hle, _⟩ := hdouble
  omega

end Landscape.Number
