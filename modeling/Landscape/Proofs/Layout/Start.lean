import Landscape.Layout.Run
import Landscape.Proofs.Layout.Forces

/-!
# The first positions are in the square

The generator gives numbers of 53 binary digits as parts of one. A part of the side, rounded, is no
longer than the side.
-/

namespace Landscape.Layout

open Landscape.Number

variable {σ : ℚ} {side x : Float}

/-- A seed below `2 ^ 32` is one word. -/
theorem seedWords_of_lt {seed : ℕ} (h : seed < 0x100000000) :
    seedWords seed = [UInt32.ofNat seed] := by
  rw [seedWords, if_pos h]

namespace Generator

/-- A stepped state is below `2 ^ 128`. -/
theorem state_step_lt (g : Generator) : g.step.state < 2 ^ 128 :=
  Nat.mod_lt _ (by decide)

theorem rotate_lt {n count : ℕ} (hn : n < 2 ^ 64) (hcount : count ≤ 64) :
    rotate n count < 2 ^ 64 := by
  have hsplit : 2 ^ (64 - count) * 2 ^ count = 2 ^ 64 := by
    rw [← pow_add, Nat.sub_add_cancel hcount]
  have hlow : n % 2 ^ count + 1 ≤ 2 ^ count := Nat.mod_lt n (by positivity)
  have hhigh : n / 2 ^ count < 2 ^ (64 - count) := by
    rw [Nat.div_lt_iff_lt_mul (by positivity), hsplit]
    exact hn
  rw [rotate, Nat.shiftRight_eq_div_pow, Nat.one_shiftLeft, Nat.shiftLeft_eq]
  calc n / 2 ^ count + n % 2 ^ count * 2 ^ (64 - count)
      < (n % 2 ^ count + 1) * 2 ^ (64 - count) := by rw [add_mul, one_mul]; omega
    _ ≤ 2 ^ count * 2 ^ (64 - count) := by gcongr
    _ = 2 ^ 64 := by rw [mul_comm, hsplit]

theorem output_lt {state : ℕ} (h : state < 2 ^ 128) : output state < 2 ^ 64 := by
  have hhigh : state >>> 64 < 2 ^ 64 := by rw [Nat.shiftRight_eq_div_pow]; omega
  have hlow : state % (1 <<< 64) < 2 ^ 64 := Nat.mod_lt _ (by decide)
  have hcount : state >>> 122 ≤ 64 := by rw [Nat.shiftRight_eq_div_pow]; omega
  exact rotate_lt (Nat.xor_lt_two_pow hhigh hlow) hcount

/-- A random number is at least zero and at most one. -/
theorem within_next (g : Generator) : Within 1 g.next.1 := by
  have hbits : (UInt64.ofNat (output g.step.state >>> 11)).toNat ≤ 2 ^ 53 := by
    have houtput := output_lt g.state_step_lt
    rw [UInt64.toNat_ofNat']
    refine (Nat.mod_le _ _).trans ?_
    rw [Nat.shiftRight_eq_div_pow]
    omega
  have hlarge : IsExact (2 ^ (53 : ℤ)) := isExact_zpow (by decide) (by decide)
  obtain ⟨r, hr, hnearest⟩ :=
    toRat?_toFloat (UInt64.ofNat (output g.step.state >>> 11))
  rw [← Rat.cast_natCast] at hnearest
  have hr0 : 0 ≤ r := hnearest.lower isExact_zero (Nat.cast_nonneg _)
  have hr1 : r ≤ 2 ^ (53 : ℤ) := hnearest.upper hlarge (by exact_mod_cast hbits)
  have hunit : toRat? (Float.ofBits 0x3ca0000000000000) = some (1 / 2 ^ 53) := by decide +kernel
  refine within_mul hr hunit isExact_one (by positivity) ?_
  rw [mul_one_div, div_le_one (by positivity)]
  exact_mod_cast hr1

theorem within_take (g : Generator) (count : ℕ) : ∀ x ∈ g.take count, Within 1 x := by
  induction count generalizing g with
  | zero => exact fun x hx => nomatch hx
  | succ count ih =>
    intro x hx
    rcases List.mem_cons.mp hx with rfl | hx
    · exact g.within_next
    · exact ih _ x hx

end Generator

/-- A random part of the side. -/
theorem within_side_mul (hside : toRat? side = some σ) (h0 : 0 ≤ σ) (hx : Within 1 x) :
    Within σ (0.0 + side * x) := by
  have hσ : IsExact σ := isExact_of_toRat? hside
  obtain ⟨q, hq, hq0, hq1⟩ := hx
  obtain ⟨r, hr, hr0, hr1⟩ := within_mul hside hq hσ (mul_nonneg h0 hq0)
    (mul_le_of_le_one_right h0 hq1)
  exact within_add toRat?_zero hr hσ (by rwa [zero_add]) (by rwa [zero_add])

theorem inSquare_pairUp {xs : List Float} (h : ∀ x ∈ xs, Within σ x) :
    ∀ p ∈ pairUp xs, InSquare σ p := by
  induction xs using pairUp.induct with
  | case1 x y rest ih =>
    intro p hp
    rw [pairUp] at hp
    rcases List.mem_cons.mp hp with rfl | hp
    · exact ⟨h x (by simp), h y (by simp)⟩
    · exact ih (fun z hz => h z (by simp [hz])) p hp
  | case2 xs hshort =>
    intro p hp
    rw [pairUp.eq_2 xs hshort] at hp
    cases hp

/-- The elements start in the square. -/
theorem inSquare_initialPositions (hside : toRat? side = some σ) (h0 : 0 ≤ σ) (seed count : ℕ) :
    ∀ p ∈ initialPositions seed count side, InSquare σ p := by
  refine inSquare_pairUp fun x hx => ?_
  obtain ⟨d, hd, rfl⟩ := List.mem_map.mp hx
  exact within_side_mul hside h0 (Generator.within_take _ _ d hd)

end Landscape.Layout
