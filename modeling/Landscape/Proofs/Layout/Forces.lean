import Landscape.Layout.Forces
import Landscape.Proofs.Number.Bounded
import Mathlib.Algebra.Order.Archimedean.Basic

/-!
# No force is too large

While the elements are in a square that is not too large, and relations do not pull too strongly, the
force between two of them is bounded, and the net force on an element as well, however many others
there are. All bounds are powers of two, which rounding does not pass.
-/

namespace Landscape.Layout

open Landscape.Number

/-- Both coordinates of a place lie between zero and a side. -/
def InSquare (side : ℚ) (p : Point Float) : Prop := Within side p.x ∧ Within side p.y

/-- Both components of a force are bounded. -/
def BoundedForce (d : ℚ) (f : Point Float) : Prop := Bounded d f.x ∧ Bounded d f.y

variable {b : ℤ} {side : ℚ} {x y dx dy squared rest weight : Float} {p q : Point Float}

theorem zpow_succ_two (e : ℤ) : (2 : ℚ) ^ (e + 1) = 2 * 2 ^ e := by
  rw [zpow_add_one₀ two_ne_zero, mul_comm]

/-- Two coordinates differ by no more than the side. -/
theorem bounded_difference (h0 : 0 ≤ b) (hb : b ≤ 476) (hside : side ≤ 2 ^ b)
    (hx : Within side x) (hy : Within side y) : Bounded (2 ^ b) (x - y) := by
  obtain ⟨p, hp, hplow, hphigh⟩ := hx
  obtain ⟨q, hq, hqlow, hqhigh⟩ := hy
  refine bounded_sub hp hq (isExact_zpow (by omega) (by omega)) (abs_le.mpr ⟨?_, ?_⟩) <;> linarith

/-- What is at least a power of two in magnitude has a square of at least its square. -/
def SquareReaches (s δ : ℚ) : Prop := ∀ j : ℤ, -4 ≤ j → 2 ^ j ≤ |δ| → 2 ^ (2 * j) ≤ s

/-- The square of a bounded number. -/
theorem toRat?_square {δ : ℚ} (h0 : 0 ≤ b) (hb : b ≤ 476) (hx : toRat? x = some δ)
    (hδ : |δ| ≤ 2 ^ b) :
    ∃ s, toRat? (x * x) = some s ∧ 0 ≤ s ∧ s ≤ 2 ^ (2 * b) ∧ SquareReaches s δ := by
  have hbound : IsExact (2 ^ (2 * b)) := isExact_zpow (by omega) (by omega)
  have hsquare : δ * δ = |δ| * |δ| := (abs_mul_abs_self δ).symm
  have htwice (j : ℤ) : (2 : ℚ) ^ (2 * j) = 2 ^ j * 2 ^ j := by
    rw [two_mul, zpow_add₀ two_ne_zero]
  have hle : |δ * δ| ≤ 2 ^ (2 * b) := by
    rw [abs_mul, htwice]
    exact mul_self_le_mul_self (abs_nonneg δ) hδ
  obtain ⟨s, hs, hnearest⟩ := toRat?_mul hx hx hbound hle
  refine ⟨s, hs, hnearest.lower isExact_zero (mul_self_nonneg δ),
    hnearest.upper hbound ((le_abs_self _).trans hle), fun j hj hreach => ?_⟩
  have hjb : j ≤ b := (zpow_le_zpow_iff_right₀ (one_lt_two (α := ℚ))).mp (hreach.trans hδ)
  refine hnearest.lower (isExact_zpow (by omega) (by omega)) ?_
  rw [htwice, hsquare]
  exact mul_self_le_mul_self (zpow_pos two_pos j).le hreach

/-- Rounding keeps what a square reaches, and so does a greater sum. -/
theorem SquareReaches.rounded {s t v δ : ℚ} (h : SquareReaches s δ) (hle : s ≤ v)
    (hv : v < 2 ^ (1024 : ℤ)) (hnearest : Nearest (v : ℝ) t) : SquareReaches t δ := by
  intro j hj hreach
  have hpower := (h j hj hreach).trans hle
  have hrange := (zpow_lt_zpow_iff_right₀ (one_lt_two (α := ℚ))).mp (hpower.trans_lt hv)
  exact hnearest.lower (isExact_zpow (by omega) (by omega)) hpower

theorem softening_bounds : ∃ c, toRat? softening = some c ∧ 2 ^ (-7 : ℤ) ≤ c ∧ c ≤ 1 :=
  ⟨5764607523034235 / 576460752303423488, by decide +kernel, by norm_num, by norm_num⟩

/-- The softened square of a distance is bounded on both sides, and it reaches the squares of both
differences. -/
theorem toRat?_squaredDistance {δ ε : ℚ} (h0 : 0 ≤ b) (hb : b ≤ 476) (hx : toRat? dx = some δ)
    (hy : toRat? dy = some ε) (hδ : |δ| ≤ 2 ^ b) (hε : |ε| ≤ 2 ^ b) :
    ∃ s, toRat? (dx * dx + dy * dy + softening) = some s ∧ 2 ^ (-7 : ℤ) ≤ s ∧
      s ≤ 2 ^ (2 * b + 2) ∧ SquareReaches s δ ∧ SquareReaches s ε := by
  obtain ⟨s₁, hs₁, hlow₁, hhigh₁, hreach₁⟩ := toRat?_square h0 hb hx hδ
  obtain ⟨s₂, hs₂, hlow₂, hhigh₂, hreach₂⟩ := toRat?_square h0 hb hy hε
  obtain ⟨c, hc, hclow, hchigh⟩ := softening_bounds
  have hone : (1 : ℚ) ≤ 2 ^ (2 * b + 1) := one_le_zpow₀ one_le_two (by omega)
  have hbound₁ : IsExact (2 ^ (2 * b + 1)) := isExact_zpow (by omega) (by omega)
  have hbound₂ : IsExact (2 ^ (2 * b + 2)) := isExact_zpow (by omega) (by omega)
  have hlimit : (2 : ℚ) ^ (2 * b + 2) < 2 ^ (1024 : ℤ) :=
    zpow_lt_zpow_right₀ one_lt_two (by omega)
  have hsum : |s₁ + s₂| ≤ 2 ^ (2 * b + 1) := by
    rw [abs_of_nonneg (by linarith), zpow_succ_two]
    linarith
  obtain ⟨t, ht, hnearest⟩ := toRat?_add hs₁ hs₂ hbound₁ hsum
  have htlow : 0 ≤ t := hnearest.lower isExact_zero (by linarith)
  have hthigh : t ≤ 2 ^ (2 * b + 1) := hnearest.upper hbound₁ ((le_abs_self _).trans hsum)
  have hsoft : t + c ≤ 2 ^ (2 * b + 2) := by
    rw [show 2 * b + 2 = 2 * b + 1 + 1 by ring, zpow_succ_two]
    linarith
  have hpositive : (0 : ℚ) < 2 ^ (-7 : ℤ) := by positivity
  obtain ⟨s, hs, hnearest'⟩ := toRat?_add ht hc hbound₂ (by rwa [abs_of_nonneg (by linarith)])
  have hbelow : s₁ + s₂ < 2 ^ (1024 : ℤ) := by
    refine ((le_abs_self _).trans hsum).trans_lt (lt_of_le_of_lt ?_ hlimit)
    exact zpow_le_zpow_right₀ one_le_two (by omega)
  refine ⟨s, hs, hnearest'.lower (isExact_zpow (by decide) (by decide)) (by linarith),
    hnearest'.upper hbound₂ hsoft, ?_, ?_⟩
  · exact (hreach₁.rounded (by linarith) hbelow hnearest).rounded (by linarith)
      (hsoft.trans_lt hlimit) hnearest'
  · exact (hreach₂.rounded (by linarith) hbelow hnearest).rounded (by linarith)
      (hsoft.trans_lt hlimit) hnearest'

/-- The root of such a square is no less than half of each difference. -/
theorem toRat?_distance {s : ℚ} (hs : toRat? squared = some s) (hlow : 2 ^ (-7 : ℤ) ≤ s) :
    ∃ ρ, toRat? squared.sqrt = some ρ ∧ 2 ^ (-4 : ℤ) ≤ ρ ∧
      ∀ δ, SquareReaches s δ → |δ| ≤ 2 * ρ := by
  have hpositive : (0 : ℚ) < 2 ^ (-7 : ℤ) := by positivity
  obtain ⟨ρ, hρ, hnearest⟩ := toRat?_sqrt hs (hpositive.le.trans hlow)
  have hroot (j : ℤ) (hj : -4 ≤ j) (h : 2 ^ (2 * j) ≤ s) : 2 ^ j ≤ ρ := by
    have hrange := (zpow_lt_zpow_iff_right₀ (one_lt_two (α := ℚ))).mp
      (h.trans_lt ((le_abs_self s).trans_lt (isExact_of_toRat? hs).abs_lt))
    have hreal : ((2 ^ j : ℚ) : ℝ) ≤ Real.sqrt s := by
      have hpos : (0 : ℝ) < ((2 ^ j : ℚ) : ℝ) := by
        rw [cast_two_zpow]
        positivity
      rw [Real.le_sqrt' hpos]
      have hsquare : ((2 : ℚ) ^ j) ^ 2 ≤ s := by
        rwa [sq, ← zpow_add₀ two_ne_zero, ← two_mul]
      exact_mod_cast hsquare
    exact_mod_cast hnearest.ge (isExact_zpow (by omega) (by omega)) hreal
  have hleast : 2 ^ (-4 : ℤ) ≤ ρ :=
    hroot (-4) le_rfl ((zpow_le_zpow_right₀ one_le_two (by decide)).trans hlow)
  refine ⟨ρ, hρ, hleast, fun δ hreach => ?_⟩
  by_contra hfar
  have hpos : 0 < |δ| := (mul_pos two_pos ((by positivity : (0 : ℚ) < _).trans_le hleast)).trans
    (not_le.mp hfar)
  obtain ⟨j, hj, hjlt⟩ := exists_mem_Ico_zpow hpos one_lt_two
  have hge : -4 ≤ j := by
    have hlt : (2 : ℚ) ^ (-4 : ℤ) < 2 ^ (j + 1) := by linarith [not_le.mp hfar]
    have := (zpow_lt_zpow_iff_right₀ (one_lt_two (α := ℚ))).mp hlt
    omega
  have hle := hroot j hge (hreach j hge hj)
  rw [zpow_succ_two] at hjlt
  linarith

/-- A direction has components of two at most. -/
theorem bounded_direction {δ ρ : ℚ} (hx : toRat? x = some δ) (hy : toRat? y = some ρ)
    (hlow : 2 ^ (-4 : ℤ) ≤ ρ) (hle : |δ| ≤ 2 * ρ) : Bounded 2 (x / y) := by
  have hpos : 0 < ρ := (zpow_pos two_pos _).trans_le hlow
  have hexact : IsExact 2 := by simpa using isExact_zpow (e := 1) (by decide) (by decide)
  refine bounded_div hx hy hpos.ne' hexact ?_
  rw [abs_div, abs_of_pos hpos, div_le_iff₀ hpos]
  exact hle

/-- The side of a square and the distance at rest, whose value is `k`, are at most `2 ^ b`. -/
structure Fits (b : ℤ) (side : ℚ) (rest : Float) (k : ℚ) : Prop where
  nonneg : 0 ≤ b
  le : b ≤ 476
  side_le : side ≤ 2 ^ b
  rest_eq : toRat? rest = some k
  rest_nonneg : 0 ≤ k
  rest_le : k ≤ 2 ^ b

/-- A relation does not pull too strongly for a square of side `2 ^ b` and a distance at rest. -/
def Gentle (b : ℤ) (k : ℚ) (weight : Float) : Prop :=
  ∃ w, toRat? weight = some w ∧ (0 < w → 2 ^ (2 * b + 2) * max 1 w ≤ 2 ^ (954 : ℤ) * k)

variable {k s : ℚ}

/-- The push between two elements. -/
theorem within_repulsion (h : Fits b side rest k) (hs : toRat? squared = some s)
    (hlow : 2 ^ (-7 : ℤ) ≤ s) : Within (2 ^ (959 : ℤ)) (rest * rest / squared) := by
  have hb := h.le
  have hpos : 0 < s := (zpow_pos two_pos _).trans_le hlow
  obtain ⟨r, hr, hr0, hrb, -⟩ := toRat?_square h.nonneg h.le h.rest_eq
    ((abs_of_nonneg h.rest_nonneg).trans_le h.rest_le)
  have hle : r / s ≤ 2 ^ (959 : ℤ) := by
    rw [div_le_iff₀ hpos]
    calc r ≤ 2 ^ (2 * b) := hrb
      _ ≤ 2 ^ (959 + -7 : ℤ) := zpow_le_zpow_right₀ one_le_two (by omega)
      _ = 2 ^ (959 : ℤ) * 2 ^ (-7 : ℤ) := zpow_add₀ two_ne_zero _ _
      _ ≤ 2 ^ (959 : ℤ) * s := by gcongr
  exact within_div hr hs hpos.ne' (isExact_zpow (by decide) (by decide)) (div_nonneg hr0 hpos.le)
    hle

/-- The pull of a gentle relation. -/
theorem within_attraction {w : ℚ} (hk : toRat? rest = some k) (hs : toRat? squared = some s)
    (hs0 : 0 ≤ s) (hsb : s ≤ 2 ^ (2 * b + 2)) (hw : toRat? weight = some w) (hwpos : 0 < w)
    (hgentle : 2 ^ (2 * b + 2) * max 1 w ≤ 2 ^ (954 : ℤ) * k) :
    Within (2 ^ (955 : ℤ)) (squared / rest * weight) := by
  have hone : 0 < max 1 w := lt_max_of_lt_left one_pos
  have hkpos : 0 < k := by
    have : (0 : ℚ) < 2 ^ (2 * b + 2) * max 1 w := mul_pos (zpow_pos two_pos _) hone
    exact pos_of_mul_pos_right (this.trans_le hgentle) (zpow_pos two_pos _).le
  have hquotient : s / k ≤ 2 ^ (954 : ℤ) / max 1 w := by
    rw [div_le_div_iff₀ hkpos hone]
    exact (mul_le_mul_of_nonneg_right hsb hone.le).trans hgentle
  -- The quotient is rounded to no more than the power of two above the limit.
  obtain ⟨c, hclow, hchigh⟩ := exists_mem_Ioc_zpow (div_pos (zpow_pos two_pos 954) hone)
    (one_lt_two (α := ℚ))
  have hrange : -71 ≤ c ∧ c < 954 := by
    have hhigh : max 1 w < 2 ^ (1024 : ℤ) := by
      refine max_lt (one_lt_zpow₀ one_lt_two (by decide)) ?_
      exact (le_abs_self w).trans_lt (isExact_of_toRat? hw).abs_lt
    have hle : (2 : ℚ) ^ (954 : ℤ) / max 1 w ≤ 2 ^ (954 : ℤ) :=
      div_le_self (zpow_pos two_pos _).le (le_max_left 1 w)
    have hge : (2 : ℚ) ^ (-70 : ℤ) < 2 ^ (954 : ℤ) / max 1 w := by
      rw [lt_div_iff₀ hone]
      calc (2 : ℚ) ^ (-70 : ℤ) * max 1 w < 2 ^ (-70 : ℤ) * 2 ^ (1024 : ℤ) := by gcongr
        _ = 2 ^ (954 : ℤ) := (zpow_add₀ two_ne_zero _ _).symm
    have h₁ := (zpow_lt_zpow_iff_right₀ (one_lt_two (α := ℚ))).mp (hge.trans_le hchigh)
    have h₂ := (zpow_lt_zpow_iff_right₀ (one_lt_two (α := ℚ))).mp (hclow.trans_le hle)
    omega
  obtain ⟨q, hq, hq0, hqb⟩ := within_div hs hk hkpos.ne'
    (isExact_zpow (by omega) (by omega)) (div_nonneg hs0 hkpos.le) (hquotient.trans hchigh)
  refine within_mul hq hw (isExact_zpow (by decide) (by decide)) (mul_nonneg hq0 hwpos.le) ?_
  have hcw : 2 ^ c * max 1 w ≤ 2 ^ (954 : ℤ) := ((lt_div_iff₀ hone).mp hclow).le
  calc q * w ≤ 2 ^ (c + 1) * max 1 w := by
        gcongr
        exact le_max_right 1 w
    _ = 2 * (2 ^ c * max 1 w) := by rw [zpow_succ_two, mul_assoc]
    _ ≤ 2 * 2 ^ (954 : ℤ) := by gcongr
    _ = 2 ^ (955 : ℤ) := (zpow_succ_two 954).symm

/-- The push and the pull together. -/
theorem bounded_magnitude (h : Fits b side rest k) (hgentle : Gentle b k weight)
    (hs : toRat? squared = some s) (hlow : 2 ^ (-7 : ℤ) ≤ s) (hsb : s ≤ 2 ^ (2 * b + 2)) :
    Bounded (2 ^ (959 : ℤ)) (magnitude rest squared weight) := by
  have hlimit : IsExact (2 ^ (959 : ℤ)) := isExact_zpow (by decide) (by decide)
  obtain ⟨w, hw, hpull⟩ := hgentle
  have hattraction :
      Within (2 ^ (955 : ℤ)) (if 0 < weight then squared / rest * weight else 0.0) := by
    split
    · next hpositive =>
      have hwpos : 0 < w := (lt_iff toRat?_zero hw).mp hpositive
      have hs0 : 0 ≤ s := (zpow_pos two_pos _).le.trans hlow
      exact within_attraction h.rest_eq hs hs0 hsb hw hwpos (hpull hwpos)
    · exact within_zero (zpow_pos two_pos _).le
  obtain ⟨r, hr, hr0, hrb⟩ := within_repulsion h hs hlow
  obtain ⟨a, ha, ha0, hab⟩ := hattraction
  have hgrow : (2 : ℚ) ^ (955 : ℤ) ≤ 2 ^ (959 : ℤ) := zpow_le_zpow_right₀ one_le_two (by decide)
  exact bounded_sub hr ha hlimit (abs_sub_le_of_nonneg_of_le hr0 hrb ha0 (hab.trans hgrow))

/-- A direction times a size. -/
theorem bounded_component {e : ℤ} (hlow : -1075 ≤ e) (hhigh : e ≤ 1022) (hx : Bounded 2 x)
    (hy : Bounded (2 ^ e) y) : Bounded (2 ^ (e + 1)) (x * y) := by
  obtain ⟨p, hp, hpb⟩ := hx
  obtain ⟨q, hq, hqb⟩ := hy
  refine bounded_mul hp hq (isExact_zpow (by omega) (by omega)) ?_
  calc |p * q| = |p| * |q| := abs_mul p q
    _ ≤ 2 * 2 ^ e := by gcongr
    _ = 2 ^ (e + 1) := (zpow_succ_two e).symm

/-- The force between two elements. -/
theorem bounded_force (h : Fits b side rest k) (hgentle : Gentle b k weight) (same : Bool)
    (hp : InSquare side p) (hq : InSquare side q) :
    BoundedForce (2 ^ (960 : ℤ)) (force rest same p q weight) := by
  obtain ⟨δ, hx, hδ⟩ := bounded_difference h.nonneg h.le h.side_le hp.1 hq.1
  obtain ⟨ε, hy, hε⟩ := bounded_difference h.nonneg h.le h.side_le hp.2 hq.2
  obtain ⟨s, hs, hlow, hhigh, hreachx, hreachy⟩ :=
    toRat?_squaredDistance h.nonneg h.le hx hy hδ hε
  obtain ⟨ρ, hρ, hρlow, hreach⟩ := toRat?_distance hs hlow
  have hsize : Bounded (2 ^ (959 : ℤ)) (if same then 0.0 else
      magnitude rest ((p.x - q.x) * (p.x - q.x) + (p.y - q.y) * (p.y - q.y) + softening) weight) := by
    split
    · exact bounded_zero (zpow_pos two_pos _).le
    · exact bounded_magnitude h hgentle hs hlow hhigh
  have hproduct {z : Float} (hz : Bounded 2 z) :=
    bounded_component (e := 959) (by decide) (by decide) hz hsize
  exact ⟨hproduct (bounded_direction hx hρ hρlow (hreach δ hreachx)),
    hproduct (bounded_direction hy hρ hρlow (hreach ε hreachy))⟩

/-- The net force on an element, however many others there are. -/
theorem bounded_netForce {positions : List (Point Float)} {weights : Matrix}
    (h : Fits b side rest k) (hweights : ∀ row ∈ weights, ∀ weight ∈ row, Gentle b k weight)
    (hpositions : ∀ q ∈ positions, InSquare side q) (i : ℕ) (hp : InSquare side p) :
    BoundedForce (2 ^ (1014 : ℤ)) (netForce rest positions weights i p) := by
  have hzero : BoundedForce (2 ^ (1014 : ℤ)) ⟨0.0, 0.0⟩ :=
    ⟨bounded_zero (zpow_pos two_pos _).le, bounded_zero (zpow_pos two_pos _).le⟩
  have hrow : ∀ weight ∈ weights.getD i [], Gentle b k weight := by
    rw [List.getD_eq_getElem?_getD]
    cases hget : weights[i]? with
    | none => simp
    | some row => exact hweights row (List.mem_of_getElem? hget)
  refine List.foldlRecOn _ _ hzero fun sum hsum ((q, weight), j) hmem => ?_
  have hpair := List.of_mem_zip (List.fst_mem_of_mem_zipIdx hmem)
  have hf := bounded_force h (hrow weight hpair.2) (i == j) hp (hpositions q hpair.1)
  exact ⟨hsum.1.add_term (e := 960) (by decide) (by decide) hf.1,
    hsum.2.add_term (e := 960) (by decide) (by decide) hf.2⟩

end Landscape.Layout
