import Landscape.Layout.Quality
import Mathlib.Algebra.Order.Field.Basic
import Mathlib.Algebra.Order.Field.Rat
import Mathlib.Order.Interval.Set.Defs
import Mathlib.Tactic.FieldSimp
import Mathlib.Tactic.LinearCombination
import Mathlib.Tactic.Linarith
import Mathlib.Tactic.Ring

/-!
# Where segments cross

An orientation tells on which side of a line a point lies, and along a segment it changes evenly from
the one end to the other. So it vanishes inside a segment whose ends lie on different sides, and two
segments whose ends lie on different sides of each other meet there. Over exact numbers the test by
four orientations is this meeting of inner points.
-/

namespace Landscape.Layout

open Set

variable {p₁ p₂ q₁ q₂ : Point ℚ} {a b s t : ℚ}

/-- Twice the signed area between the directions of two segments, zero when they are parallel. -/
def turn (p₁ p₂ q₁ q₂ : Point ℚ) : ℚ :=
  (p₂.x - p₁.x) * (q₂.y - q₁.y) - (p₂.y - p₁.y) * (q₂.x - q₁.x)

/-- The point that lies a part of the way along a segment. -/
def along (p₁ p₂ : Point ℚ) (s : ℚ) : Point ℚ :=
  ⟨p₁.x + s * (p₂.x - p₁.x), p₁.y + s * (p₂.y - p₁.y)⟩

@[simp] theorem along_zero (p₁ p₂ : Point ℚ) : along p₁ p₂ 0 = p₁ := by simp [along]

@[simp] theorem along_one (p₁ p₂ : Point ℚ) : along p₁ p₂ 1 = p₂ := by simp [along]

/-- Along a segment an orientation changes evenly. -/
theorem orientation_along (q₁ q₂ p₁ p₂ : Point ℚ) (s : ℚ) :
    orientation q₁ q₂ (along p₁ p₂ s) =
      (1 - s) * orientation q₁ q₂ p₁ + s * orientation q₁ q₂ p₂ := by
  simp only [orientation, along]
  ring

/-- No point of a line lies beside it. -/
theorem orientation_along_self (q₁ q₂ : Point ℚ) (t : ℚ) :
    orientation q₁ q₂ (along q₁ q₂ t) = 0 := by
  simp only [orientation, along]
  ring

/-- The ends of a segment differ in orientation by the turn towards it. -/
theorem orientation_sub_orientation (p₁ p₂ q₁ q₂ : Point ℚ) :
    orientation p₁ p₂ q₂ - orientation p₁ p₂ q₁ = turn p₁ p₂ q₁ q₂ := by
  simp only [orientation, turn]
  ring

/-- Turning back is turning the other way. -/
theorem turn_swap (p₁ p₂ q₁ q₂ : Point ℚ) : turn q₁ q₂ p₁ p₂ = -turn p₁ p₂ q₁ q₂ := by
  simp only [turn]
  ring

/-- A point is parallel to every segment. -/
theorem turn_of_point (h : p₁ = p₂ ∨ q₁ = q₂) : turn p₁ p₂ q₁ q₂ = 0 := by
  rcases h with rfl | rfl <;> simp [turn]

/-- The ends of a segment that is not parallel to a line do not lie equally far beside it. -/
theorem orientation_ne (h : turn p₁ p₂ q₁ q₂ ≠ 0) :
    orientation p₁ p₂ q₁ ≠ orientation p₁ p₂ q₂ := by
  rw [← orientation_sub_orientation] at h
  exact (sub_ne_zero.mp h).symm

/-- Two points of lines that are not parallel are one where each of them lies on the other's line. -/
theorem along_eq_along_iff (h : turn p₁ p₂ q₁ q₂ ≠ 0) :
    along p₁ p₂ s = along q₁ q₂ t ↔
      orientation q₁ q₂ (along p₁ p₂ s) = 0 ∧ orientation p₁ p₂ (along q₁ q₂ t) = 0 := by
  constructor
  · intro heq
    have hself := orientation_along_self p₁ p₂ s
    rw [heq] at hself
    exact ⟨heq ▸ orientation_along_self q₁ q₂ t, hself⟩
  · rintro ⟨hp, hq⟩
    simp only [orientation, along] at hp hq
    simp only [along, Point.mk.injEq]
    -- The turn times each coordinate of the difference is zero.
    simp only [turn] at h
    constructor
    · refine mul_left_cancel₀ h ?_
      linear_combination (-(p₂.x - p₁.x)) * hp - (q₂.x - q₁.x) * hq
    · refine mul_left_cancel₀ h ?_
      linear_combination (-(p₂.y - p₁.y)) * hp - (q₂.y - q₁.y) * hq

/-- Two numbers differ in sign when they differ and zero lies evenly between them. -/
theorem mul_neg_iff_exists_between :
    a * b < 0 ↔ a ≠ b ∧ ∃ s ∈ Ioo (0 : ℚ) 1, (1 - s) * a + s * b = 0 := by
  constructor
  · intro h
    have hne : a ≠ b := by
      rintro rfl
      exact absurd h (not_lt.mpr (mul_self_nonneg a))
    have hsub : a - b ≠ 0 := sub_ne_zero.mpr hne
    refine ⟨hne, a / (a - b), ?_, by field_simp; ring⟩
    rcases mul_neg_iff.mp h with ⟨ha, hb⟩ | ⟨ha, hb⟩
    · exact ⟨div_pos ha (by linarith), (div_lt_one (by linarith)).mpr (by linarith)⟩
    · exact ⟨div_pos_of_neg_of_neg ha (by linarith),
        (div_lt_one_of_neg (by linarith)).mpr (by linarith)⟩
  · rintro ⟨hne, s, ⟨hpos, hlt⟩, hzero⟩
    have hb : b ≠ 0 := by
      rintro rfl
      have ha : (1 - s) * a = 0 := by linarith
      exact hne ((mul_eq_zero.mp ha).resolve_left (by linarith))
    have hscaled : (1 - s) * (a * b) = -(s * (b * b)) := by linear_combination b * hzero
    have hneg : (1 - s) * (a * b) < 0 := by
      rw [hscaled]
      exact neg_neg_of_pos (mul_pos hpos (mul_self_pos.mpr hb))
    exact neg_of_mul_neg_right hneg (by linarith)

theorem segmentsCross_eq_true_iff : segmentsCross p₁ p₂ q₁ q₂ = true ↔
    orientation q₁ q₂ p₁ * orientation q₁ q₂ p₂ < 0 ∧
      orientation p₁ p₂ q₁ * orientation p₁ p₂ q₂ < 0 := by
  simp only [segmentsCross, Bool.and_eq_true, decide_eq_true_eq]

/-- Segments cross when they are not parallel and have an inner point in common. -/
theorem segmentsCross_iff : segmentsCross p₁ p₂ q₁ q₂ = true ↔
    turn p₁ p₂ q₁ q₂ ≠ 0 ∧
      ∃ s ∈ Ioo (0 : ℚ) 1, ∃ t ∈ Ioo (0 : ℚ) 1, along p₁ p₂ s = along q₁ q₂ t := by
  rw [segmentsCross_eq_true_iff, mul_neg_iff_exists_between, mul_neg_iff_exists_between]
  simp only [← orientation_along]
  constructor
  · rintro ⟨⟨-, s, hs, hp⟩, hne, t, ht, hq⟩
    have hturn : turn p₁ p₂ q₁ q₂ ≠ 0 := by
      rw [← orientation_sub_orientation]
      exact sub_ne_zero.mpr hne.symm
    exact ⟨hturn, s, hs, t, ht, (along_eq_along_iff hturn).mpr ⟨hp, hq⟩⟩
  · rintro ⟨hturn, s, hs, t, ht, heq⟩
    have hback : turn q₁ q₂ p₁ p₂ ≠ 0 := by rwa [turn_swap, neg_ne_zero]
    obtain ⟨hp, hq⟩ := (along_eq_along_iff hturn).mp heq
    exact ⟨⟨orientation_ne hback, s, hs, hp⟩, orientation_ne hturn, t, ht, hq⟩

/-- A segment that has an end on the line of the other one does not cross it. -/
theorem segmentsCross_of_end (hend : s = 0 ∨ s = 1) (hline : orientation q₁ q₂ (along p₁ p₂ s) = 0) :
    segmentsCross p₁ p₂ q₁ q₂ = false := by
  have hproduct : orientation q₁ q₂ p₁ * orientation q₁ q₂ p₂ = 0 := by
    rcases hend with rfl | rfl
    · rw [along_zero] at hline
      rw [hline, zero_mul]
    · rw [along_one] at hline
      rw [hline, mul_zero]
  rw [Bool.eq_false_iff, Ne, segmentsCross_eq_true_iff, hproduct]
  exact fun h => lt_irrefl 0 h.1

/-- Either of two segments crosses the other one, however exact the arithmetic is: the same four
orientations are computed. -/
theorem segmentsCross_swap {α : Type} [Sub α] [Mul α] [OfNat α 0] [LT α] [DecidableLT α]
    (p₁ p₂ q₁ q₂ : Point α) : segmentsCross q₁ q₂ p₁ p₂ = segmentsCross p₁ p₂ q₁ q₂ :=
  Bool.and_comm _ _

/-- It makes no difference which end of the second segment comes first. -/
theorem segmentsCross_reverse (p₁ p₂ q₁ q₂ : Point ℚ) :
    segmentsCross p₁ p₂ q₂ q₁ = segmentsCross p₁ p₂ q₁ q₂ := by
  have hreverse (p : Point ℚ) : orientation q₂ q₁ p = -orientation q₁ q₂ p := by
    simp only [orientation]
    ring
  simp only [segmentsCross, hreverse, neg_mul_neg, mul_comm (orientation p₁ p₂ q₂)]

/--
Two segments count as crossing exactly when they are not parallel and have an inner point of both in
common. Parallel segments do not, be they apart, on one line, overlapping or only a point, and
neither do segments that touch in an end of one of them. Reversing a segment and swapping the two
make no difference.
-/
theorem segmentsCross_meets_inside (p₁ p₂ q₁ q₂ : Point ℚ) :
    (segmentsCross p₁ p₂ q₁ q₂ = true ↔
      turn p₁ p₂ q₁ q₂ ≠ 0 ∧
        ∃ s ∈ Ioo (0 : ℚ) 1, ∃ t ∈ Ioo (0 : ℚ) 1, along p₁ p₂ s = along q₁ q₂ t) ∧
    ((p₁ = p₂ ∨ q₁ = q₂) ∨ turn p₁ p₂ q₁ q₂ = 0 → segmentsCross p₁ p₂ q₁ q₂ = false) ∧
    (∀ s t, along p₁ p₂ s = along q₁ q₂ t → (s = 0 ∨ s = 1) ∨ t = 0 ∨ t = 1 →
      segmentsCross p₁ p₂ q₁ q₂ = false) ∧
    segmentsCross p₂ p₁ q₁ q₂ = segmentsCross p₁ p₂ q₁ q₂ ∧
    segmentsCross p₁ p₂ q₂ q₁ = segmentsCross p₁ p₂ q₁ q₂ ∧
    segmentsCross q₁ q₂ p₁ p₂ = segmentsCross p₁ p₂ q₁ q₂ := by
  refine ⟨segmentsCross_iff, fun hparallel => ?_, fun s t heq hend => ?_, ?_,
    segmentsCross_reverse p₁ p₂ q₁ q₂, segmentsCross_swap p₁ p₂ q₁ q₂⟩
  · rw [Bool.eq_false_iff, Ne, segmentsCross_iff]
    exact fun h => h.1 (hparallel.elim turn_of_point id)
  · rcases hend with hs | ht
    · exact segmentsCross_of_end hs (heq ▸ orientation_along_self q₁ q₂ t)
    · rw [← segmentsCross_swap]
      exact segmentsCross_of_end ht (heq ▸ orientation_along_self p₁ p₂ s)
  · rw [← segmentsCross_swap, segmentsCross_reverse, segmentsCross_swap]

/-- The diagonals of a square cross in its centre; a segment that ends there touches the diagonals,
and one that lies on a diagonal overlaps it. -/
theorem segmentsCross_meets_inside_of_diagonals :
    let corner : ℚ → ℚ → Point ℚ := Point.mk
    (segmentsCross (corner 0 0) (corner 2 2) (corner 2 0) (corner 0 2) = true ∧
      turn (corner 0 0) (corner 2 2) (corner 2 0) (corner 0 2) ≠ 0) ∧
    (along (corner 0 0) (corner 2 2) (1 / 2) = along (corner 1 1) (corner 1 5) 0 ∧
      segmentsCross (corner 0 0) (corner 2 2) (corner 1 1) (corner 1 5) = false) ∧
    turn (corner 0 0) (corner 2 2) (corner 1 1) (corner 3 3) = 0 ∧
      segmentsCross (corner 0 0) (corner 2 2) (corner 1 1) (corner 3 3) = false := by
  intro corner
  have hturn : turn (corner 0 0) (corner 2 2) (corner 2 0) (corner 0 2) ≠ 0 := by decide +kernel
  have hcentre : along (corner 0 0) (corner 2 2) (1 / 2) =
      along (corner 2 0) (corner 0 2) (1 / 2) := by decide +kernel
  have htouch : along (corner 0 0) (corner 2 2) (1 / 2) = along (corner 1 1) (corner 1 5) 0 := by
    decide +kernel
  have hparallel : turn (corner 0 0) (corner 2 2) (corner 1 1) (corner 3 3) = 0 := by
    decide +kernel
  have hhalf : (1 / 2 : ℚ) ∈ Ioo (0 : ℚ) 1 := ⟨by decide +kernel, by decide +kernel⟩
  exact ⟨⟨(segmentsCross_meets_inside _ _ _ _).1.mpr
      ⟨hturn, 1 / 2, hhalf, 1 / 2, hhalf, hcentre⟩, hturn⟩,
    ⟨htouch, (segmentsCross_meets_inside _ _ _ _).2.2.1 _ _ htouch (.inr (.inl rfl))⟩,
    hparallel, (segmentsCross_meets_inside _ _ _ _).2.1 (.inr hparallel)⟩

end Landscape.Layout
