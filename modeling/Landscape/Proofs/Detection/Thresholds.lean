import Landscape.Proofs.Detection.Degrees
import Landscape.Proofs.Results

/-!
# Accepted thresholds

A configuration is accepted exactly when both of its thresholds are at least one, and what degrees
are compared with afterwards are the thresholds themselves. A limit that a configuration of other
numbers leads to is at least one as well, or no degree reaches it.
-/

namespace Landscape

/-- The number of a limit, if it has one. -/
def Limit.number? : Limit → Option Rat
  | .ratio q _ => some q
  | .never => none

namespace Limit

variable {limit : Limit} {degree : Nat} {q : Rat}

/-- Every limit is at least one. -/
theorem one_le_of_number? (h : limit.number? = some q) : 1 ≤ q := by
  cases limit with
  | ratio p hp => exact Option.some.inj h ▸ hp
  | never => cases h

/-- A degree reaches a limit by being at least its number. -/
theorem reachedBy_eq_some_iff_number? :
    limit.reachedBy degree = some q ↔ limit.number? = some q ∧ q ≤ degree := by
  rw [reachedBy_eq_some_iff]
  constructor
  · rintro ⟨hq, rfl, hle⟩
    exact ⟨rfl, hle⟩
  · rintro ⟨hnumber, hle⟩
    cases limit with
    | ratio p hp =>
      obtain rfl := Option.some.inj hnumber
      exact ⟨hp, rfl, hle⟩
    | never => cases hnumber

/-- No limit is reached by nothing. -/
theorem reachedBy_zero (limit : Limit) : limit.reachedBy 0 = none := by
  rw [Option.eq_none_iff_forall_ne_some]
  intro q hreached
  obtain ⟨hnumber, hle⟩ := reachedBy_eq_some_iff_number?.mp hreached
  exact absurd ((one_le_of_number? hnumber).trans hle) (by decide)

end Limit

namespace Thresholds

variable {key : String} {n : Int} {l : Limit} {t : Thresholds} {limits : Limits}

/-- An integer is a limit exactly when it is at least one. -/
theorem limit_eq_ok_iff :
    Limit.ofJson key (.int n) = .ok l ↔ ∃ h : 1 ≤ (n : Rat), l = .ratio n h := by
  simp only [Limit.ofJson, Limit.ofJson.ofRat]
  split
  next h => simp [h, eq_comm]
  next h =>
    -- the message of the refusal has to be spelled, and either way there is no limit
    cases (Json.int n).spell <;> simp [h]

/-- A configuration is accepted exactly when both thresholds are at least one, and then they are the
limits. -/
theorem check_eq_ok_iff : t.check = .ok limits ↔
    ∃ (h : 1 ≤ (t.bottleneck : Rat)) (h' : 1 ≤ (t.overCoupling : Rat)),
      limits = ⟨.ratio t.bottleneck h, .ratio t.overCoupling h', t.isolated⟩ := by
  simp only [check, bind_eq_ok_iff, limit_eq_ok_iff, pure_eq_ok, Except.ok.injEq]
  constructor
  · rintro ⟨_, ⟨h, rfl⟩, _, ⟨h', rfl⟩, rfl⟩
    exact ⟨h, h', rfl⟩
  · rintro ⟨h, h', rfl⟩
    exact ⟨_, ⟨h, rfl⟩, _, ⟨h', rfl⟩, rfl⟩

end Thresholds

end Landscape
