import Landscape.Detection
import Mathlib.Algebra.Order.Field.Basic
import Mathlib.Data.Rat.Cast.Order

/-!
# Findings about degrees

What is found about the degrees of an element, case by case: a limit is reached by the relations
that lead to it, a limit is reached by those that lead from it, or no relation names it. Each case
has a smell of its own, and a degree that reaches its limit has a severity of at least one.
-/

namespace Landscape

/-- A degree reaches a limit. -/
def Limit.IsReached (limit : Limit) (degree : Nat) : Prop :=
  match limit with
  | .ratio q _ => q ≤ degree
  | .never => False

namespace Limit

variable {limit : Limit} {degree : Nat} {q : Rat}

/-- The number of a limit that is reached. -/
theorem reachedBy_eq_some_iff :
    limit.reachedBy degree = some q ↔ ∃ h, limit = .ratio q h ∧ q ≤ degree := by
  cases limit with
  | never => simp [reachedBy]
  | ratio p hp =>
    simp only [reachedBy, Option.ite_none_right_eq_some, Option.some.injEq, ratio.injEq]
    constructor
    · rintro ⟨hle, rfl⟩
      exact ⟨hp, rfl, hle⟩
    · rintro ⟨_, rfl, hle⟩
      exact ⟨hle, rfl⟩

/-- A limit has a number to report exactly where it is reached. -/
theorem isReached_iff : limit.IsReached degree ↔ ∃ q, limit.reachedBy degree = some q := by
  simp only [reachedBy_eq_some_iff]
  cases limit with
  | never => simp [IsReached]
  | ratio p hp =>
    constructor
    · exact fun h => ⟨p, hp, rfl, h⟩
    · rintro ⟨q, _, heq, hle⟩
      obtain rfl := (ratio.inj heq)
      exact hle

/-- A limit that is reached stays so when the degree grows, and it has the same number. -/
theorem reachedBy_mono {degree' : Nat} (hle : degree ≤ degree')
    (h : limit.reachedBy degree = some q) : limit.reachedBy degree' = some q := by
  obtain ⟨hq, rfl, hreached⟩ := reachedBy_eq_some_iff.mp h
  have hcast : (degree : Rat) ≤ degree' := by exact_mod_cast hle
  exact reachedBy_eq_some_iff.mpr ⟨hq, rfl, hreached.trans hcast⟩

/-- A degree that reaches its limit is at least as great as it. -/
theorem one_le_div_of_reachedBy (h : limit.reachedBy degree = some q) : 1 ≤ (degree : Rat) / q := by
  obtain ⟨hq, -, hreached⟩ := reachedBy_eq_some_iff.mp h
  have hpos : 0 < q := lt_of_lt_of_le one_pos hq
  rwa [le_div_iff₀ hpos, one_mul]

end Limit

namespace Model

variable {m : Model} {limits : Limits} {id : Text} {f : Finding}

/-- What the relations that lead to an element amount to. -/
def fanInFindings (m : Model) (limits : Limits) (id : Text) : List Finding :=
  ((limits.bottleneck.reachedBy (m.fanIn id)).map (Finding.ofFanIn id (m.fanIn id))).toList

/-- What the relations that lead from an element amount to. -/
def fanOutFindings (m : Model) (limits : Limits) (id : Text) : List Finding :=
  ((limits.overCoupling.reachedBy (m.fanOut id)).map (Finding.ofFanOut id (m.fanOut id))).toList

/-- What it amounts to that no relation names an element. -/
def isolationFindings (m : Model) (limits : Limits) (id : Text) : List Finding :=
  if limits.isolated && m.fanIn id == 0 && m.fanOut id == 0 then [Finding.ofIsolated id] else []

theorem degreeFindings_eq (m : Model) (limits : Limits) (id : Text) :
    m.degreeFindings limits id =
      m.fanInFindings limits id ++ m.fanOutFindings limits id ++ m.isolationFindings limits id :=
  rfl

theorem mem_fanInFindings_iff : f ∈ m.fanInFindings limits id ↔
    ∃ q, limits.bottleneck.reachedBy (m.fanIn id) = some q ∧
      f = Finding.ofFanIn id (m.fanIn id) q := by
  simp only [fanInFindings, Option.mem_toList, Option.map_eq_some_iff, @eq_comm _ f]

theorem mem_fanOutFindings_iff : f ∈ m.fanOutFindings limits id ↔
    ∃ q, limits.overCoupling.reachedBy (m.fanOut id) = some q ∧
      f = Finding.ofFanOut id (m.fanOut id) q := by
  simp only [fanOutFindings, Option.mem_toList, Option.map_eq_some_iff, @eq_comm _ f]

theorem mem_isolationFindings_iff : f ∈ m.isolationFindings limits id ↔
    (limits.isolated = true ∧ m.fanIn id = 0 ∧ m.fanOut id = 0) ∧ f = Finding.ofIsolated id := by
  unfold isolationFindings
  split
  next h =>
    simp only [Bool.and_eq_true, beq_iff_eq, and_assoc] at h
    simp [h]
  next h =>
    simp only [Bool.and_eq_true, beq_iff_eq, and_assoc] at h
    simp [h]

/-- The findings of chosen smells about degrees, element by element. -/
theorem filter_detect (m : Model) (limits : Limits) (chosen : Smell → Bool)
    (hcycle : chosen .cycle = false) :
    (m.detect limits).filter (fun f => chosen f.smell) = m.elements.flatMap fun e =>
      (if chosen .bottleneck then m.fanInFindings limits e.id else []) ++
      (if chosen .overCoupling then m.fanOutFindings limits e.id else []) ++
      (if chosen .isolated then m.isolationFindings limits e.id else []) := by
  have hsame (smell : Smell) {fs : List Finding} (h : ∀ f ∈ fs, f.smell = smell) :
      fs.filter (fun f => chosen f.smell) = if chosen smell then fs else [] := by
    split
    next hchosen => exact List.filter_eq_self.mpr fun f hf => by rw [h f hf, hchosen]
    next hchosen => exact List.filter_eq_nil_iff.mpr fun f hf => by rwa [h f hf]
  have hfound : (m.findCycle.map Finding.ofCycle).toList.filter (fun f => chosen f.smell) = [] := by
    rw [hsame .cycle, hcycle]
    · rfl
    · intro f hf
      obtain ⟨cycle, -, rfl⟩ := Option.map_eq_some_iff.mp (Option.mem_toList.mp hf)
      rfl
  rw [detect, List.filter_append, hfound, List.nil_append, List.filter_flatMap]
  congr 1
  funext e
  rw [degreeFindings_eq, List.filter_append, List.filter_append, hsame .bottleneck,
    hsame .overCoupling, hsame .isolated]
  · intro f hf
    rw [(mem_isolationFindings_iff.mp hf).2]
    rfl
  · intro f hf
    obtain ⟨q, -, rfl⟩ := mem_fanOutFindings_iff.mp hf
    rfl
  · intro f hf
    obtain ⟨q, -, rfl⟩ := mem_fanInFindings_iff.mp hf
    rfl

/-- No relation leads to an id and none leads from it exactly when none names it. -/
theorem fanIn_fanOut_eq_zero_iff :
    (m.fanIn id = 0 ∧ m.fanOut id = 0) ↔ ∀ r ∈ m.relations, r.source ≠ id ∧ r.target ≠ id := by
  simp only [fanIn, fanOut, List.countP_eq_zero, beq_iff_eq]
  constructor
  · rintro ⟨htarget, hsource⟩ r hr
    exact ⟨hsource r hr, htarget r hr⟩
  · intro h
    exact ⟨fun r hr => (h r hr).2, fun r hr => (h r hr).1⟩

end Model

end Landscape
