import Landscape.Proofs.Cycle.Detection
import Landscape.Proofs.Detection.Degrees

/-!
# The severity of an element

The severity of an element is the greatest of those of the findings that concern it, and zero where
none does. Of what a detection finds, a cycle and a degree that reaches its limit are critical,
isolation is of medium gravity, and nothing lies between these: the bands of high and of low
severity stay empty.
-/

namespace Landscape

/-- A ratio is the greatest of the severities of the findings that concern an element. -/
structure IsGreatestAt (findings : List Finding) (id : Text) (q : Rat) : Prop where
  nonneg : 0 ≤ q
  attained : q = 0 ∨ ∃ f ∈ findings, id ∈ f.elements ∧ f.severity = .ratio q
  bounds : ∀ f ∈ findings, id ∈ f.elements → ∀ p, f.severity = .ratio p → p ≤ q

/-- Exact severities are compared as ratios. -/
theorem Severity.max_ratio (p q : Rat) :
    (Severity.ratio p).max (.ratio q) = .ratio (Max.max p q) := by
  rw [Severity.max, Severity.lt, max_def]
  by_cases h : p < q
  · rw [if_pos (decide_eq_true h), if_pos h.le]
  · rw [if_neg (by simpa using h)]
    split
    next hle => rw [le_antisymm hle (not_lt.mp h)]
    · rfl

/-- A severity that is noted at some elements leaves all others as they are. -/
theorem severityOf_foldl {found : List (Text × Severity)} {ids : List Text} {id : Text} {p q : Rat}
    (h : severityOf found id = .ratio p) :
    severityOf (ids.foldl (fun found id => Entries.alter found id .none (·.max (.ratio q))) found)
      id = .ratio (if id ∈ ids then max p q else p) := by
  induction ids generalizing found p with
  | nil => exact h
  | cons first ids ih =>
    rw [List.foldl_cons]
    by_cases hid : id = first
    · subst hid
      have hnoted : severityOf (Entries.alter found id .none (·.max (.ratio q))) id =
          .ratio (max p q) := by
        rw [← Severity.max_ratio, ← h, severityOf, Entries.alter, Entries.lookup_put_self]
        rfl
      rw [ih hnoted, if_pos List.mem_cons_self, max_assoc, max_self, ite_self]
    · have hkept : severityOf (Entries.alter found first .none (·.max (.ratio q))) id = .ratio p := by
        rw [← h, severityOf, Entries.alter, Entries.lookup_put_of_ne _ _ hid]
        rfl
      rw [ih hkept]
      simp only [List.mem_cons, hid, false_or]

/-- The severities with those of one finding more. -/
theorem severities_append_singleton (findings : List Finding) (f : Finding) :
    severities (findings ++ [f]) = f.elements.foldl
      (fun found id => Entries.alter found id .none (·.max f.severity)) (severities findings) := by
  rw [severities, List.foldl_append, List.foldl_cons, List.foldl_nil]
  rfl

/-- The severity of an element is the greatest there is. -/
theorem severityOf_severities {findings : List Finding}
    (hexact : ∀ f ∈ findings, ∃ q, f.severity = .ratio q) (id : Text) :
    ∃ q, severityOf (severities findings) id = .ratio q ∧ IsGreatestAt findings id q := by
  induction findings using List.reverseRecOn with
  | nil => exact ⟨0, rfl, le_rfl, .inl rfl, fun _ h => nomatch h⟩
  | append_singleton findings f ih =>
    obtain ⟨p, hp, hnonneg, hattained, hbounds⟩ :=
      ih fun f' hf' => hexact f' (List.mem_append_left _ hf')
    obtain ⟨q, hq⟩ := hexact f (List.mem_append_right _ (List.mem_singleton_self f))
    refine ⟨_, by rw [severities_append_singleton, hq, severityOf_foldl hp], ?_⟩
    by_cases hid : id ∈ f.elements
    · rw [if_pos hid]
      refine ⟨le_max_of_le_left hnonneg, ?_, ?_⟩
      · rcases le_total p q with hle | hle
        · exact .inr ⟨f, by simp, hid, by rw [max_eq_right hle, hq]⟩
        · rw [max_eq_left hle]
          exact hattained.imp_right fun ⟨f', hf', h⟩ => ⟨f', List.mem_append_left _ hf', h⟩
      · intro f' hf' hid' p' hp'
        rcases List.mem_append.mp hf' with hf' | hf'
        · exact le_max_of_le_left (hbounds f' hf' hid' p' hp')
        · rw [List.mem_singleton.mp hf', hq] at hp'
          exact le_max_of_le_right (Severity.ratio.inj hp').ge
    · rw [if_neg hid]
      refine ⟨hnonneg, ?_, ?_⟩
      · exact hattained.imp_right fun ⟨f', hf', h⟩ => ⟨f', List.mem_append_left _ hf', h⟩
      · intro f' hf' hid' p' hp'
        rcases List.mem_append.mp hf' with hf' | hf'
        · exact hbounds f' hf' hid' p' hp'
        · exact absurd (List.mem_singleton.mp hf' ▸ hid') hid

namespace Model

variable {m : Model} {limits : Limits} {id : Text} {f : Finding}

/-- An id is on a cycle that is reported. -/
def InReportedCycle (m : Model) (limits : Limits) (id : Text) : Prop :=
  ∃ f ∈ m.detect limits, f.smell = .cycle ∧ id ∈ f.elements

/-- An id is on a cycle that is reported, or one of its degrees reaches its limit. -/
def IsGrave (m : Model) (limits : Limits) (id : Text) : Prop :=
  m.InReportedCycle limits id ∨ limits.bottleneck.IsReached (m.fanIn id) ∨
    limits.overCoupling.IsReached (m.fanOut id)

/-- Isolated elements are reported, and no relation names an id. -/
def IsLone (m : Model) (limits : Limits) (id : Text) : Prop :=
  limits.isolated = true ∧ ∀ r ∈ m.relations, r.source ≠ id ∧ r.target ≠ id

/-- What is found is the cycle of the search, or something about the degrees of an element. -/
theorem mem_detect_iff : f ∈ m.detect limits ↔
    (∃ cycle, m.findCycle = some cycle ∧ f = Finding.ofCycle cycle) ∨
      ∃ e ∈ m.elements, f ∈ m.fanInFindings limits e.id ∨ f ∈ m.fanOutFindings limits e.id ∨
        f ∈ m.isolationFindings limits e.id := by
  simp only [detect, degreeFindings_eq, List.mem_append, List.mem_flatMap, Option.mem_toList,
    Option.map_eq_some_iff, @eq_comm _ f, or_assoc]

/-- The severities that are found are exact, and everything that is found has one. -/
theorem exists_pos_of_mem_detect (h : f ∈ m.detect limits) :
    ∃ q, f.severity = .ratio q ∧ 0 < q := by
  rcases mem_detect_iff.mp h with ⟨cycle, -, rfl⟩ | ⟨e, -, h | h | h⟩
  · exact ⟨1, rfl, one_pos⟩
  · obtain ⟨q, hreached, rfl⟩ := mem_fanInFindings_iff.mp h
    exact ⟨_, rfl, one_pos.trans_le (Limit.one_le_div_of_reachedBy hreached)⟩
  · obtain ⟨q, hreached, rfl⟩ := mem_fanOutFindings_iff.mp h
    exact ⟨_, rfl, one_pos.trans_le (Limit.one_le_div_of_reachedBy hreached)⟩
  · obtain ⟨-, rfl⟩ := mem_isolationFindings_iff.mp h
    exact ⟨_, rfl, by decide +kernel⟩

/-- The severities that are found are exact. -/
theorem exists_ratio_of_mem_detect (h : f ∈ m.detect limits) : ∃ q, f.severity = .ratio q :=
  (exists_pos_of_mem_detect h).imp fun _ hq => hq.1

/-- What is found about an element makes it grave, or it is lone and of medium gravity. -/
theorem isGrave_or_isLone_of_mem (h : f ∈ m.detect limits) (hid : id ∈ f.elements) :
    m.IsGrave limits id ∨ m.IsLone limits id ∧ f.severity = .ratio (3 / 10) := by
  rcases mem_detect_iff.mp h with ⟨cycle, -, rfl⟩ | ⟨e, -, hf | hf | hf⟩
  · exact .inl (.inl ⟨_, h, rfl, hid⟩)
  · obtain ⟨q, hreached, rfl⟩ := mem_fanInFindings_iff.mp hf
    obtain rfl := List.mem_singleton.mp hid
    exact .inl (.inr (.inl (Limit.isReached_iff.mpr ⟨q, hreached⟩)))
  · obtain ⟨q, hreached, rfl⟩ := mem_fanOutFindings_iff.mp hf
    obtain rfl := List.mem_singleton.mp hid
    exact .inl (.inr (.inr (Limit.isReached_iff.mpr ⟨q, hreached⟩)))
  · obtain ⟨⟨hon, hdegrees⟩, rfl⟩ := mem_isolationFindings_iff.mp hf
    obtain rfl := List.mem_singleton.mp hid
    exact .inr ⟨⟨hon, fanIn_fanOut_eq_zero_iff.mp hdegrees⟩, rfl⟩

/-- Something critical is found about a grave element. -/
theorem exists_critical_of_isGrave {e : Element} (he : e ∈ m.elements)
    (h : m.IsGrave limits e.id) :
    ∃ f ∈ m.detect limits, e.id ∈ f.elements ∧ ∃ q, f.severity = .ratio q ∧ 1 ≤ q := by
  rcases h with ⟨f, hf, hsmell, hid⟩ | h | h
  · rcases mem_detect_iff.mp hf with ⟨cycle, -, rfl⟩ | ⟨e', -, h⟩
    · exact ⟨_, hf, hid, 1, rfl, le_rfl⟩
    · have hdegree : f ∈ m.degreeFindings limits e'.id := by
        simpa only [degreeFindings_eq, List.mem_append, or_assoc] using h
      exact absurd hsmell (smell_of_mem_degreeFindings hdegree)
  · obtain ⟨q, hreached⟩ := Limit.isReached_iff.mp h
    exact ⟨_, mem_detect_iff.mpr (.inr ⟨e, he, .inl (mem_fanInFindings_iff.mpr ⟨q, hreached, rfl⟩)⟩),
      List.mem_singleton_self _, _, rfl, Limit.one_le_div_of_reachedBy hreached⟩
  · obtain ⟨q, hreached⟩ := Limit.isReached_iff.mp h
    exact ⟨_, mem_detect_iff.mpr
        (.inr ⟨e, he, .inr (.inl (mem_fanOutFindings_iff.mpr ⟨q, hreached, rfl⟩))⟩),
      List.mem_singleton_self _, _, rfl, Limit.one_le_div_of_reachedBy hreached⟩

/-- A lone element is reported as isolated. -/
theorem mem_detect_of_isLone {e : Element} (he : e ∈ m.elements) (h : m.IsLone limits e.id) :
    Finding.ofIsolated e.id ∈ m.detect limits :=
  mem_detect_iff.mpr (.inr ⟨e, he, .inr (.inr
    (mem_isolationFindings_iff.mpr ⟨⟨h.1, fanIn_fanOut_eq_zero_iff.mpr h.2⟩, rfl⟩))⟩)

/-- A grave element is critical, any other one that is lone is of medium severity, and all others are
healthy. -/
theorem level_severityOf {e : Element} (he : e ∈ m.elements) :
    (m.IsGrave limits e.id →
      (severityOf (severities (m.detect limits)) e.id).level = .critical) ∧
    (¬m.IsGrave limits e.id → m.IsLone limits e.id →
      (severityOf (severities (m.detect limits)) e.id).level = .medium) ∧
    (¬m.IsGrave limits e.id → ¬m.IsLone limits e.id →
      (severityOf (severities (m.detect limits)) e.id).level = .healthy) := by
  obtain ⟨q, hq, hnonneg, hattained, hbounds⟩ := severityOf_severities
    (fun f (hf : f ∈ m.detect limits) => exists_ratio_of_mem_detect hf) e.id
  rw [hq]
  refine ⟨fun hgrave => ?_, fun hgrave hlone => ?_, fun hgrave hlone => ?_⟩
  · obtain ⟨f, hf, hid, p, hp, hone⟩ := exists_critical_of_isGrave he hgrave
    have hle : 1 ≤ q := hone.trans (hbounds f hf hid p hp)
    exact if_pos (decide_eq_true hle)
  · have hle : 3 / 10 ≤ q :=
      hbounds _ (mem_detect_of_isLone he hlone) (List.mem_singleton_self _) _ rfl
    rcases hattained with rfl | ⟨f, hf, hid, hsame⟩
    · exact absurd hle (by decide +kernel)
    · obtain ⟨-, hmedium⟩ := (isGrave_or_isLone_of_mem hf hid).resolve_left hgrave
      obtain rfl := Severity.ratio.inj (hsame.symm.trans hmedium)
      decide +kernel
  · rcases hattained with rfl | ⟨f, hf, hid, -⟩
    · decide +kernel
    · exact absurd ((isGrave_or_isLone_of_mem hf hid).resolve_left hgrave).1 hlone

end Model

end Landscape
