import Landscape.Detection
import Landscape.Proofs.Cycle.Progress
import Landscape.Proofs.Cycle.Trail

/-!
# What the detection of cycles says about a model

The search ends, and it ends with a cycle exactly when the elements of a model reach one. A
detection reports that cycle first and no other.
-/

namespace Landscape

namespace CycleSearch

variable {m : Model}

/-- The outcome of a search that goes on from any of its states: a cycle that elements reach, or the
knowledge that there is none. -/
theorem run_correct : ∀ (steps : Nat) {s : State}, Explored m s →
    (∀ {cycle}, run m steps s = .found cycle → m.IsCycle cycle ∧ ∀ a ∈ cycle, m.IsReached a) ∧
      (run m steps s = .acyclic → ∀ a, m.IsReached a → ¬m.OnCycle a) := by
  intro steps
  induction steps with
  | zero =>
    intro s _
    constructor
    · intro cycle h
      cases h
    · intro h
      cases h
  | succ steps ih =>
    intro s hs
    rw [run]
    cases hstep : step m s with
    | searching t => exact ih (hs.advances (advances_of_step hstep))
    | found cycle =>
      constructor
      · intro found h
        obtain rfl := Outcome.found.inj h
        obtain ⟨current, target, pending, below, hstack, hprogress, rfl⟩ := found_of_step hstep
        exact hs.isCycle_path hstack hprogress
      · intro h
        cases h
    | acyclic =>
      constructor
      · intro found h
        cases h
      · intro _ a ha
        obtain ⟨hstack, hstarts⟩ := acyclic_of_step hstep
        exact hs.not_onCycle_of_empty hstack hstarts ha

end CycleSearch

namespace Model

variable {m : Model}

/-- What is found is a cycle, and elements reach it. -/
theorem isCycle_of_findCycle {cycle : List Text} (h : m.findCycle = some cycle) :
    m.IsCycle cycle ∧ ∀ a ∈ cycle, m.IsReached a := by
  unfold findCycle at h
  split at h
  next found hfound =>
    obtain rfl := Option.some.inj h
    exact (CycleSearch.run_correct _ (CycleSearch.explored_start m)).1 hfound
  · cases h

/-- Where nothing is found, elements reach no cycle. -/
theorem not_onCycle_of_findCycle (h : m.findCycle = none) {a : Text} (ha : m.IsReached a) :
    ¬m.OnCycle a := by
  unfold findCycle at h
  split at h
  · cases h
  next hnot =>
    cases hrun : CycleSearch.run m (CycleSearch.bound m) (CycleSearch.start m) with
    | searching t =>
      exact absurd hrun (CycleSearch.run_ne_searching _ _ (CycleSearch.work_start m) t)
    | found cycle => exact absurd hrun (hnot cycle)
    | acyclic => exact (CycleSearch.run_correct _ (CycleSearch.explored_start m)).2 hrun a ha

/-- A cycle is found exactly when elements reach an id that lies on one. -/
theorem findCycle_isSome_iff : m.findCycle.isSome ↔ ∃ a, m.IsReached a ∧ m.OnCycle a := by
  cases h : m.findCycle with
  | none =>
    refine ⟨(nomatch ·), ?_⟩
    rintro ⟨a, hreached, hcycle⟩
    exact absurd hcycle (not_onCycle_of_findCycle h hreached)
  | some cycle =>
    obtain ⟨hcycle, hreached⟩ := isCycle_of_findCycle h
    exact ⟨fun _ => ⟨_, hreached _ (List.head_mem hcycle.ne_nil), hcycle.onCycle_head⟩,
      fun _ => rfl⟩

/-- Findings about degrees are of other smells. -/
theorem smell_of_mem_degreeFindings {limits : Limits} {id : Text} {f : Finding}
    (h : f ∈ m.degreeFindings limits id) : f.smell ≠ .cycle := by
  simp only [degreeFindings, List.mem_append, Option.mem_toList, Option.map_eq_some_iff] at h
  rcases h with (⟨q, _, rfl⟩ | ⟨q, _, rfl⟩) | hf
  · exact (nomatch ·)
  · exact (nomatch ·)
  · split at hf
    · rw [List.mem_singleton.mp hf]
      exact (nomatch ·)
    · cases hf

/-- The cycle that is found is the only finding of a cycle. -/
theorem filter_cycle_detect (limits : Limits) :
    (m.detect limits).filter (·.smell = .cycle) = (m.findCycle.map Finding.ofCycle).toList := by
  have hcycle : (m.findCycle.map Finding.ofCycle).toList.filter (·.smell = .cycle) =
      (m.findCycle.map Finding.ofCycle).toList := by
    cases m.findCycle <;> rfl
  have hdegrees : (m.elements.flatMap fun e => m.degreeFindings limits e.id).filter
      (·.smell = .cycle) = [] := by
    rw [List.filter_eq_nil_iff]
    intro f hf
    obtain ⟨e, _, hfe⟩ := List.mem_flatMap.mp hf
    simpa using smell_of_mem_degreeFindings hfe
  rw [detect, List.filter_append, hcycle, hdegrees, List.append_nil]

/-- The findings of cycles are those of the search. -/
theorem mem_detect_cycle_iff {limits : Limits} {f : Finding} : f ∈ m.detect limits ∧ f.smell = .cycle ↔
    ∃ cycle, m.findCycle = some cycle ∧ f = Finding.ofCycle cycle := by
  have hfilter := congrArg (f ∈ ·) (filter_cycle_detect (m := m) limits)
  simpa [Option.map_eq_some_iff, @eq_comm _ f] using hfilter

/-- A detection reports a cycle exactly when an element reaches an id that lies on a directed cycle.
The report comes first, there is no other of its kind, its ids go once around a directed cycle, and
elements reach all of them. -/
theorem detect_cycle_iff (m : Model) (limits : Limits) :
    ((∃ f ∈ m.detect limits, f.smell = .cycle) ↔
      ∃ e ∈ m.elements, ∃ a, m.Reaches e.id a ∧ m.OnCycle a) ∧
    ∀ f ∈ m.detect limits, f.smell = .cycle →
      (m.detect limits).head? = some f ∧ (m.detect limits).filter (·.smell = .cycle) = [f] ∧
      m.IsCycle f.elements ∧ ∀ a ∈ f.elements, ∃ e ∈ m.elements, m.Reaches e.id a := by
  have hmem (f : Finding) : (f ∈ m.detect limits ∧ f.smell = .cycle) ↔
      ∃ cycle, m.findCycle = some cycle ∧ Finding.ofCycle cycle = f := by
    have hfilter := congrArg (f ∈ ·) (filter_cycle_detect (m := m) limits)
    simpa [Option.map_eq_some_iff] using hfilter
  constructor
  · have hreached : (∃ e ∈ m.elements, ∃ a, m.Reaches e.id a ∧ m.OnCycle a) ↔
        ∃ a, m.IsReached a ∧ m.OnCycle a := by
      constructor
      · rintro ⟨e, he, a, hea, ha⟩
        exact ⟨a, ⟨e, he, hea⟩, ha⟩
      · rintro ⟨a, ⟨e, he, hea⟩, ha⟩
        exact ⟨e, he, a, hea, ha⟩
    rw [hreached, ← findCycle_isSome_iff, Option.isSome_iff_exists]
    constructor
    · rintro ⟨f, hf, hsmell⟩
      obtain ⟨cycle, hcycle, _⟩ := (hmem f).mp ⟨hf, hsmell⟩
      exact ⟨cycle, hcycle⟩
    · rintro ⟨cycle, hcycle⟩
      exact ⟨_, (hmem _).mpr ⟨cycle, hcycle, rfl⟩⟩
  · intro f hf hsmell
    obtain ⟨cycle, hcycle, rfl⟩ := (hmem f).mp ⟨hf, hsmell⟩
    obtain ⟨hcycle', hreached⟩ := isCycle_of_findCycle hcycle
    refine ⟨?_, ?_, hcycle', hreached⟩
    · rw [detect, hcycle]
      rfl
    · rw [filter_cycle_detect, hcycle]
      rfl

/-- A cycle through an id that no element has. -/
theorem detect_cycle_through_undeclared :
    let m : Model :=
      { elements := [{ id := "a", name := "A", kind := .system }]
        relations := [{ source := "a", target := "b" }, { source := "b", target := "a" }] }
    let limits : Limits := ⟨.never, .never, true⟩
    let f := Finding.ofCycle ["a", "b"]
    f ∈ m.detect limits ∧ f.smell = .cycle ∧
      (m.detect limits).head? = some f ∧ (m.detect limits).filter (·.smell = .cycle) = [f] ∧
      m.IsCycle f.elements ∧ ∀ a ∈ f.elements, ∃ e ∈ m.elements, m.Reaches e.id a := by
  intro m limits f
  have hf : f ∈ m.detect limits := by decide +kernel
  exact ⟨hf, rfl, (m.detect_cycle_iff limits).2 f hf rfl⟩

end Model

end Landscape
