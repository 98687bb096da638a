import Landscape.Proofs.Cycle.Detection
import Landscape.Proofs.Detection.Degrees
import Mathlib.Data.List.Forall2

/-!
# Detection while a model grows

What a relation or an element adds to a model takes no finding away, but for those of elements that
were isolated and are so no more. A relation may change the way of the search, and with it the cycle
that is found: that one is found at all follows from what the search finds, not from how. An element
changes nothing of the way up to it.
-/

namespace Landscape

namespace Model

variable {m : Model} {r : Relation} {a b : Text}

/-- Every arc stays one. -/
theorem Leads.addRelation (h : m.Leads a b) (r : Relation) : (m.addRelation r).Leads a b := by
  obtain ⟨r', hr', hends⟩ := h
  exact ⟨r', List.mem_append_left _ hr', hends⟩

/-- A cycle that is found does not vanish, though another one may be found. -/
theorem findCycle_addRelation (h : m.findCycle.isSome) (r : Relation) :
    (m.addRelation r).findCycle.isSome := by
  rw [findCycle_isSome_iff] at h ⊢
  obtain ⟨a, ⟨e, he, hreaches⟩, hcycle⟩ := h
  have hleads : m.Leads ≤ (m.addRelation r).Leads := fun _ _ hab => hab.addRelation r
  exact ⟨a, ⟨e, he, Relation.ReflTransGen.mono hleads _ _ hreaches⟩,
    Relation.TransGen.mono hleads _ _ hcycle⟩

/-- One relation more leads to its target. -/
theorem fanIn_addRelation (m : Model) (r : Relation) (id : Text) :
    (m.addRelation r).fanIn id = m.fanIn id + if r.target = id then 1 else 0 := by
  simp [fanIn, addRelation, List.countP_append, List.countP_singleton]

/-- One relation more leads from its source. -/
theorem fanOut_addRelation (m : Model) (r : Relation) (id : Text) :
    (m.addRelation r).fanOut id = m.fanOut id + if r.source = id then 1 else 0 := by
  simp [fanOut, addRelation, List.countP_append, List.countP_singleton]

end Model

/-- The end of a relation at which it counts for a smell of degrees. -/
def Smell.countedEnd (r : Relation) : Smell → Option Text
  | .bottleneck => some r.target
  | .overCoupling => some r.source
  | .cycle | .isolated => none

/-- How a finding about a degree follows from the one before a relation was added: the degree is
greater by one if the relation counts for it, and else nothing has changed. -/
structure Finding.Grows (r : Relation) (before after : Finding) : Prop where
  smell : after.smell = before.smell
  elements : after.elements = before.elements
  counted : before.elements = (before.smell.countedEnd r).toList →
    ∃ degree, before.degree = some degree ∧ after.degree = some (degree + 1)
  otherwise : before.elements ≠ (before.smell.countedEnd r).toList → after = before

namespace Model

open List (SublistForall₂)

variable {m : Model} {limits : Limits} {r : Relation} {id : Text}

/-- What is found about a degree that has reached its limit is found again when the degree grows. -/
theorem grows_of_reachedBy {limit : Limit} {before after : Nat} {counts : Prop} [Decidable counts]
    {find : Nat → Rat → Finding} (hafter : after = before + if counts then 1 else 0)
    (hgrows : ∀ q, (find before q).Grows r (find (before + if counts then 1 else 0) q)) :
    SublistForall₂ (Finding.Grows r) ((limit.reachedBy before).map (find before)).toList
      ((limit.reachedBy after).map (find after)).toList := by
  cases hreached : limit.reachedBy before with
  | none => exact .nil
  | some q =>
    rw [Limit.reachedBy_mono (by omega) hreached, hafter]
    exact .cons (hgrows q) .nil

/-- A bottleneck stays one. -/
theorem grows_fanInFindings (m : Model) (limits : Limits) (r : Relation) (id : Text) :
    SublistForall₂ (Finding.Grows r) (m.fanInFindings limits id)
      ((m.addRelation r).fanInFindings limits id) := by
  refine grows_of_reachedBy (fanIn_addRelation m r id) fun q => ?_
  by_cases htarget : r.target = id
  · rw [if_pos htarget]
    exact ⟨rfl, rfl, fun _ => ⟨m.fanIn id, rfl, rfl⟩, fun h => absurd (htarget ▸ rfl) h⟩
  · rw [if_neg htarget]
    exact ⟨rfl, rfl, fun h => absurd (List.singleton_inj.mp h).symm htarget, fun _ => rfl⟩

/-- An over-coupled element stays one. -/
theorem grows_fanOutFindings (m : Model) (limits : Limits) (r : Relation) (id : Text) :
    SublistForall₂ (Finding.Grows r) (m.fanOutFindings limits id)
      ((m.addRelation r).fanOutFindings limits id) := by
  refine grows_of_reachedBy (fanOut_addRelation m r id) fun q => ?_
  by_cases hsource : r.source = id
  · rw [if_pos hsource]
    exact ⟨rfl, rfl, fun _ => ⟨m.fanOut id, rfl, rfl⟩, fun h => absurd (hsource ▸ rfl) h⟩
  · rw [if_neg hsource]
    exact ⟨rfl, rfl, fun h => absurd (List.singleton_inj.mp h).symm hsource, fun _ => rfl⟩

/-- Lists one behind the other are related in parts. -/
theorem sublistForall₂_append {α β : Type} {R : α → β → Prop} {xs ys : List α} {us vs : List β}
    (h : SublistForall₂ R xs us) (h' : SublistForall₂ R ys vs) :
    SublistForall₂ R (xs ++ ys) (us ++ vs) := by
  induction h with
  | @nil us =>
    induction us with
    | nil => exact h'
    | cons u us ih => exact .cons_right ih
  | cons hR _ ih => exact .cons hR ih
  | cons_right _ ih => exact .cons_right ih

/-- Lists that are made item by item are related item by item. -/
theorem sublistForall₂_flatMap {α β γ : Type} {R : α → β → Prop} {items : List γ}
    {f : γ → List α} {g : γ → List β} (h : ∀ c ∈ items, SublistForall₂ R (f c) (g c)) :
    SublistForall₂ R (items.flatMap f) (items.flatMap g) := by
  induction items with
  | nil => exact .nil
  | cons c items ih =>
    rw [List.forall_mem_cons] at h
    exact sublistForall₂_append h.1 (ih h.2)

/-- An element that a new relation names is isolated no more; any other one is as before. -/
theorem isolationFindings_addRelation (m : Model) (limits : Limits) (r : Relation) (id : Text) :
    (m.addRelation r).isolationFindings limits id = (m.isolationFindings limits id).filter
      fun f => f.elements ≠ [r.source] ∧ f.elements ≠ [r.target] := by
  unfold isolationFindings
  rw [fanIn_addRelation, fanOut_addRelation]
  by_cases htarget : r.target = id
  · simp [htarget, Finding.ofIsolated, apply_ite (List.filter _)]
  by_cases hsource : r.source = id
  · simp [hsource, Finding.ofIsolated, apply_ite (List.filter _)]
  have hkept : (Finding.ofIsolated id).elements ≠ [r.source] ∧
      (Finding.ofIsolated id).elements ≠ [r.target] :=
    ⟨fun h => hsource (List.singleton_inj.mp h).symm,
      fun h => htarget (List.singleton_inj.mp h).symm⟩
  rw [if_neg htarget, if_neg hsource, Nat.add_zero, Nat.add_zero]
  split
  · exact (List.filter_eq_self.mpr fun f hf => by
      rw [List.mem_singleton.mp hf]
      exact decide_eq_true hkept).symm
  · rfl

end Model

namespace CycleSearch

/-- The state in which more starts are still to be visited in the end. -/
def State.before (s : State) (more : List Text) : State := { s with starts := s.starts ++ more }

variable {m : Model} {s t : State} {e : Element} {more : List Text} {cycle : List Text}

/-- What the search can do, it does. -/
theorem Advances.step_eq (h : Advances m s t) : step m s = .searching t := by
  cases h with
  | skip hstack hstarts hvisited =>
    simp only [step, hstack, hstarts]
    exact congrArg Outcome.searching (if_neg hvisited)
  | setOut hstack hstarts hunvisited =>
    simp only [step, hstack, hstarts]
    exact congrArg Outcome.searching (if_pos hunvisited)
  | finish hstack => simp only [step, hstack]
  | @pass current target pending below hstack hdone =>
    have hcolour : ({ s with stack := ⟨current, pending⟩ :: below } : State).colour target =
      .done := hdone
    simp only [step, hstack, hcolour]
  | @descend current target pending below hstack hunvisited =>
    have hcolour : ({ s with stack := ⟨current, pending⟩ :: below } : State).colour target =
      .unvisited := hunvisited
    simp only [step, hstack, hcolour]

/-- Neither what comes last nor an element bears on a step that goes on. -/
theorem Advances.before (h : Advances m s t) (e : Element) (more : List Text) :
    Advances (m.addElement e) (s.before more) (t.before more) := by
  cases h with
  | skip hstack hstarts hvisited =>
    exact .skip hstack (congrArg (· ++ more) hstarts) hvisited
  | @setOut start starts hstack hstarts hunvisited =>
    change Advances _ _ (State.push (m.addElement e)
      { s.before more with starts := starts ++ more } start)
    exact .setOut hstack (congrArg (· ++ more) hstarts) hunvisited
  | finish hstack => exact .finish hstack
  | pass hstack hdone => exact .pass hstack hdone
  | @descend current target pending below hstack hunvisited =>
    change Advances _ _ (State.push (m.addElement e)
      { s.before more with
        stack := ⟨current, pending⟩ :: below, parents := Entries.put s.parents target current }
      target)
    exact .descend hstack hunvisited

/-- Nor do they bear on a step that finds a cycle. -/
theorem found_before (h : step m s = .found cycle) (e : Element) (more : List Text) :
    step (m.addElement e) (s.before more) = .found cycle := by
  obtain ⟨current, target, pending, below, hstack, hprogress, rfl⟩ := found_of_step h
  have hstack' : (s.before more).stack = ⟨current, target :: pending⟩ :: below := hstack
  have hcolour : ({ s.before more with stack := ⟨current, pending⟩ :: below } : State).colour
    target = .inProgress := hprogress
  simp only [step, hstack', hcolour]
  rfl

/-- A cycle that is found in some steps is found in the same way with an element more. -/
theorem run_before {steps steps' : Nat} (hle : steps ≤ steps') (h : run m steps s = .found cycle)
    (e : Element) (more : List Text) :
    run (m.addElement e) steps' (s.before more) = .found cycle := by
  induction steps generalizing s steps' with
  | zero => cases h
  | succ steps ih =>
    obtain ⟨steps', rfl⟩ : ∃ n, steps' = n + 1 := ⟨steps' - 1, by omega⟩
    rw [run] at h ⊢
    cases hstep : step m s with
    | searching t =>
      rw [hstep] at h
      rw [((advances_of_step hstep).before e more).step_eq]
      exact ih (by omega) h
    | found found =>
      rw [hstep] at h
      obtain rfl := Outcome.found.inj h
      rw [found_before hstep]
    | acyclic =>
      rw [hstep] at h
      cases h

end CycleSearch

namespace Model

open List (SublistForall₂)

variable {m : Model} {limits : Limits}

/-- A cycle that is found is found again with an element more, the same one. -/
theorem findCycle_addElement {cycle : List Text} (h : m.findCycle = some cycle) (e : Element) :
    (m.addElement e).findCycle = some cycle := by
  unfold findCycle at h ⊢
  split at h
  next found hfound =>
    obtain rfl := Option.some.inj h
    have hbound : CycleSearch.bound m ≤ CycleSearch.bound (m.addElement e) := by
      simp only [CycleSearch.bound, addElement, List.length_append]
      omega
    have hstart : CycleSearch.start (m.addElement e) = (CycleSearch.start m).before [e.id] := by
      simp [CycleSearch.start, CycleSearch.State.before, addElement]
    rw [hstart, CycleSearch.run_before hbound hfound]
  · cases h

/-- Without the cycle, what is found is found element by element. -/
theorem filter_not_cycle_detect (m : Model) (limits : Limits) :
    (m.detect limits).filter (·.smell ≠ .cycle) =
      m.elements.flatMap fun e => m.degreeFindings limits e.id :=
  filter_detect m limits (· ≠ .cycle) rfl

/-- The bottlenecks and the over-coupled elements, element by element. -/
theorem filter_coupled_detect (m : Model) (limits : Limits) :
    (m.detect limits).filter (fun f => f.smell = .bottleneck ∨ f.smell = .overCoupling) =
      m.elements.flatMap fun e => m.fanInFindings limits e.id ++ m.fanOutFindings limits e.id := by
  have hparts := filter_detect m limits
    (fun smell => smell = .bottleneck ∨ smell = .overCoupling) rfl
  simpa using hparts

/-- The isolated elements, element by element. -/
theorem filter_isolated_detect (m : Model) (limits : Limits) :
    (m.detect limits).filter (·.smell = .isolated) =
      m.elements.flatMap fun e => m.isolationFindings limits e.id := by
  have hparts := filter_detect m limits (· = .isolated) rfl
  simpa using hparts

/-- What a model grows by takes no finding away.

A new relation keeps a cycle in the report, though perhaps another one. Each bottleneck and each
over-coupled element is reported as often as before and in the same order, with a degree that is
greater by one where the relation counts for it. The isolated elements are those that the relation
does not name. A new element keeps the cycle that was reported, and what is found about it follows
what was found about the others. -/
theorem detect_of_grown (m : Model) (limits : Limits) :
    (∀ r : Relation,
      ((∃ f ∈ m.detect limits, f.smell = .cycle) →
        ∃ f ∈ (m.addRelation r).detect limits, f.smell = .cycle) ∧
      SublistForall₂ (Finding.Grows r)
        ((m.detect limits).filter fun f => f.smell = .bottleneck ∨ f.smell = .overCoupling)
        (((m.addRelation r).detect limits).filter
          fun f => f.smell = .bottleneck ∨ f.smell = .overCoupling) ∧
      ((m.addRelation r).detect limits).filter (·.smell = .isolated) =
        ((m.detect limits).filter (·.smell = .isolated)).filter
          fun f => f.elements ≠ [r.source] ∧ f.elements ≠ [r.target]) ∧
    ∀ e : Element,
      (∀ f ∈ m.detect limits, f.smell = .cycle →
        ((m.addElement e).detect limits).filter (·.smell = .cycle) = [f]) ∧
      ((m.addElement e).detect limits).filter (·.smell ≠ .cycle) =
        (m.detect limits).filter (·.smell ≠ .cycle) ++
          (m.addElement e).degreeFindings limits e.id := by
  constructor
  · intro r
    refine ⟨?_, ?_, ?_⟩
    · rintro ⟨f, hf, hsmell⟩
      obtain ⟨cycle, hcycle, -⟩ := mem_detect_cycle_iff.mp ⟨hf, hsmell⟩
      have hsome := findCycle_addRelation (by rw [hcycle]; rfl) r
      obtain ⟨cycle', hcycle'⟩ := Option.isSome_iff_exists.mp hsome
      exact ⟨_, mem_detect_cycle_iff.mpr ⟨cycle', hcycle', rfl⟩⟩
    · rw [filter_coupled_detect, filter_coupled_detect]
      refine sublistForall₂_flatMap fun e _ => ?_
      exact sublistForall₂_append (grows_fanInFindings m limits r e.id)
        (grows_fanOutFindings m limits r e.id)
    · rw [filter_isolated_detect, filter_isolated_detect, List.filter_flatMap]
      exact congrArg (List.flatMap · m.elements)
        (funext fun e => isolationFindings_addRelation m limits r e.id)
  · intro e
    constructor
    · intro f hf hsmell
      obtain ⟨cycle, hcycle, rfl⟩ := mem_detect_cycle_iff.mp ⟨hf, hsmell⟩
      rw [filter_cycle_detect, findCycle_addElement hcycle]
      rfl
    · rw [filter_not_cycle_detect, filter_not_cycle_detect]
      exact List.flatMap_append.trans (congrArg (_ ++ ·) (List.flatMap_singleton ..))

/-- A ring with a bottleneck, before a relation leads to it from an isolated element and before an
element with the id of one that is there comes last. -/
theorem detect_of_grown_ring :
    let m : Model :=
      { elements := [{ id := "a", name := "A", kind := .system },
          { id := "c", name := "C", kind := .person }]
        relations := [{ source := "a", target := "b" }, { source := "b", target := "a" }] }
    let limits : Limits := ⟨.ratio 1 (by decide), .never, true⟩
    let r : Relation := { source := "c", target := "a" }
    let e : Element := { id := "a", name := "A", kind := .system }
    let f := Finding.ofCycle ["a", "b"]
    f ∈ m.detect limits ∧ f.smell = .cycle ∧
      (∃ f ∈ (m.addRelation r).detect limits, f.smell = .cycle) ∧
      ((m.addElement e).detect limits).filter (·.smell = .cycle) = [f] := by
  intro m limits r e f
  have hf : f ∈ m.detect limits := by decide +kernel
  obtain ⟨hrelation, helement⟩ := m.detect_of_grown limits
  exact ⟨hf, rfl, (hrelation r).1 ⟨f, hf, rfl⟩, (helement e).1 f hf rfl⟩

end Model

end Landscape
