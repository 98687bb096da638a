import Landscape.Proofs.Cycle.Detection
import Landscape.Proofs.Cycle.Recursion

/-!
# The search on a graph without repetitions

An id that is met again is passed over: a target that has been looked at lies on the path or has been
visited by then, and so has a start. The search therefore finds the same when repeated elements and
repeated relations are left out, and two models that agree then have the same cycle, whatever else
their elements and relations say and in whatever order relations of different ids come.
-/

namespace Landscape.CycleSearch

/--
A sweep goes through a list of ids in order, with a set of ids that have been visited. Some ids close
it, whatever follows them. Any other one is passed over if it has been visited; if not, what follows
is met when the id and perhaps more has been visited.
-/
structure Sweeps {β : Type} (closes : Text → Prop) (sweep : Finset Text → List Text → β) :
    Prop where
  close : ∀ {visited a ids ids'}, closes a → sweep visited (a :: ids) = sweep visited (a :: ids')
  pass : ∀ {visited a ids}, ¬closes a → a ∈ visited → sweep visited (a :: ids) = sweep visited ids
  enter : ∀ {visited a ids ids'}, ¬closes a → a ∉ visited →
    (∀ after, insert a visited ⊆ after → sweep after ids = sweep after ids') →
    sweep visited (a :: ids) = sweep visited (a :: ids')

namespace Sweeps

variable {β : Type} {closes : Text → Prop} {sweep : Finset Text → List Text → β}
  {visited : Finset Text} {a : Text}

/-- What has been visited may be left out of what is to come. -/
theorem filter_ne (h : Sweeps closes sweep) (hcloses : ¬closes a) (ha : a ∈ visited)
    (ids : List Text) : sweep visited ids = sweep visited (ids.filter fun b => !b == a) := by
  induction ids generalizing visited with
  | nil => rfl
  | cons b ids ih =>
    by_cases hba : b = a
    · subst hba
      rw [h.pass hcloses ha, List.filter_cons_of_neg (by simp), ih ha]
    · rw [List.filter_cons_of_pos (by simpa using hba)]
      by_cases hb : closes b
      · exact h.close hb
      by_cases hvisited : b ∈ visited
      · rw [h.pass hb hvisited, h.pass hb hvisited, ih ha]
      · exact h.enter hb hvisited fun after hafter => ih (hafter (Finset.mem_insert_of_mem ha))

/-- Each id counts where it comes first. -/
theorem eraseDups (h : Sweeps closes sweep) (visited : Finset Text) :
    (ids : List Text) → sweep visited ids = sweep visited ids.eraseDups
  | [] => rfl
  | a :: ids => by
    rw [List.eraseDups_cons]
    by_cases hcloses : closes a
    · exact h.close hcloses
    have hrest (after : Finset Text) (ha : a ∈ after) :
        sweep after ids = sweep after (ids.filter fun b => !b == a).eraseDups := by
      rw [h.filter_ne hcloses ha ids, h.eraseDups after (ids.filter fun b => !b == a)]
    by_cases ha : a ∈ visited
    · rw [h.pass hcloses ha, h.pass hcloses ha, hrest visited ha]
    · exact h.enter hcloses ha fun after hafter => hrest after (hafter (Finset.mem_insert_self a _))
termination_by ids => ids.length
decreasing_by exact Nat.lt_succ_of_le (List.length_filter_le _ ids)

end Sweeps

/-- A cycle ends a visit; otherwise the next targets are looked at with what has been visited. -/
def Ending.andLook (e : Ending) (next : Finset Text → Ending) : Ending :=
  match e with
  | .found cycle => .found cycle
  | .finished after => next after

variable {m m' : Model} {path targets : List Text} {visited : Finset Text} {a target : Text}

/-- What comes after a visit matters only for what it can end with. -/
theorem Ending.Extends.andLook_congr {e : Ending} {next next' : Finset Text → Ending}
    (h : e.Extends visited) (hnext : ∀ after, visited ⊆ after → next after = next' after) :
    e.andLook next = e.andLook next' := by
  cases e with
  | found cycle => rfl
  | finished after => exact hnext after h

/-- The same holds at the end of the whole search. -/
theorem Ending.Extends.andThen_congr {e : Ending} {next next' : Finset Text → Option (List Text)}
    (h : e.Extends visited) (hnext : ∀ after, visited ⊆ after → next after = next' after) :
    e.andThen next = e.andThen next' := by
  cases e with
  | found cycle => rfl
  | finished after => exact hnext after h

/-- A visit looks at the targets of the id, which is marked. -/
theorem visit_eq (ha : a ∉ visited) :
    (visit m path visited a ha).1 =
      (look m (path ++ [a]) (insert a visited) (m.targets a)).1 := by
  rw [visit]

/-- After a visit the id is marked. -/
theorem extends_visit (ha : a ∉ visited) :
    (visit m path visited a ha).1.Extends (insert a visited) := by
  rw [visit_eq]
  exact (look m (path ++ [a]) (insert a visited) (m.targets a)).2

theorem look_close (h : target ∈ path) :
    (look m path visited (target :: targets)).1 = .found (path.dropWhile (· != target)) := by
  rw [look, if_pos h]

theorem look_pass (hpath : target ∉ path) (h : target ∈ visited) :
    (look m path visited (target :: targets)).1 = (look m path visited targets).1 := by
  rw [look, if_neg hpath, dif_pos h]

theorem look_enter (hpath : target ∉ path) (h : target ∉ visited) :
    (look m path visited (target :: targets)).1 =
      (visit m path visited target h).1.andLook fun after => (look m path after targets).1 := by
  rw [look, if_neg hpath, dif_neg h]
  split
  next hvisit =>
    rw [hvisit]
    rfl
  next hvisit =>
    rw [hvisit]
    rfl

/-- To look at targets is a sweep, which the ids on the path close. -/
theorem sweeps_look (m : Model) (path : List Text) :
    Sweeps (· ∈ path) fun visited targets => (look m path visited targets).1 where
  close h := by rw [look_close h, look_close h]
  pass hpath h := look_pass hpath h
  enter hpath h hafter := by
    rw [look_enter hpath h, look_enter hpath h]
    exact (extends_visit h).andLook_congr hafter

/-- To visit starts is a sweep, which nothing closes. -/
theorem sweeps_visitAll (m : Model) : Sweeps (fun _ => False) (visitAll m) where
  close h := h.elim
  pass _ h := by rw [visitAll, dif_pos h]
  enter _ h hafter := by
    rw [visitAll, visitAll, dif_neg h, dif_neg h]
    exact (extends_visit h).andThen_congr hafter

-- An id is marked before its targets are looked at, and a target is visited before the next one.
mutual

/-- An id is visited in the same way in two models with the same targets. -/
theorem visit_congr (htargets : ∀ a, (m.targets a).eraseDups = (m'.targets a).eraseDups)
    (path : List Text) (visited : Finset Text) (a : Text) (ha : a ∉ visited) :
    (visit m path visited a ha).1 = (visit m' path visited a ha).1 := by
  rw [visit_eq, visit_eq, look_congr htargets (path ++ [a]) (insert a visited) (m.targets a),
    (sweeps_look m' (path ++ [a])).eraseDups, htargets a,
    ← (sweeps_look m' (path ++ [a])).eraseDups]
termination_by 2 * untouched m visited + 1
decreasing_by
  have huntouched := @untouched_insert m visited a ha
  omega

/-- The same targets are looked at in the same way. -/
theorem look_congr (htargets : ∀ a, (m.targets a).eraseDups = (m'.targets a).eraseDups)
    (path : List Text) (visited : Finset Text) : (targets : List Text) →
    (look m path visited targets).1 = (look m' path visited targets).1
  | [] => by rw [look, look]
  | target :: targets => by
    by_cases hpath : target ∈ path
    · rw [look_close hpath, look_close hpath]
    by_cases h : target ∈ visited
    · rw [look_pass hpath h, look_pass hpath h, look_congr htargets path visited targets]
    rw [look_enter hpath h, look_enter hpath h, visit_congr htargets path visited target h]
    refine (extends_visit h).andLook_congr fun after hafter => ?_
    exact look_congr htargets path after targets
termination_by targets => 2 * (untouched m visited + targets.length)
decreasing_by
  all_goals simp only [List.length_cons]
  · omega
  · omega
  · have hle := @untouched_anti m visited after ((Finset.subset_insert _ _).trans hafter)
    omega

end

/-- All starts are visited in the same way. -/
theorem visitAll_congr (htargets : ∀ a, (m.targets a).eraseDups = (m'.targets a).eraseDups)
    (starts : List Text) : visitAll m visited starts = visitAll m' visited starts := by
  induction starts generalizing visited with
  | nil => rfl
  | cons start starts ih =>
    rw [visitAll, visitAll]
    by_cases h : start ∈ visited
    · rw [dif_pos h, dif_pos h, ih]
    · rw [dif_neg h, dif_neg h, visit_congr htargets]
      exact (extends_visit h).andThen_congr fun after _ => ih

end Landscape.CycleSearch

namespace Landscape.Model

open CycleSearch

variable {m m' : Model}

/-- The cycle that is found depends on nothing but the ids and the targets without repetitions. -/
theorem findCycle_congr
    (hids : (m.elements.map (·.id)).eraseDups = (m'.elements.map (·.id)).eraseDups)
    (htargets : ∀ a, (m.targets a).eraseDups = (m'.targets a).eraseDups) :
    m.findCycle = m'.findCycle := by
  calc m.findCycle = visitAll m ∅ (m.elements.map (·.id)) := by
        rw [findCycle_eq_resumed, resumed_start]
    _ = visitAll m ∅ (m.elements.map (·.id)).eraseDups := (sweeps_visitAll m).eraseDups _ _
    _ = visitAll m' ∅ (m'.elements.map (·.id)).eraseDups := by rw [hids, visitAll_congr htargets]
    _ = visitAll m' ∅ (m'.elements.map (·.id)) := ((sweeps_visitAll m').eraseDups _ _).symm
    _ = m'.findCycle := by rw [findCycle_eq_resumed, resumed_start]

/--
The cycle that is reported depends only on the simple graph in its order. Two models whose elements
have the same ids, repetitions left out, and whose ids have the same targets, repetitions left out,
have the same cycle reported, with its ids in the same order, or none of them has one.
-/
theorem detect_cycle_of_simple_graph
    (hids : (m.elements.map (·.id)).eraseDups = (m'.elements.map (·.id)).eraseDups)
    (htargets : ∀ id, (m.targets id).eraseDups = (m'.targets id).eraseDups)
    (limits limits' : Limits) :
    (m.detect limits).filter (·.smell = .cycle) = (m'.detect limits').filter (·.smell = .cycle) := by
  rw [filter_cycle_detect, filter_cycle_detect, findCycle_congr hids htargets]

/-- Only the ids that relations lead from have targets to compare. -/
theorem eraseDups_targets_of_sources
    (h : ∀ r ∈ m.relations ++ m'.relations,
      (m.targets r.source).eraseDups = (m'.targets r.source).eraseDups) (id : Text) :
    (m.targets id).eraseDups = (m'.targets id).eraseDups := by
  by_cases hsource : ∃ r ∈ m.relations ++ m'.relations, r.source = id
  · obtain ⟨r, hr, rfl⟩ := hsource
    exact h r hr
  · have hnone : ∀ r ∈ m.relations ++ m'.relations, ¬(r.source == id) = true := by
      intro r hr hid
      exact hsource ⟨r, hr, beq_iff_eq.mp hid⟩
    rw [List.forall_mem_append] at hnone
    rw [targets, targets, List.filter_eq_nil_iff.mpr hnone.1, List.filter_eq_nil_iff.mpr hnone.2]

/-- An element declared twice, a parallel relation that comes last and relations of other ids in
between, next to the same graph without them and with other names: the same cycle of three. -/
theorem detect_cycle_of_simple_graph_of_twins :
    let m : Model :=
      { elements := [{ id := "a", name := "A", kind := .system },
          { id := "b", name := "B", kind := .person }, { id := "a", name := "C", kind := .person }]
        relations := [{ source := "a", target := "b" }, { source := "b", target := "c" },
          { source := "a", target := "d" }, { source := "c", target := "a" },
          { source := "a", target := "b", weight := 2.0 }] }
    let m' : Model :=
      { elements := [{ id := "a", name := "X", kind := .container },
          { id := "b", name := "Y", kind := .component, position := some ⟨1.0, 2.0⟩ }]
        relations := [{ source := "c", target := "a", weight := 3.0 }, { source := "a", target := "b" },
          { source := "a", target := "d" }, { source := "b", target := "c" }] }
    let limits : Limits := ⟨.never, .never, true⟩
    let limits' : Limits := ⟨.ratio 1 (by decide), .never, false⟩
    (m.elements.map (·.id)).eraseDups = (m'.elements.map (·.id)).eraseDups ∧
      (∀ id, (m.targets id).eraseDups = (m'.targets id).eraseDups) ∧
      (m.detect limits).filter (·.smell = .cycle) = [Finding.ofCycle ["a", "b", "c"]] ∧
      (m'.detect limits').filter (·.smell = .cycle) = [Finding.ofCycle ["a", "b", "c"]] := by
  intro m m' limits limits'
  have hids : (m.elements.map (·.id)).eraseDups = (m'.elements.map (·.id)).eraseDups := by
    decide +kernel
  have htargets := @eraseDups_targets_of_sources m m' (by decide +kernel)
  have hring : (m.detect limits).filter (·.smell = .cycle) = [Finding.ofCycle ["a", "b", "c"]] := by
    decide +kernel
  exact ⟨hids, htargets, hring,
    (detect_cycle_of_simple_graph hids htargets limits limits').symm.trans hring⟩

end Landscape.Model
