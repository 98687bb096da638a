import Landscape.Proofs.Cycle.Progress
import Landscape.Proofs.Cycle.Trail
import Mathlib.Data.Finset.Basic

/-!
# The search as a recursion

A search without a stack visits an id by marking it and looking at its targets in order, where each
unvisited target is visited before the next one is looked at. The path that led to an id is handed
down with it, and a target on that path is the end of everything: the path from there on is the
cycle. The search with a stack finds the same, for its frames are what is left to do of the visits
that have begun, and its links lead back along the path.
-/

namespace Landscape.CycleSearch

open State

/-- How a visit ends: with a cycle, or with what has been visited after it. -/
inductive Ending where
  | found (cycle : List Text)
  | finished (visited : Finset Text)

/-- Nothing that was visited is forgotten. -/
def Ending.Extends (visited : Finset Text) : Ending → Prop
  | .found _ => True
  | .finished after => visited ⊆ after

theorem Ending.Extends.mono {e : Ending} {visited before : Finset Text} (h : e.Extends visited)
    (hle : before ⊆ visited) : e.Extends before := by
  cases e with
  | found cycle => trivial
  | finished after => exact hle.trans h

/-- A cycle ends the whole search; otherwise it goes on with what has been visited. -/
def Ending.andThen (e : Ending) (next : Finset Text → Option (List Text)) : Option (List Text) :=
  match e with
  | .found cycle => some cycle
  | .finished after => next after

/-- How many relations lead from ids that have not been visited. -/
def untouched (m : Model) (visited : Finset Text) : Nat :=
  m.relations.countP fun r => r.source ∉ visited

variable {m : Model}

/-- The relations of an id are untouched no more when it is visited. -/
theorem untouched_insert {visited : Finset Text} {a : Text} (ha : a ∉ visited) :
    untouched m (insert a visited) + (m.targets a).length = untouched m visited := by
  refine @countP_source_add_targets m (fun b => b ∉ insert a visited) (fun b => b ∉ visited) a
    (decide_eq_true ha) fun b => ?_
  by_cases hb : b = a
  · simp [hb]
  · simp [hb]

theorem untouched_anti {visited after : Finset Text} (h : visited ⊆ after) :
    untouched m after ≤ untouched m visited := by
  refine List.countP_mono_left fun r _ hr => ?_
  rw [decide_eq_true_iff] at hr ⊢
  exact fun hmem => hr (h hmem)

-- An id that is visited is marked, and as many relations as it has targets are then touched.
mutual

/-- Visit an id: mark it, and look at its targets with the id at the end of the path. -/
def visit (m : Model) (path : List Text) (visited : Finset Text) (id : Text) (_hid : id ∉ visited) :
    { e : Ending // e.Extends visited } :=
  match look m (path ++ [id]) (insert id visited) (m.targets id) with
  | ⟨e, he⟩ => ⟨e, he.mono (Finset.subset_insert id visited)⟩
termination_by 2 * untouched m visited + 1
decreasing_by
  have huntouched := @untouched_insert m visited id _hid
  omega

/-- Look at targets in turn: one on the path closes a cycle, which is the path from there on; one that
was visited elsewhere is passed over, and any other is visited. -/
def look (m : Model) (path : List Text) (visited : Finset Text) :
    (targets : List Text) → { e : Ending // e.Extends visited }
  | [] => ⟨.finished visited, Finset.Subset.refl visited⟩
  | target :: targets =>
    if target ∈ path then ⟨.found (path.dropWhile (· != target)), trivial⟩
    else if h : target ∈ visited then look m path visited targets
    else
      match visit m path visited target h with
      | ⟨.found cycle, _⟩ => ⟨.found cycle, trivial⟩
      | ⟨.finished after, hafter⟩ =>
        match look m path after targets with
        | ⟨e, he⟩ => ⟨e, he.mono hafter⟩
termination_by targets => 2 * (untouched m visited + targets.length)
decreasing_by
  all_goals simp only [List.length_cons]
  · omega
  · omega
  · have hle := @untouched_anti m visited after hafter
    omega

end

/-- Visit each start that has not been visited before, until a cycle is found. -/
def visitAll (m : Model) (visited : Finset Text) : (starts : List Text) → Option (List Text)
  | [] => none
  | start :: starts =>
    if h : start ∈ visited then visitAll m visited starts
    else (visit m [] visited start h).1.andThen fun after => visitAll m after starts

/-- The path that leads to the top of a stack. -/
def pathTo (stack : List Frame) : List Text := (stack.map Frame.id).reverse

/-- What is left to do of the visits on a stack: the pending targets of the top are looked at, then
those of the frame below it, and at last the starts are visited. -/
def resume (m : Model) : (stack : List Frame) → (visited : Finset Text) → (starts : List Text) →
    Option (List Text)
  | [], visited, starts => visitAll m visited starts
  | f :: below, visited, starts =>
    (look m (pathTo (f :: below)) visited f.pending).1.andThen fun after =>
      resume m below after starts

section Resume

variable {visited : Finset Text} {starts pending : List Text} {below : List Frame}
  {start current target : Text}

/-- A visit is what is left to do of it when it begins. -/
theorem visit_andThen (h : start ∉ visited) (path : List Text)
    (next : Finset Text → Option (List Text)) :
    (visit m path visited start h).1.andThen next =
      (look m (path ++ [start]) (insert start visited) (m.targets start)).1.andThen next := by
  rw [visit]

theorem resume_skip (h : start ∈ visited) :
    resume m [] visited (start :: starts) = resume m [] visited starts := by
  rw [resume, visitAll, dif_pos h, resume]

theorem resume_setOut (h : start ∉ visited) :
    resume m [] visited (start :: starts) =
      resume m [⟨start, m.targets start⟩] (insert start visited) starts := by
  rw [resume, visitAll, dif_neg h, visit_andThen]
  rfl

theorem resume_finish :
    resume m (⟨current, []⟩ :: below) visited starts = resume m below visited starts := by
  rw [resume, look, Ending.andThen]

theorem resume_close (h : target ∈ pathTo (⟨current, target :: pending⟩ :: below)) :
    resume m (⟨current, target :: pending⟩ :: below) visited starts =
      some ((pathTo (⟨current, target :: pending⟩ :: below)).dropWhile (· != target)) := by
  rw [resume, look, if_pos h, Ending.andThen]

theorem resume_pass (hpath : target ∉ pathTo (⟨current, target :: pending⟩ :: below))
    (h : target ∈ visited) :
    resume m (⟨current, target :: pending⟩ :: below) visited starts =
      resume m (⟨current, pending⟩ :: below) visited starts := by
  rw [resume, look, if_neg hpath, dif_pos h]
  rfl

/-- An unvisited target is visited, and then the next ones are looked at. -/
theorem resume_descend (hpath : target ∉ pathTo (⟨current, target :: pending⟩ :: below))
    (h : target ∉ visited) :
    resume m (⟨current, target :: pending⟩ :: below) visited starts =
      resume m (⟨target, m.targets target⟩ :: ⟨current, pending⟩ :: below) (insert target visited)
        starts := by
  have hlook (next : Finset Text → Option (List Text)) :
      (look m (pathTo (⟨current, target :: pending⟩ :: below)) visited (target :: pending)).1.andThen
          next =
        (visit m (pathTo (⟨current, target :: pending⟩ :: below)) visited target h).1.andThen
          fun after => (look m (pathTo (⟨current, pending⟩ :: below)) after pending).1.andThen
            next := by
    rw [look, if_neg hpath, dif_neg h]
    split
    next hvisit =>
      rw [hvisit]
      rfl
    next hvisit =>
      rw [hvisit]
      rfl
  have hpathTo : pathTo (⟨current, target :: pending⟩ :: below) ++ [target] =
      pathTo (⟨target, m.targets target⟩ :: ⟨current, pending⟩ :: below) := by simp [pathTo]
  rw [resume, hlook, visit_andThen, hpathTo]
  rfl

end Resume

namespace State

/-- The ids that a search has visited. -/
def marked (s : State) : Finset Text :=
  (Entries.keys s.colours).toFinset.filter (s.colour · ≠ .unvisited)

/-- What a search finds if it goes on as a recursion. -/
def resumed (m : Model) (s : State) : Option (List Text) := resume m s.stack s.marked s.starts

variable {s : State} {a : Text}

theorem mem_marked : a ∈ s.marked ↔ s.colour a ≠ .unvisited := by
  rw [marked, Finset.mem_filter, List.mem_toFinset, ← Entries.lookup_isSome_iff]
  refine and_iff_right_of_imp fun h => ?_
  cases hlookup : s.colours.lookup a with
  | none => exact absurd (by simp [colour, hlookup]) h
  | some c => rfl

/-- To put an id on the stack is to visit it. -/
theorem marked_push (m : Model) (s : State) (a : Text) :
    (push m s a).marked = insert a s.marked := by
  ext b
  rw [Finset.mem_insert, mem_marked, mem_marked, colour_push]
  by_cases hb : b = a
  · simp [hb]
  · simp [hb]

/-- Nothing is visited by taking a visited id off the stack. -/
theorem marked_finish (ha : s.colour a ≠ .unvisited) (below : List Frame) :
    ({ s.paint a .done with stack := below } : State).marked = s.marked := by
  ext b
  rw [mem_marked, mem_marked, colour_finish]
  by_cases hb : b = a
  · simp [hb, ha]
  · simp [hb]

end State

namespace Explored

variable {s t : State} {current target : Text} {pending : List Text} {below : List Frame}

/-- The path to the top of the stack holds the ids in progress. -/
theorem mem_pathTo (h : Explored m s) : target ∈ pathTo s.stack ↔ s.colour target = .inProgress := by
  rw [pathTo, List.mem_reverse]
  exact h.mem_trail target

/-- A target in progress closes the cycle in the recursion that is read off the links. -/
theorem resumed_of_inProgress (h : Explored m s)
    (hs : s.stack = ⟨current, target :: pending⟩ :: below)
    (hprogress : s.colour target = .inProgress) :
    s.resumed m = some (s.path target current) := by
  obtain ⟨above, rest, htrail⟩ := List.append_of_mem ((h.mem_trail target).mpr hprogress)
  have htop : s.trail.head? = some current := by simp [trail, hs]
  have hsplit : pathTo s.stack = rest.reverse ++ target :: above.reverse := by
    rw [pathTo, ← trail, htrail]
    simp
  have hrest : ∀ b ∈ rest.reverse, (b != target) = true := by
    intro b hb
    rw [bne_iff_ne]
    rintro rfl
    have hnodup := h.nodup
    rw [htrail] at hnodup
    exact (List.nodup_cons.mp (List.nodup_append.mp hnodup).2.1).1 (List.mem_reverse.mp hb)
  have hpath := h.mem_pathTo.mpr hprogress
  rw [h.path_eq htrail htop, resumed]
  rw [hs] at hsplit hpath ⊢
  rw [resume_close hpath, hsplit, List.dropWhile_append_of_pos hrest]
  simp

/-- A step goes on to where the recursion finds the same. -/
theorem resumed_eq_of_advances (h : Explored m s) (hst : Advances m s t) :
    t.resumed m = s.resumed m := by
  have hpath {target : Text} (hcolour : s.colour target ≠ .inProgress) : target ∉ pathTo s.stack :=
    mt h.mem_pathTo.mp hcolour
  have hfresh {a : Text} (hcolour : s.colour a = .unvisited) : a ∉ s.marked :=
    fun hmem => mem_marked.mp hmem hcolour
  unfold resumed
  cases hst with
  | skip hstack hstarts hvisited =>
    rw [hstack, hstarts, resume_skip (mem_marked.mpr hvisited)]
    rfl
  | @setOut start starts hstack hstarts hunvisited =>
    rw [marked_push, push_stack, hstack, hstarts, resume_setOut (hfresh hunvisited)]
    rfl
  | finish hstack =>
    rw [marked_finish (by simp [h.colour_top hstack]), hstack, resume_finish]
    rfl
  | @pass current target pending below hstack hdone =>
    have hnot : target ∉ pathTo s.stack := hpath (by simp [hdone])
    rw [hstack] at hnot ⊢
    rw [resume_pass hnot (mem_marked.mpr (by simp [hdone]))]
    rfl
  | @descend current target pending below hstack hunvisited =>
    have hnot : target ∉ pathTo s.stack := hpath (by simp [hunvisited])
    rw [hstack] at hnot
    rw [marked_push, push_stack, hstack, resume_descend hnot (hfresh hunvisited)]
    rfl

end Explored

/-- With steps enough, a search finds what its recursion finds. -/
theorem run_eq_resumed : ∀ (steps : Nat) {s : State}, Explored m s → work m s < steps →
    (∀ {cycle}, run m steps s = .found cycle → s.resumed m = some cycle) ∧
      (run m steps s = .acyclic → s.resumed m = none) := by
  intro steps
  induction steps with
  | zero =>
    intro s _ hwork
    omega
  | succ steps ih =>
    intro s hs hwork
    rw [run]
    cases hstep : step m s with
    | searching t =>
      have hst := advances_of_step hstep
      have hlt := work_lt_of_advances hst
      rw [← hs.resumed_eq_of_advances hst]
      exact ih (hs.advances hst) (by omega)
    | found cycle =>
      constructor
      · intro found h
        obtain rfl := Outcome.found.inj h
        obtain ⟨current, target, pending, below, hstack, hprogress, rfl⟩ := found_of_step hstep
        exact hs.resumed_of_inProgress hstack hprogress
      · intro h
        cases h
    | acyclic =>
      constructor
      · intro found h
        cases h
      · intro _
        obtain ⟨hstack, hstarts⟩ := acyclic_of_step hstep
        rw [resumed, hstack, hstarts, resume, visitAll]

/-- A search finds what it finds as a recursion from its beginning. -/
theorem findCycle_eq_resumed (m : Model) : m.findCycle = (start m).resumed m := by
  obtain ⟨hfound, hacyclic⟩ := run_eq_resumed (bound m) (explored_start m) (work_start m)
  rw [Model.findCycle]
  cases hrun : run m (bound m) (start m) with
  | searching s => exact absurd hrun (run_ne_searching _ _ (work_start m) s)
  | found cycle => exact (hfound hrun).symm
  | acyclic => exact (hacyclic hrun).symm

/-- The beginning of the search is a visit of all elements. -/
theorem resumed_start (m : Model) :
    (start m).resumed m = visitAll m ∅ (m.elements.map (·.id)) := rfl

end Landscape.CycleSearch

namespace Landscape.Model

open CycleSearch

/-- The cycle that a recursive search from each element in order finds. -/
def findCycleRecursively (m : Model) : Option (List Text) :=
  visitAll m ∅ (m.elements.map (·.id))

/--
The search with a stack of half-read lists of targets finds what the recursive search finds: the same
ids in the same order, or nothing.
-/
theorem findCycle_eq_findCycleRecursively (m : Model) : m.findCycle = m.findCycleRecursively := by
  rw [findCycle_eq_resumed, resumed_start]
  rfl

end Landscape.Model
