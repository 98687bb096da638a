import Landscape.Proofs.Cycle.Transition

/-!
# The search comes to its end

Every start is taken once, every relation is looked at once, and every id leaves the stack once.
What is left of these is a number that falls with every step, so the bound on the steps is never
met.
-/

namespace Landscape.CycleSearch

open State

/-- How many relations lead from unvisited ids. -/
def unseen (m : Model) (s : State) : Nat :=
  m.relations.countP fun r => s.colour r.source = .unvisited

/-- How many targets are pending on a stack. -/
def pendingCount : List Frame → Nat
  | [] => 0
  | f :: below => f.pending.length + pendingCount below

/-- What is left to do: starts and relations to look at, each of which may put an id on the stack,
and ids to take off the stack. -/
def work (m : Model) (s : State) : Nat :=
  2 * s.starts.length + 2 * (unseen m s + pendingCount s.stack) + s.stack.length

@[simp] theorem pendingCount_cons (f : Frame) (stack : List Frame) :
    pendingCount (f :: stack) = f.pending.length + pendingCount stack := rfl

variable {m : Model} {s t : State}

/-- A model is searched within twice as many steps as it has elements and relations. -/
theorem work_start (m : Model) : work m (start m) < bound m := by
  have hunseen : unseen m (start m) = m.relations.length := by
    rw [unseen, List.countP_eq_length]
    intro r _
    exact decide_eq_true rfl
  have hwork : work m (start m) =
      2 * (m.elements.map (·.id)).length + 2 * (unseen m (start m) + 0) + 0 := rfl
  rw [hwork, hunseen, List.length_map, bound]
  omega

/-- Relations that lead from an id count no more once the id does not. -/
theorem countP_source_add_targets {p q : Text → Bool} {a : Text} (ha : q a = true)
    (hp : ∀ b, p b = (q b && b != a)) :
    m.relations.countP (fun r => p r.source) + (m.targets a).length =
      m.relations.countP fun r => q r.source := by
  have hsplit : ∀ rs : List Relation,
      rs.countP (fun r => p r.source) + (rs.filter (·.source == a)).length =
        rs.countP fun r => q r.source := by
    intro rs
    induction rs with
    | nil => rfl
    | cons r rs ih =>
      rw [List.countP_cons, List.countP_cons, ← ih, List.filter_cons, hp]
      by_cases hr : r.source = a
      · simp [hr, ha]
        omega
      · simp [hr]
        omega
  simpa [Model.targets] using hsplit m.relations

/-- An id that is put on the stack takes its relations there. -/
theorem unseen_push {a : Text} (ha : s.colour a = .unvisited) :
    unseen m (State.push m s a) + (m.targets a).length = unseen m s := by
  refine @countP_source_add_targets m (fun b => (State.push m s a).colour b = .unvisited)
    (fun b => s.colour b = .unvisited) a (decide_eq_true ha) fun b => ?_
  rw [colour_push]
  by_cases hb : b = a
  · simp [hb]
  · simp [hb]

/-- A finished id makes no relation unseen. -/
theorem unseen_paint_done_le (m : Model) (s : State) (a : Text) :
    unseen m (s.paint a .done) ≤ unseen m s := by
  apply List.countP_mono_left
  intro r _ hr
  rw [decide_eq_true_iff] at hr ⊢
  by_cases hra : r.source = a
  · rw [hra, colour_paint_self] at hr
    cases hr
  · rwa [colour_paint_of_ne hra] at hr

/-- Every step leaves less to do. -/
theorem work_lt_of_advances (h : Advances m s t) : work m t < work m s := by
  unfold work
  cases h with
  | @skip a starts hstack hstarts hvisited =>
    change 2 * starts.length + 2 * (unseen m s + pendingCount s.stack) + s.stack.length < _
    rw [hstarts, List.length_cons]
    omega
  | @setOut a starts hstack hstarts hunvisited =>
    have hpush : unseen m (State.push m { s with starts } a) + (m.targets a).length = unseen m s :=
      unseen_push (s := { s with starts }) hunvisited
    change 2 * starts.length + 2 * (unseen m (State.push m { s with starts } a) +
      ((m.targets a).length + pendingCount s.stack)) + (s.stack.length + 1) < _
    rw [hstarts, List.length_cons]
    omega
  | @finish current below hstack =>
    have hle := unseen_paint_done_le m s current
    change 2 * s.starts.length + 2 * (unseen m (s.paint current .done) + pendingCount below) +
      below.length < _
    rw [hstack, pendingCount_cons, List.length_cons]
    omega
  | @pass current target pending below hstack hdone =>
    change 2 * s.starts.length + 2 * (unseen m s + (pending.length + pendingCount below)) +
      (below.length + 1) < _
    rw [hstack, pendingCount_cons, List.length_cons, List.length_cons]
    omega
  | @descend current target pending below hstack hunvisited =>
    let u : State :=
      { s with
        stack := ⟨current, pending⟩ :: below, parents := Entries.put s.parents target current }
    have hpush : unseen m (State.push m u target) + (m.targets target).length = unseen m s :=
      unseen_push (s := u) hunvisited
    change 2 * s.starts.length + 2 * (unseen m (State.push m u target) +
      ((m.targets target).length + (pending.length + pendingCount below))) +
      (below.length + 1 + 1) < _
    rw [hstack, pendingCount_cons, List.length_cons, List.length_cons]
    omega

/-- With more steps than there is work left, the search comes to its end. -/
theorem run_ne_searching : ∀ (steps : Nat) (s : State), work m s < steps →
    ∀ t, run m steps s ≠ .searching t := by
  intro steps
  induction steps with
  | zero =>
    intro s h
    omega
  | succ steps ih =>
    intro s h t
    rw [run]
    cases hstep : step m s with
    | searching u =>
      have hlt := work_lt_of_advances (advances_of_step hstep)
      exact ih u (by omega) t
    | found cycle => simp
    | acyclic => simp

end Landscape.CycleSearch
