import Landscape.Cycle.Search

/-!
# The steps of the search

What one step of the search can do, said once: take the next start, or leave it out because it has
been visited; put an unvisited target on the stack, or pass over one that is done; take a finished
id off the stack. Everything else about the search is shown by these cases.
-/

namespace Landscape.CycleSearch

namespace State

/-- The ids on the stack, from the top. -/
def trail (s : State) : List Text := s.stack.map Frame.id

variable {m : Model} {s : State} {a b : Text} {c : Colour}

@[simp] theorem colour_paint_self (s : State) (a : Text) (c : Colour) :
    (s.paint a c).colour a = c := by
  simp [colour, paint]

@[simp] theorem colour_paint_of_ne (h : b ≠ a) : (s.paint a c).colour b = s.colour b := by
  simp [colour, paint, Entries.lookup_put_of_ne _ _ h]

/-- Painting an id changes its colour and no other. -/
theorem colour_paint (s : State) (a b : Text) (c : Colour) :
    (s.paint a c).colour b = if b = a then c else s.colour b := by
  split
  next hba => rw [hba, colour_paint_self]
  next hba => rw [colour_paint_of_ne hba]

/-- The colour of an id depends on nothing but the colours. -/
theorem colour_congr {s t : State} (h : s.colours = t.colours) (a : Text) :
    s.colour a = t.colour a := by
  simp only [colour, h]

@[simp] theorem push_stack (m : Model) (s : State) (a : Text) :
    (push m s a).stack = ⟨a, m.targets a⟩ :: s.stack := rfl

@[simp] theorem push_starts (m : Model) (s : State) (a : Text) :
    (push m s a).starts = s.starts := rfl

@[simp] theorem push_parents (m : Model) (s : State) (a : Text) :
    (push m s a).parents = s.parents := rfl

/-- An id that is put on the stack is in progress, and no other id changes its colour. -/
theorem colour_push (m : Model) (s : State) (a b : Text) :
    (push m s a).colour b = if b = a then .inProgress else s.colour b :=
  (colour_congr rfl b).trans (colour_paint s a b .inProgress)

/-- To put an unvisited id on the stack leaves done what is done. -/
theorem colour_push_of_done (ha : s.colour a = .unvisited) (hb : s.colour b = .done) :
    (push m s a).colour b = .done := by
  have hba : b ≠ a := by
    rintro rfl
    simp [ha] at hb
  rw [colour_push, if_neg hba, hb]

/-- An id that is taken off the stack is done, and no other id changes its colour. -/
theorem colour_finish (s : State) (a : Text) (below : List Frame) (b : Text) :
    ({ s.paint a .done with stack := below } : State).colour b =
      if b = a then .done else s.colour b :=
  (colour_congr rfl b).trans (colour_paint s a b .done)

end State

/-- The states to which the search can go on in one step. -/
inductive Advances (m : Model) (s : State) : State → Prop where
  /-- A start that has been visited is left out. -/
  | skip {start : Text} {starts : List Text} (stack : s.stack = [])
    (hstarts : s.starts = start :: starts) (visited : s.colour start ≠ .unvisited) :
    Advances m s { s with starts }
  /-- The search sets out from an unvisited start. -/
  | setOut {start : Text} {starts : List Text} (stack : s.stack = [])
    (hstarts : s.starts = start :: starts) (unvisited : s.colour start = .unvisited) :
    Advances m s (State.push m { s with starts } start)
  /-- An id without pending targets is done. -/
  | finish {current : Text} {below : List Frame} (hstack : s.stack = ⟨current, []⟩ :: below) :
    Advances m s { s.paint current .done with stack := below }
  /-- A target that is done is passed over. -/
  | pass {current target : Text} {pending : List Text} {below : List Frame}
    (hstack : s.stack = ⟨current, target :: pending⟩ :: below) (done : s.colour target = .done) :
    Advances m s { s with stack := ⟨current, pending⟩ :: below }
  /-- An unvisited target is put on the stack, linked to the id that led to it. -/
  | descend {current target : Text} {pending : List Text} {below : List Frame}
    (hstack : s.stack = ⟨current, target :: pending⟩ :: below)
    (unvisited : s.colour target = .unvisited) :
    Advances m s (State.push m
      { s with
        stack := ⟨current, pending⟩ :: below, parents := Entries.put s.parents target current }
      target)

variable {m : Model} {s t : State}

/-- Whatever a step does, what is done stays done. -/
theorem Advances.done_of_done (h : Advances m s t) {b : Text} (hb : s.colour b = .done) :
    t.colour b = .done := by
  cases h with
  | skip _ _ _ => exact hb
  | setOut _ _ hunvisited => exact State.colour_push_of_done hunvisited hb
  | @finish current below _ => rw [State.colour_finish, hb, ite_self]
  | pass _ _ => exact hb
  | descend _ hunvisited => exact State.colour_push_of_done hunvisited hb

/-- A step that goes on does one of the five things. -/
theorem advances_of_step (h : step m s = .searching t) : Advances m s t := by
  unfold step at h
  split at h
  next hstack =>
    split at h
    · cases h
    next start starts hstarts =>
      obtain rfl := Outcome.searching.inj h
      by_cases hc : s.colour start = .unvisited
      · have hc' : ({ s with starts } : State).colour start = .unvisited := hc
        rw [if_pos hc']
        exact .setOut hstack hstarts hc
      · have hc' : ¬({ s with starts } : State).colour start = .unvisited := hc
        rw [if_neg hc']
        exact .skip hstack hstarts hc
  next current below hstack =>
    obtain rfl := Outcome.searching.inj h
    exact .finish hstack
  next current target pending below hstack =>
    simp only at h
    split at h
    · cases h
    next hc =>
      obtain rfl := Outcome.searching.inj h
      exact .descend hstack hc
    next hc =>
      obtain rfl := Outcome.searching.inj h
      exact .pass hstack hc

/-- A step that finds a cycle looks at a target that is in progress. -/
theorem found_of_step {cycle : List Text} (h : step m s = .found cycle) :
    ∃ current target pending below, s.stack = ⟨current, target :: pending⟩ :: below ∧
      s.colour target = .inProgress ∧ cycle = s.path target current := by
  unfold step at h
  split at h
  · split at h <;> cases h
  · cases h
  next current target pending below hstack =>
    simp only at h
    split at h
    next hc => exact ⟨current, target, pending, below, hstack, hc, (Outcome.found.inj h).symm⟩
    · cases h
    · cases h

/-- A search that ends without a cycle has nothing left on the stack and no start left. -/
theorem acyclic_of_step (h : step m s = .acyclic) : s.stack = [] ∧ s.starts = [] := by
  unfold step at h
  split at h
  next hstack =>
    split at h
    next hstarts => exact ⟨hstack, hstarts⟩
    · cases h
  · cases h
  · simp only at h
    split at h <;> cases h

end Landscape.CycleSearch
