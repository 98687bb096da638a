import Landscape.Proofs.Cycle.Progress
import Landscape.Proofs.Cycle.Trail

/-!
# The search between any two of its steps

The ids in progress are those on the stack, each linked to the one below it. What they have taken of
their targets is done, but for the last target of each id below another one, which is the id above
it. So whenever the search meets an id in progress, the walk back along the links comes to it, over
nothing but ids of the stack; and the search comes to an end.
-/

namespace Landscape.CycleSearch

open State

variable {m : Model} {s t : State}

/-- The targets of an id are done up to the rest of them. -/
def DoneUpTo (m : Model) (s : State) (id : Text) (rest : List Text) : Prop :=
  ∃ taken, m.targets id = taken ++ rest ∧ ∀ b ∈ taken, s.colour b = .done

/-- What the ids on the stack have taken of their targets. -/
structure TakesInTurn (m : Model) (s : State) : Prop where
  /-- What the top has taken is done. -/
  top : ∀ f ∈ s.stack.head?, DoneUpTo m s f.id f.pending
  /-- What an id below has taken is done up to the last, which is the id above it. -/
  below : s.stack.IsChain fun above f => DoneUpTo m s f.id (above.id :: f.pending)

/-- At first nothing has been taken. -/
theorem DoneUpTo.targets (m : Model) (s : State) (id : Text) : DoneUpTo m s id (m.targets id) :=
  ⟨[], rfl, fun _ h => absurd h List.not_mem_nil⟩

/-- One more target that is done may be taken. -/
theorem DoneUpTo.take {id target : Text} {rest : List Text} (h : DoneUpTo m s id (target :: rest))
    (hdone : s.colour target = .done) : DoneUpTo m s id rest := by
  obtain ⟨taken, htargets, htaken⟩ := h
  refine ⟨taken ++ [target], by rw [htargets, List.append_cons], fun b hb => ?_⟩
  rcases List.mem_append.mp hb with hb | hb
  · exact htaken b hb
  · rw [List.mem_singleton.mp hb]
    exact hdone

/-- Targets that are done are so in any state in which what is done stays done. -/
theorem DoneUpTo.mono (hkept : ∀ b, s.colour b = .done → t.colour b = .done) {id : Text}
    {rest : List Text} (h : DoneUpTo m s id rest) : DoneUpTo m t id rest := by
  obtain ⟨taken, htargets, htaken⟩ := h
  exact ⟨taken, htargets, fun b hb => hkept b (htaken b hb)⟩

namespace TakesInTurn

/-- Nothing is on the stack when the search begins. -/
theorem start (m : Model) : TakesInTurn m (start m) where
  top f hf := by cases hf
  below := List.IsChain.nil

/-- Every step keeps to the turn. -/
theorem advances (h : TakesInTurn m s) (hst : Advances m s t) : TakesInTurn m t := by
  have hkept : ∀ b, s.colour b = .done → t.colour b = .done := fun _ => hst.done_of_done
  have hbelow : s.stack.IsChain fun above f => DoneUpTo m t f.id (above.id :: f.pending) :=
    h.below.imp fun _ _ => DoneUpTo.mono hkept
  have htop : ∀ f ∈ s.stack.head?, DoneUpTo m t f.id f.pending :=
    fun f hf => (h.top f hf).mono hkept
  cases hst with
  | skip _ _ _ => exact ⟨htop, hbelow⟩
  | @setOut start _ hstack _ _ =>
    constructor
    · intro f hf
      obtain rfl := Option.some.inj hf
      exact .targets m _ start
    · rw [push_stack, hstack]
      exact List.isChain_singleton _
  | @finish current below hstack =>
    rw [hstack, List.isChain_cons] at hbelow
    refine ⟨fun f hf => (hbelow.1 f hf).take ?_, hbelow.2⟩
    rw [colour_finish, if_pos rfl]
  | @pass current target pending below hstack hdone =>
    rw [hstack, List.isChain_cons] at hbelow
    constructor
    · intro f hf
      obtain rfl := Option.some.inj hf
      exact (htop ⟨current, target :: pending⟩ (by rw [hstack]; rfl)).take hdone
    · exact List.isChain_cons.mpr hbelow
  | @descend current target pending below hstack _ =>
    rw [hstack, List.isChain_cons] at hbelow
    constructor
    · intro f hf
      obtain rfl := Option.some.inj hf
      exact .targets m _ target
    · refine List.isChain_cons_cons.mpr ⟨?_, List.isChain_cons.mpr hbelow⟩
      exact htop ⟨current, target :: pending⟩ (by rw [hstack]; rfl)

end TakesInTurn

/-- What every step keeps holds of each state that a search comes to. -/
theorem forall_run {P : State → Prop} (hkept : ∀ s t, P s → Advances m s t → P t) (n : Nat)
    (hs : P s) (h : run m n s = .searching t) : P t := by
  induction n generalizing s with
  | zero =>
    obtain rfl := Outcome.searching.inj h
    exact hs
  | succ n ih =>
    rw [run] at h
    split at h
    next u hstep => exact ih (hkept s u hs (advances_of_step hstep)) h
    next outcome hother => exact absurd h (hother t)

/-- A search that has come to an end did so from one of its states. -/
theorem exists_last (n : Nat) (h : ∀ t, run m n s ≠ .searching t) :
    ∃ k t, run m k s = .searching t ∧ step m t = run m n s := by
  induction n generalizing s with
  | zero => exact absurd rfl (h s)
  | succ n ih =>
    rw [run] at h ⊢
    cases hstep : step m s with
    | searching u =>
      rw [hstep] at h
      obtain ⟨k, t, hrun, hend⟩ := ih h
      exact ⟨k + 1, t, by rw [run, hstep]; exact hrun, hend⟩
    | found cycle => exact ⟨0, s, rfl, hstep⟩
    | acyclic => exact ⟨0, s, rfl, hstep⟩

/-- The invariant of the search holds of each state that it comes to. -/
theorem explored_of_run {n : Nat} (h : run m n (start m) = .searching s) : Explored m s :=
  forall_run (fun _ _ hs hst => hs.advances hst) n (explored_start m) h

/-- In each state that the search comes to, the ids on the stack take their targets in turn. -/
theorem takesInTurn_of_run {n : Nat} (h : run m n (start m) = .searching s) : TakesInTurn m s :=
  forall_run (fun _ _ hs hst => hs.advances hst) n (.start m) h

/-- What the colours, the links, the stack and the targets that have been taken say about each
other. -/
structure InOrder (m : Model) (s : State) : Prop extends TakesInTurn m s where
  /-- The ids on the stack are distinct, and they are the ids in progress. -/
  nodup : s.trail.Nodup
  mem_trail : ∀ a, a ∈ s.trail ↔ s.colour a = .inProgress
  /-- An id on the stack is linked to the one below it, from which a relation leads to it. -/
  linked : s.trail.IsChain fun a b => s.parents.lookup a = some b ∧ m.Leads b a
  /-- What is done leads to what is done. -/
  closed : ∀ a b, s.colour a = .done → m.Leads a b → s.colour b = .done

/-- Each state that the search comes to is in order. -/
theorem inOrder_of_run {n : Nat} (h : run m n (start m) = .searching s) : InOrder m s where
  toTakesInTurn := takesInTurn_of_run h
  nodup := (explored_of_run h).nodup
  mem_trail := (explored_of_run h).mem_trail
  linked := (explored_of_run h).linked
  closed := (explored_of_run h).closed

/-- The search comes to fewer states than the bound allows. -/
theorem lt_bound_of_run {n : Nat} (h : run m n (start m) = .searching s) : n < bound m := by
  by_contra hle
  have hwork := work_start m
  exact run_ne_searching n (start m) (by omega) s h

/-- Where a target in progress is met, the search ends with the path to it. -/
theorem step_of_inProgress {current target : Text} {pending : List Text} {below : List Frame}
    (hstack : s.stack = ⟨current, target :: pending⟩ :: below)
    (hprogress : s.colour target = .inProgress) : step m s = .found (s.path target current) := by
  have hcolour : ({ s with stack := ⟨current, pending⟩ :: below } : State).colour target =
      .inProgress := hprogress
  rw [step, hstack]
  simp only [hcolour]
  rfl

/-- That path is the walk back along the links, and its ids are those on the stack from the target
up. -/
theorem Explored.exists_walksBack (h : Explored m s) {current target : Text}
    {pending : List Text} {below : List Frame}
    (hstack : s.stack = ⟨current, target :: pending⟩ :: below)
    (hprogress : s.colour target = .inProgress) :
    ∃ above rest, s.trail = above ++ target :: rest ∧
      WalksBack s.parents target current (above ++ [target]) ∧
      step m s = .found (above ++ [target]).reverse := by
  obtain ⟨above, rest, htrail⟩ := List.append_of_mem ((h.mem_trail target).mpr hprogress)
  have htop : s.trail.head? = some current := by simp [trail, hstack]
  have hwalk := h.walksBack htrail htop
  refine ⟨above, rest, htrail, hwalk, ?_⟩
  rw [step_of_inProgress hstack hprogress, hwalk.path_eq]

/-- The last state of the search, from which no step goes on. -/
theorem exists_last_of_start (m : Model) :
    ∃ n s, run m n (start m) = .searching s ∧
      (step m s = .acyclic ∧ m.findCycle = none ∨
        ∃ cycle, step m s = .found cycle ∧ m.findCycle = some cycle) := by
  have hends := run_ne_searching (bound m) (start m) (work_start m)
  obtain ⟨n, s, hrun, hstep⟩ := exists_last (bound m) hends
  refine ⟨n, s, hrun, ?_⟩
  rw [hstep, Model.findCycle]
  cases hresult : run m (bound m) (start m) with
  | searching t => exact absurd hresult (hends t)
  | found cycle => exact .inr ⟨cycle, rfl, rfl⟩
  | acyclic => exact .inl ⟨rfl, rfl⟩

/--
Each state that the search comes to is in order, and it comes to no more states than the bound
allows. Where a target in progress is about to be taken, the links are walked back from the top of
the stack to the target, over the ids of the stack between them, and the search ends with these ids
from the target up. It ends on every model, here or with nothing left to look at.
-/
theorem search_keeps_order (m : Model) :
    (∀ n s, run m n (start m) = .searching s →
      n < bound m ∧ InOrder m s ∧
        ∀ current target pending below, s.stack = ⟨current, target :: pending⟩ :: below →
          s.colour target = .inProgress →
            ∃ above rest, s.trail = above ++ target :: rest ∧
              WalksBack s.parents target current (above ++ [target]) ∧
              step m s = .found (above ++ [target]).reverse) ∧
    ∃ n s, run m n (start m) = .searching s ∧
      (step m s = .acyclic ∧ m.findCycle = none ∨
        ∃ cycle, step m s = .found cycle ∧ m.findCycle = some cycle) := by
  refine ⟨fun n s hrun => ⟨lt_bound_of_run hrun, inOrder_of_run hrun, ?_⟩, exists_last_of_start m⟩
  intro current target pending below hstack hprogress
  exact (explored_of_run hrun).exists_walksBack hstack hprogress

/-- A search that has left one part of the model, set out again, and gone down to a target in
progress. -/
theorem search_keeps_order_above_done :
    let m : Model :=
      { elements := [{ id := "d", name := "D", kind := .system },
          { id := "a", name := "A", kind := .system }, { id := "b", name := "B", kind := .system }]
        relations := [{ source := "d", target := "e" }, { source := "a", target := "d" },
          { source := "a", target := "b" }, { source := "b", target := "e" },
          { source := "b", target := "c" }, { source := "c", target := "b" }] }
    let s : State :=
      { colours := [("d", .done), ("e", .done), ("a", .inProgress), ("b", .inProgress),
          ("c", .inProgress)]
        parents := [("e", "d"), ("b", "a"), ("c", "b")]
        stack := [⟨"c", ["b"]⟩, ⟨"b", []⟩, ⟨"a", []⟩]
        starts := ["b"] }
    let target : Text := "b"
    run m 9 (start m) = .searching s ∧ s.colour target = .inProgress ∧ 9 < bound m ∧
      InOrder m s ∧ ∃ above rest, s.trail = above ++ target :: rest ∧
        WalksBack s.parents target "c" (above ++ [target]) ∧
        step m s = .found (above ++ [target]).reverse := by
  intro m s target
  have hrun : run m 9 (start m) = .searching s := by decide +kernel
  have hprogress : s.colour target = .inProgress := by decide +kernel
  obtain ⟨hbound, horder, hmeets⟩ := (search_keeps_order m).1 9 s hrun
  exact ⟨hrun, hprogress, hbound, horder, hmeets "c" target [] [⟨"b", []⟩, ⟨"a", []⟩] rfl hprogress⟩

end Landscape.CycleSearch
