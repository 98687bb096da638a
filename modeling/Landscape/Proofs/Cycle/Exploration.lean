import Landscape.Proofs.Cycle.Arcs
import Landscape.Proofs.Cycle.Transition

/-!
# What holds of every state of the search

The ids in progress are exactly those on the stack. Each of them but the lowest is linked to the one
below it, and a relation leads along the link. The targets of an id on the stack that have been
looked at are done or lie above it, so an id that is finished leads to finished ids only: it lies on
no cycle, because what it leads to was finished while it was not.
-/

namespace Landscape.CycleSearch

open State

/-- The targets of an id on the stack are pending, done, or above it on the stack. -/
def LooksThrough (m : Model) (s : State) : Prop :=
  ∀ above f below, s.stack = above ++ f :: below → ∀ b, m.Leads f.id b →
    b ∈ f.pending ∨ s.colour b = .done ∨ b ∈ above.map Frame.id

/-- The invariant of the search. -/
structure Explored (m : Model) (s : State) : Prop where
  /-- The stack holds the ids in progress, each of them once. -/
  nodup : s.trail.Nodup
  mem_trail : ∀ a, a ∈ s.trail ↔ s.colour a = .inProgress
  /-- An id on the stack is linked to the one below it, from which a relation leads to it. -/
  linked : s.trail.IsChain fun a b => s.parents.lookup a = some b ∧ m.Leads b a
  /-- Pending targets are targets. -/
  pending : ∀ f ∈ s.stack, ∀ b ∈ f.pending, m.Leads f.id b
  looksThrough : LooksThrough m s
  /-- What is done leads to what is done, and lies on no cycle. -/
  closed : ∀ a b, s.colour a = .done → m.Leads a b → s.colour b = .done
  acyclic : ∀ a, s.colour a = .done → ¬m.OnCycle a
  /-- No element is forgotten, and nothing is visited that elements do not reach. -/
  starts_subset : ∀ a ∈ s.starts, m.IsReached a
  awaited : ∀ e ∈ m.elements, e.id ∈ s.starts ∨ s.colour e.id ≠ .unvisited
  reached : ∀ a, s.colour a ≠ .unvisited → m.IsReached a

variable {m : Model} {s t : State}

/-- The invariant holds when the search begins. -/
theorem explored_start (m : Model) : Explored m (start m) where
  nodup := List.nodup_nil
  mem_trail a := by simp [start, trail, colour]
  linked := List.IsChain.nil
  pending f hf := by cases hf
  looksThrough above f below h := by cases above <;> cases h
  closed a b h := by cases h
  acyclic a h := by cases h
  starts_subset a ha := by
    obtain ⟨e, he, rfl⟩ := List.mem_map.mp ha
    exact Model.isReached_id he
  awaited e he := Or.inl (List.mem_map_of_mem he)
  reached a h := absurd rfl h

namespace Explored

/-- An id on the top of the stack is in progress. -/
theorem colour_top (h : Explored m s) {f : Frame} {below : List Frame}
    (hs : s.stack = f :: below) : s.colour f.id = .inProgress :=
  (h.mem_trail f.id).mp (by simp [trail, hs])

/-- When the pending targets of the top are used up, all its targets are done. -/
theorem targets_done (h : Explored m s) {current : Text} {below : List Frame}
    (hs : s.stack = ⟨current, []⟩ :: below) {b : Text} (hb : m.Leads current b) :
    s.colour b = .done := by
  rcases h.looksThrough [] ⟨current, []⟩ below hs b hb with hp | hd | ha
  · cases hp
  · exact hd
  · cases ha

/-- An id whose targets are all done lies on no cycle, unless it is done itself. -/
theorem not_onCycle (h : Explored m s) {a : Text} (ha : s.colour a ≠ .done)
    (htargets : ∀ b, m.Leads a b → s.colour b = .done) : ¬m.OnCycle a := by
  intro hcycle
  obtain ⟨b, hab, hba⟩ := Relation.TransGen.head'_iff.mp hcycle
  exact ha (Model.Reaches.mem_of_closed h.closed hba (htargets b hab))

/-- To leave out a start keeps the invariant. -/
theorem skip (h : Explored m s) {a : Text} {starts : List Text} (hs : s.starts = a :: starts)
    (ha : s.colour a ≠ .unvisited) : Explored m { s with starts } where
  nodup := h.nodup
  mem_trail := h.mem_trail
  linked := h.linked
  pending := h.pending
  looksThrough := h.looksThrough
  closed := h.closed
  acyclic := h.acyclic
  starts_subset b hb := h.starts_subset b (hs ▸ List.mem_cons_of_mem a hb)
  awaited e he := by
    rcases h.awaited e he with hmem | hvisited
    · rw [hs] at hmem
      rcases List.mem_cons.mp hmem with rfl | hmem
      · exact Or.inr ha
      · exact Or.inl hmem
    · exact Or.inr hvisited
  reached := h.reached

/-- A finished id was in progress, and the stack below it loses nothing else. -/
theorem finish (h : Explored m s) {current : Text} {below : List Frame}
    (hs : s.stack = ⟨current, []⟩ :: below) :
    Explored m { s.paint current .done with stack := below } := by
  have htrail : s.trail = current :: below.map Frame.id := by simp [trail, hs]
  have hnodup := h.nodup
  rw [htrail] at hnodup
  have hcurrent := h.colour_top hs
  have hcolour := colour_finish s current below
  have hkept {a : Text} (ha : s.colour a = .done) :
      ({ s.paint current .done with stack := below } : State).colour a = .done := by
    rw [hcolour, ha, ite_self]
  refine {
    nodup := (List.nodup_cons.mp hnodup).2
    mem_trail := ?memTrail
    linked := ?linked
    pending := fun f hf => h.pending f (hs ▸ List.mem_cons_of_mem _ hf)
    looksThrough := ?looksThrough
    closed := ?closed
    acyclic := ?acyclic
    starts_subset := h.starts_subset
    awaited := ?awaited
    reached := ?reached }
  case memTrail =>
    intro a
    have hmem := h.mem_trail a
    rw [htrail, List.mem_cons] at hmem
    change a ∈ below.map Frame.id ↔ _
    rw [hcolour]
    split
    next ha =>
      subst ha
      simpa using (List.nodup_cons.mp hnodup).1
    next ha => simpa [ha] using hmem
  case linked =>
    have hlinked := h.linked
    rw [htrail] at hlinked
    exact hlinked.tail
  case looksThrough =>
    intro above f rest hsplit b hb
    rcases h.looksThrough (⟨current, []⟩ :: above) f rest (by rw [hs, List.cons_append, ← hsplit])
      b hb with hp | hd | ha
    · exact Or.inl hp
    · exact Or.inr (Or.inl (hkept hd))
    · rcases List.mem_cons.mp ha with rfl | ha
      · exact Or.inr (Or.inl (by rw [hcolour, if_pos rfl]))
      · exact Or.inr (Or.inr ha)
  case closed =>
    intro a b ha hab
    rw [hcolour] at ha
    split at ha
    next hac => exact hkept (h.targets_done hs (hac ▸ hab))
    next => exact hkept (h.closed a b ha hab)
  case acyclic =>
    intro a ha
    rw [hcolour] at ha
    split at ha
    next hac =>
      subst hac
      exact h.not_onCycle (by simp [hcurrent]) fun b hb => h.targets_done hs hb
    next => exact h.acyclic a ha
  case awaited =>
    intro e he
    refine (h.awaited e he).imp_right fun hv => ?_
    rw [hcolour]
    split
    · simp
    · exact hv
  case reached =>
    intro a ha
    rw [hcolour] at ha
    split at ha
    next hac => exact h.reached a (by simp [hac, hcurrent])
    next => exact h.reached a ha

/-- A target that is done, or has got above its id on the stack, need not be pending any more. -/
theorem drop (h : Explored m s) (above : List Frame) {below : List Frame} {current target : Text}
    {pending : List Text} (hs : s.stack = above ++ ⟨current, target :: pending⟩ :: below)
    (hseen : s.colour target = .done ∨ target ∈ above.map Frame.id) :
    Explored m { s with stack := above ++ ⟨current, pending⟩ :: below } := by
  have htrail : ({ s with stack := above ++ ⟨current, pending⟩ :: below } : State).trail =
      s.trail := by simp [trail, hs]
  have hcurrent {b : Text} (hb : m.Leads current b) :
      b ∈ pending ∨ s.colour b = .done ∨ b ∈ above.map Frame.id := by
    rcases h.looksThrough above _ below hs b hb with hp | hseen'
    · rcases List.mem_cons.mp hp with rfl | hp
      · exact Or.inr hseen
      · exact Or.inl hp
    · exact Or.inr hseen'
  refine {
    nodup := htrail ▸ h.nodup
    mem_trail := htrail ▸ h.mem_trail
    linked := htrail ▸ h.linked
    pending := ?pending
    looksThrough := ?looksThrough
    closed := h.closed
    acyclic := h.acyclic
    starts_subset := h.starts_subset
    awaited := h.awaited
    reached := h.reached }
  case pending =>
    intro f hf b hb
    rcases List.mem_append.mp hf with hf | hf
    · exact h.pending f (hs ▸ List.mem_append_left _ hf) b hb
    rcases List.mem_cons.mp hf with rfl | hf
    · exact h.pending ⟨current, target :: pending⟩ (by rw [hs]; simp) b (List.mem_cons_of_mem _ hb)
    · exact h.pending f (by rw [hs]; simp [hf]) b hb
  case looksThrough =>
    intro above' f rest hsplit b hb
    change _ ∨ s.colour b = .done ∨ _
    -- The frame in question is the changed one, or lies below it, or lies above it.
    rcases List.append_eq_append_iff.mp hsplit with ⟨more, rfl, hmore⟩ | ⟨more, rfl, hmore⟩
    · cases more with
      | nil =>
        obtain ⟨rfl, rfl⟩ := List.cons.inj hmore
        simpa using hcurrent hb
      | cons g more =>
        obtain ⟨rfl, rfl⟩ := List.cons.inj hmore
        have hf := h.looksThrough (above ++ ⟨current, target :: pending⟩ :: more) f rest
          (by rw [hs]; simp) b hb
        simpa using hf
    · cases more with
      | nil =>
        obtain ⟨rfl, rfl⟩ := List.cons.inj hmore
        simpa using hcurrent hb
      | cons g more =>
        obtain ⟨rfl, rfl⟩ := List.cons.inj hmore
        exact h.looksThrough above' f _ (by rw [hs, List.append_assoc]; rfl) b hb

/-- The link of an id that is not on the stack does not matter. -/
theorem relink (h : Explored m s) {a : Text} (ha : a ∉ s.trail) (b : Text) :
    Explored m { s with parents := Entries.put s.parents a b } where
  nodup := h.nodup
  mem_trail := h.mem_trail
  linked := by
    refine h.linked.imp_of_mem_imp fun x y hx _ hxy => ⟨?_, hxy.2⟩
    have hxa : x ≠ a := by rintro rfl; exact ha hx
    rw [Entries.lookup_put_of_ne _ _ hxa]
    exact hxy.1
  pending := h.pending
  looksThrough := h.looksThrough
  closed := h.closed
  acyclic := h.acyclic
  starts_subset := h.starts_subset
  awaited := h.awaited
  reached := h.reached

/-- To put an unvisited id on the stack keeps the invariant, if it is linked to the id below it. -/
theorem push (h : Explored m s) {a : Text} (ha : s.colour a = .unvisited) (hreached : m.IsReached a)
    (hlinked : (a :: s.trail).IsChain fun a b => s.parents.lookup a = some b ∧ m.Leads b a) :
    Explored m (State.push m s a) := by
  have htrail : (State.push m s a).trail = a :: s.trail := rfl
  have hnot : a ∉ s.trail := by simp [h.mem_trail, ha]
  have hkept {b : Text} (hb : s.colour b = .done) : (State.push m s a).colour b = .done :=
    colour_push_of_done ha hb
  have hdone {b : Text} (hb : (State.push m s a).colour b = .done) : s.colour b = .done := by
    rw [colour_push] at hb
    split at hb
    · cases hb
    · exact hb
  refine {
    nodup := htrail ▸ List.nodup_cons.mpr ⟨hnot, h.nodup⟩
    mem_trail := ?memTrail
    linked := hlinked
    pending := ?pending
    looksThrough := ?looksThrough
    closed := fun b c hb hbc => hkept (h.closed b c (hdone hb) hbc)
    acyclic := fun b hb => h.acyclic b (hdone hb)
    starts_subset := h.starts_subset
    awaited := ?awaited
    reached := ?reached }
  case memTrail =>
    intro b
    rw [htrail, List.mem_cons, colour_push, h.mem_trail]
    split
    next hba => simp [hba]
    next hba => simp [hba]
  case pending =>
    intro f hf b hb
    rcases List.mem_cons.mp hf with rfl | hf
    · exact Model.mem_targets.mp hb
    · exact h.pending f hf b hb
  case looksThrough =>
    intro above f rest hsplit b hb
    cases above with
    | nil =>
      obtain ⟨rfl, rfl⟩ := List.cons.inj hsplit
      exact Or.inl (Model.mem_targets.mpr hb)
    | cons g above =>
      obtain ⟨rfl, hrest⟩ := List.cons.inj hsplit
      rcases h.looksThrough above f rest hrest b hb with hp | hd | hm
      · exact Or.inl hp
      · exact Or.inr (Or.inl (hkept hd))
      · exact Or.inr (Or.inr (List.mem_cons_of_mem _ hm))
  case awaited =>
    intro e he
    refine (h.awaited e he).imp_right fun hv => ?_
    rw [colour_push]
    split
    · simp
    · exact hv
  case reached =>
    intro b hb
    rw [colour_push] at hb
    split at hb
    next hba => exact hba ▸ hreached
    next => exact h.reached b hb

/-- Every step keeps the invariant. -/
theorem advances (h : Explored m s) (hst : Advances m s t) : Explored m t := by
  cases hst with
  | skip _ hstarts hvisited => exact h.skip hstarts hvisited
  | @setOut a starts hstack hstarts hunvisited =>
    have htrail : s.trail = [] := by simp [trail, hstack]
    have hpush := h.push hunvisited (h.starts_subset a (hstarts ▸ List.mem_cons_self))
      (htrail ▸ List.isChain_singleton a)
    exact hpush.skip hstarts (by simp [colour_push])
  | finish hstack => exact h.finish hstack
  | pass hstack hdone => exact h.drop [] hstack (Or.inl hdone)
  | @descend current target pending below hstack hunvisited =>
    have htarget : target ∉ s.trail := by simp [h.mem_trail, hunvisited]
    have hleads : m.Leads current target :=
      h.pending ⟨current, target :: pending⟩ (by simp [hstack]) target List.mem_cons_self
    have hreached : m.IsReached current := h.reached current (by simp [h.colour_top hstack])
    have hpush := (h.relink htarget current).push hunvisited (hreached.step hleads) (by
      have hlinked := (h.relink htarget current).linked
      have htrail : s.trail = current :: below.map Frame.id := by simp [trail, hstack]
      change (target :: s.trail).IsChain _
      change s.trail.IsChain _ at hlinked
      rw [htrail] at hlinked ⊢
      exact List.isChain_cons_cons.mpr ⟨⟨Entries.lookup_put_self _ _ _, hleads⟩, hlinked⟩)
    exact hpush.drop [⟨target, m.targets target⟩]
      (by rw [push_stack, hstack]; rfl) (Or.inr (by simp))

end Explored

end Landscape.CycleSearch
