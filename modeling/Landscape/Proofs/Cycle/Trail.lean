import Landscape.Proofs.Cycle.Exploration
import Landscape.Proofs.Cycle.Links

/-!
# The cycle that the search reads off

When a target is in progress it lies on the stack, and the links from the top of the stack lead down
to it through the ids above it. Read backwards they are the cycle: a relation leads from each id to
the one above it, and from the top to the target.
-/

namespace Landscape.CycleSearch

open State

namespace Explored

variable {m : Model} {s : State}

/-- From the top of the stack the links are walked back down to any id on it. -/
theorem walksBack (h : Explored m s) {current target : Text} {above below : List Text}
    (htrail : s.trail = above ++ target :: below) (htop : s.trail.head? = some current) :
    WalksBack s.parents target current (above ++ [target]) := by
  have hnodup := h.nodup
  have hlinked := h.linked
  rw [htrail] at hnodup hlinked htop
  have hnot : target ∉ above := fun ha =>
    (List.nodup_append.mp hnodup).2.2 target ha target List.mem_cons_self rfl
  exact .of_isChain hnot (hlinked.imp fun _ _ hab => hab.1) htop

/-- The path to a target on the stack goes up the stack from it. -/
theorem path_eq (h : Explored m s) {current target : Text} {above below : List Text}
    (htrail : s.trail = above ++ target :: below) (htop : s.trail.head? = some current) :
    s.path target current = target :: above.reverse := by
  rw [(h.walksBack htrail htop).path_eq, List.reverse_append, List.reverse_singleton]
  rfl

/-- A target in progress closes a cycle of ids that elements reach. -/
theorem isCycle_path (h : Explored m s) {current target : Text} {pending : List Text}
    {below : List Frame} (hs : s.stack = ⟨current, target :: pending⟩ :: below)
    (hprogress : s.colour target = .inProgress) :
    m.IsCycle (s.path target current) ∧ ∀ a ∈ s.path target current, m.IsReached a := by
  obtain ⟨above, rest, htrail⟩ := List.append_of_mem ((h.mem_trail target).mpr hprogress)
  have htop : s.trail.head? = some current := by simp [trail, hs]
  have hpath := h.path_eq htrail htop
  have hnodup := h.nodup
  have hlinked := h.linked
  rw [htrail] at hnodup hlinked htop
  have hreverse : (above ++ [target]).reverse = target :: above.reverse := by simp
  rw [hpath]
  refine ⟨⟨List.cons_ne_nil _ _, ?_, ?_, ?_⟩, ?_⟩
  · rw [← hreverse, List.nodup_reverse]
    exact hnodup.sublist (by simp)
  · rw [← hreverse, List.isChain_reverse]
    have hup := hlinked.imp fun _ _ hab => hab.2
    rw [List.append_cons] at hup
    exact hup.left_of_append
  · have hcloses : m.Leads current target :=
      h.pending ⟨current, target :: pending⟩ (by simp [hs]) target List.mem_cons_self
    have hlast : (target :: above.reverse).getLast (List.cons_ne_nil _ _) = current := by
      cases above with
      | nil => simpa using htop
      | cons a above =>
        obtain rfl : a = current := by simpa using htop
        simp
    rw [hlast]
    exact hcloses
  · intro a ha
    have hmem : a ∈ s.trail := by
      rw [htrail]
      rcases List.mem_cons.mp ha with rfl | ha
      · simp
      · simp [List.mem_reverse.mp ha]
    exact h.reached a (by simp [(h.mem_trail a).mp hmem])

/-- A search that has nothing left to look at has missed no cycle. -/
theorem not_onCycle_of_empty (h : Explored m s) (hstack : s.stack = []) (hstarts : s.starts = [])
    {a : Text} (ha : m.IsReached a) : ¬m.OnCycle a := by
  have hdone {b : Text} (hb : s.colour b ≠ .unvisited) : s.colour b = .done := by
    have hnot : s.colour b ≠ .inProgress := by
      rw [Ne, ← h.mem_trail]
      simp [trail, hstack]
    cases hc : s.colour b with
    | unvisited => exact absurd hc hb
    | inProgress => exact absurd hc hnot
    | done => rfl
  obtain ⟨e, he, hea⟩ := ha
  have helement : s.colour e.id ≠ .unvisited :=
    (h.awaited e he).resolve_left (by simp [hstarts])
  exact h.acyclic a (Model.Reaches.mem_of_closed h.closed hea (hdone helement))

end Explored

end Landscape.CycleSearch
