import Landscape.Proofs.Cycle.Liveness
import Mathlib.Data.List.Chain

/-!
# The listing of cycles on places

A cycle of places is listed from its least place on. The listing holds every such cycle once and
nothing else: to extend a path means to try each free place that an arc leads to, and a place is
left out only when no way leads back from it. With a limit the listing is cut off after so many.
-/

namespace Landscape

namespace CycleListing

/-- The beginning of a list, as far as a limit allows. -/
def cut {α : Type} (limit : Option Nat) (l : List α) : List α :=
  match limit with
  | none => l
  | some n => l.take n

@[simp] theorem cut_none {α : Type} (l : List α) : cut none l = l := rfl

theorem cut_nil {α : Type} (limit : Option Nat) : cut limit ([] : List α) = [] := by
  cases limit <;> simp [cut]

/-- A list in two parts is cut off in the first, or else in the second. -/
theorem cut_append {α : Type} (limit : Option Nat) (l l' : List α) :
    cut limit (l ++ l') = cut limit l ++ cut (remaining limit (cut limit l).length) l' := by
  cases limit with
  | none => rfl
  | some n =>
    have hleft : n - min n l.length = n - l.length := by omega
    simp [cut, remaining, List.take_append, hleft]

/-- Searches that are cut off find together what is cut off from all of it. -/
theorem searchAll_eq_cut {α β : Type} (search : Option Nat → α → List β)
    (hsearch : ∀ limit a, search limit a = cut limit (search none a)) (limit : Option Nat)
    (items : List α) : searchAll search limit items = cut limit (items.flatMap (search none)) := by
  induction items generalizing limit with
  | nil => rw [searchAll, List.flatMap_nil, cut_nil]
  | cons a rest ih =>
    rw [searchAll, List.flatMap_cons, cut_append]
    split
    next hzero =>
      rw [beq_iff_eq] at hzero
      subst hzero
      simp [cut, remaining]
    · simp only [ih, ← hsearch]

variable {g : PlaceGraph} {least current i : Nat} {free : PlaceSet} {before way : List Nat}

/-- What closes a path to a cycle: free places, each of them once, that lead from its end back to its
beginning. -/
structure Closes (g : PlaceGraph) (least : Nat) (free : PlaceSet) (current : Nat)
    (way : List Nat) : Prop where
  nodup : way.Nodup
  free : ∀ i ∈ way, free.has i = true
  chain : (current :: way).IsChain g.Arc
  back : g.Arc ((current :: way).getLast (List.cons_ne_nil _ _)) least

/-- The path closes as it stands. -/
theorem closes_nil : Closes g least free current [] ↔ g.Arc current least :=
  ⟨fun h => h.back, fun h => ⟨List.nodup_nil, by simp, List.isChain_singleton _, h⟩⟩

/-- The path goes on to a place, which is free no longer. -/
theorem closes_cons : Closes g least free current (i :: way) ↔
    g.Arc current i ∧ free.has i = true ∧ Closes g least (free.erase i) i way := by
  constructor
  · rintro ⟨hnodup, hfree, hchain, hback⟩
    obtain ⟨hnot, hnodup⟩ := List.nodup_cons.mp hnodup
    obtain ⟨harc, hchain⟩ := List.isChain_cons_cons.mp hchain
    obtain ⟨hi, hfree⟩ := List.forall_mem_cons.mp hfree
    refine ⟨harc, hi, hnodup, fun j hj => ?_, hchain, ?_⟩
    · have hij : i ≠ j := fun h => hnot (h ▸ hj)
      simp [PlaceSet.has_erase, hfree j hj, hij]
    · rwa [List.getLast_cons_cons] at hback
  · rintro ⟨harc, hi, hnodup, hfree, hchain, hback⟩
    have hfree (j : Nat) (hj : j ∈ way) : free.has j = true ∧ i ≠ j := by
      simpa [PlaceSet.has_erase] using hfree j hj
    refine ⟨List.nodup_cons.mpr ⟨fun hmem => (hfree i hmem).2 rfl, hnodup⟩,
      List.forall_mem_cons.mpr ⟨hi, fun j hj => (hfree j hj).1⟩,
      List.isChain_cons_cons.mpr ⟨harc, hchain⟩, ?_⟩
    rwa [List.getLast_cons_cons]

/-- A way back goes through free places only, so that all of them are live. -/
theorem Closes.leads (h : Closes g least free current way) (hcurrent : free.has current = true) :
    Relation.ReflTransGen (fun a b => free.has a = true ∧ g.Arc a b) current least := by
  obtain ⟨-, hfree, hchain, hback⟩ := h
  induction way generalizing current with
  | nil => exact Relation.ReflTransGen.single ⟨hcurrent, hback⟩
  | cons i way ih =>
    obtain ⟨harc, hchain⟩ := List.isChain_cons_cons.mp hchain
    obtain ⟨hi, hfree⟩ := List.forall_mem_cons.mp hfree
    rw [List.getLast_cons_cons] at hback
    exact Relation.ReflTransGen.head ⟨hcurrent, harc⟩ (ih hi hfree hchain hback)

/-- The cycle that a path is by itself, if it closes as it stands. -/
def closing (g : PlaceGraph) (least current : Nat) (before : List Nat) : List (List Nat) :=
  if (g.targetsOf current).contains least then [(current :: before).reverse] else []

/-- The places that a path may go on to: those that are free and live. -/
def onward (g : PlaceGraph) (least current : Nat) (free : PlaceSet) : List Nat :=
  ((g.targetsOf current).filter free.has).filter (g.leadingTo free least).has

/-- Without a limit a path is closed or goes on to each place in turn. -/
theorem extend_none (fuel : Nat) : extend g least (fuel + 1) none free (current :: before) =
    closing g least current before ++ (onward g least current free).flatMap fun i =>
      extend g least fuel none (free.erase i) (i :: current :: before) := by
  have hclosed : (if (g.targetsOf current).contains least && (none : Option Nat) != some 0 then
      [(current :: before).reverse] else []) = closing g least current before := by
    simp [closing]
  rw [extend]
  simp only [hclosed]
  split
  next hempty =>
    rw [List.isEmpty_iff] at hempty
    simp [onward, hempty]
  · -- No limit stays none, whatever has been found.
    have hall (items : List Nat) : searchAll
        (fun limit i => extend g least fuel limit (free.erase i) (i :: current :: before)) none
        items = items.flatMap fun i =>
          extend g least fuel none (free.erase i) (i :: current :: before) := by
      induction items with
      | nil => rfl
      | cons a rest ih => simpa [searchAll, remaining] using ih
    rw [remaining, Option.map_none, hall]
    rfl

/-- With a limit the extensions of a path are cut off. -/
theorem extend_eq_cut (fuel : Nat) (limit : Option Nat) (free : PlaceSet) (path : List Nat) :
    extend g least fuel limit free path = cut limit (extend g least fuel none free path) := by
  induction fuel generalizing limit free path with
  | zero => simp [extend, cut_nil]
  | succ fuel ih =>
    cases path with
    | nil => simp [extend, cut_nil]
    | cons current before =>
      have hclosed : (if (g.targetsOf current).contains least && limit != some 0 then
          [(current :: before).reverse] else []) = cut limit (closing g least current before) := by
        unfold closing
        rcases limit with _ | _ | n <;> simp only [cut] <;> split <;> simp_all
      rw [extend_none, cut_append, ← searchAll_eq_cut
        (fun limit i => extend g least fuel limit (free.erase i) (i :: current :: before))
        (fun limit i => ih limit _ _), extend]
      simp only [hclosed]
      split
      next hempty =>
        rw [List.isEmpty_iff] at hempty
        simp [onward, hempty, searchAll]
      · rfl

/-- The extensions of a path are the path with each way that closes it. -/
theorem mem_extend (hg : g.Consistent) (fuel : Nat) (free : PlaceSet) (current : Nat)
    (before : List Nat) (hfuel : (free.members g.size).length < fuel) (cycle : List Nat) :
    cycle ∈ extend g least fuel none free (current :: before) ↔
      ∃ way, Closes g least free current way ∧ cycle = (current :: before).reverse ++ way := by
  induction fuel generalizing free current before with
  | zero => exact absurd hfuel (Nat.not_lt_zero _)
  | succ fuel ih =>
    have hstep (i : Nat) (hi : g.Arc current i ∧ free.has i = true) :
        cycle ∈ extend g least fuel none (free.erase i) (i :: current :: before) ↔
          ∃ way, Closes g least (free.erase i) i way ∧
            cycle = (current :: before).reverse ++ i :: way := by
      have hfewer := PlaceSet.length_members_erase_lt (hg.lt_size hi.1).2 hi.2
      rw [ih (free.erase i) i (current :: before) (by omega)]
      simp
    rw [extend_none, List.mem_append, List.mem_flatMap]
    constructor
    · rintro (hclosing | ⟨i, hi, hcycle⟩)
      · unfold closing at hclosing
        split at hclosing
        next hback =>
          rw [List.mem_singleton] at hclosing
          exact ⟨[], closes_nil.mpr (List.contains_iff_mem.mp hback), by simp [hclosing]⟩
        · cases hclosing
      · obtain ⟨hi, _⟩ := List.mem_filter.mp hi
        obtain ⟨harc, hfree⟩ := List.mem_filter.mp hi
        obtain ⟨way, hway, rfl⟩ := (hstep i ⟨harc, hfree⟩).mp hcycle
        exact ⟨i :: way, closes_cons.mpr ⟨harc, hfree, hway⟩, rfl⟩
    · rintro ⟨way, hway, rfl⟩
      cases way with
      | nil =>
        have hback : (g.targetsOf current).contains least = true :=
          List.contains_iff_mem.mpr (closes_nil.mp hway)
        rw [closing, if_pos hback, List.append_nil]
        exact .inl (List.mem_singleton_self _)
      | cons i way =>
        -- The place is tried, for it is live: the rest of the way leads back through free places.
        obtain ⟨harc, hfree, hrest⟩ := closes_cons.mp hway
        have hfrom : Closes g least free i way :=
          ⟨hrest.nodup, fun j hj => hway.free j (List.mem_cons_of_mem _ hj), hrest.chain,
            hrest.back⟩
        have hlive := PlaceGraph.has_leadingTo hg (hfrom.leads hfree)
        refine .inr ⟨i, List.mem_filter.mpr ⟨List.mem_filter.mpr ⟨harc, hfree⟩, hlive⟩, ?_⟩
        exact (hstep i ⟨harc, hfree⟩).mpr ⟨way, hrest, rfl⟩

/-- No extension of a path comes twice. -/
theorem nodup_extend (hg : g.Consistent) (fuel : Nat) (free : PlaceSet) (current : Nat)
    (before : List Nat) (hfuel : (free.members g.size).length < fuel) :
    (extend g least fuel none free (current :: before)).Nodup := by
  induction fuel generalizing free current before with
  | zero => exact absurd hfuel (Nat.not_lt_zero _)
  | succ fuel ih =>
    have hfewer (i : Nat) (hi : i ∈ onward g least current free) :
        ((free.erase i).members g.size).length < fuel := by
      obtain ⟨hi, _⟩ := List.mem_filter.mp hi
      obtain ⟨harc, hfree⟩ := List.mem_filter.mp hi
      have := PlaceSet.length_members_erase_lt (hg.lt_size harc).2 hfree
      omega
    -- What goes on to a place has it behind the path, so that it tells the extensions apart.
    have hform (i : Nat) (hi : i ∈ onward g least current free) (cycle : List Nat)
        (hcycle : cycle ∈ extend g least fuel none (free.erase i) (i :: current :: before)) :
        ∃ way, cycle = (current :: before).reverse ++ i :: way := by
      obtain ⟨way, _, rfl⟩ := (mem_extend hg fuel _ _ _ (hfewer i hi) cycle).mp hcycle
      exact ⟨way, by simp⟩
    rw [extend_none, List.nodup_append]
    refine ⟨?_, ?_, ?_⟩
    · unfold closing
      split <;> simp
    · rw [List.nodup_flatMap]
      refine ⟨fun i hi => ih _ _ _ (hfewer i hi), ?_⟩
      have honward : (onward g least current free).Nodup :=
        ((hg.nodup_targetsOf current).filter _).filter _
      refine List.Pairwise.imp_of_mem (fun {i j} hi hj hij => ?_) honward
      intro cycle hcycle hcycle'
      obtain ⟨way, rfl⟩ := hform i hi cycle hcycle
      obtain ⟨way', hway'⟩ := hform j hj _ hcycle'
      exact hij (List.cons.inj (List.append_cancel_left hway')).1
    · intro cycle hclosing cycle' hcycle' heq
      subst heq
      obtain ⟨i, hi, hcycle⟩ := List.mem_flatMap.mp hcycle'
      obtain ⟨way, hway⟩ := hform i hi _ hcycle
      unfold closing at hclosing
      split at hclosing
      · rw [List.mem_singleton.mp hclosing] at hway
        simp at hway
      · cases hclosing

/-- A cycle of places that begins with its least one: a least place and a way that closes it, through
greater places only. -/
def LeastFirst (g : PlaceGraph) (cycle : List Nat) : Prop :=
  ∃ least way, cycle = least :: way ∧ least < g.size ∧
    Closes g least (PlaceSet.between least g.size) least way

/-- The places after the least one leave room for it. -/
theorem length_members_between_lt (hleast : least < g.size) :
    ((PlaceSet.between least g.size).members g.size).length < g.size := by
  have hnodup : (least :: (PlaceSet.between least g.size).members g.size).Nodup := by
    refine List.nodup_cons.mpr ⟨fun h => ?_, PlaceSet.nodup_members⟩
    obtain ⟨_, hhas⟩ := PlaceSet.mem_members.mp h
    rw [PlaceSet.has_between hleast, decide_eq_true_eq] at hhas
    omega
  have hsubset : least :: (PlaceSet.between least g.size).members g.size ⊆ List.range g.size := by
    intro i hi
    rcases List.mem_cons.mp hi with rfl | hi
    · exact List.mem_range.mpr hleast
    · exact List.mem_range.mpr (PlaceSet.mem_members.mp hi).1
  have hle := hnodup.length_le_of_subset hsubset
  rwa [List.length_cons, List.length_range] at hle

theorem mem_fromLeast (hg : g.Consistent) (hleast : least < g.size) {cycle : List Nat} :
    cycle ∈ fromLeast g none least ↔
      ∃ way, cycle = least :: way ∧ Closes g least (PlaceSet.between least g.size) least way := by
  rw [fromLeast, mem_extend hg _ _ _ _ (length_members_between_lt hleast)]
  exact exists_congr fun way => and_comm

theorem ofGraph_eq (limit : Option Nat) :
    ofGraph g limit = cut limit ((List.range g.size).flatMap (fromLeast g none)) :=
  searchAll_eq_cut (fromLeast g) (fun limit _ => extend_eq_cut g.size limit _ _) limit _

/-- With a limit the listing is cut off. -/
theorem ofGraph_eq_cut (limit : Option Nat) : ofGraph g limit = cut limit (ofGraph g none) := by
  rw [ofGraph_eq, ofGraph_eq none, cut_none]

/-- Without a limit the listing holds the cycles that begin with their least place. -/
theorem mem_ofGraph (hg : g.Consistent) {cycle : List Nat} :
    cycle ∈ ofGraph g none ↔ LeastFirst g cycle := by
  rw [ofGraph_eq, cut_none, List.mem_flatMap]
  constructor
  · rintro ⟨least, hleast, hcycle⟩
    have hleast := List.mem_range.mp hleast
    obtain ⟨way, rfl, hway⟩ := (mem_fromLeast hg hleast).mp hcycle
    exact ⟨least, way, rfl, hleast, hway⟩
  · rintro ⟨least, way, rfl, hleast, hway⟩
    exact ⟨least, List.mem_range.mpr hleast, (mem_fromLeast hg hleast).mpr ⟨way, rfl, hway⟩⟩

/-- Without a limit no cycle comes twice. -/
theorem nodup_ofGraph (hg : g.Consistent) : (ofGraph g none).Nodup := by
  rw [ofGraph_eq, cut_none, List.nodup_flatMap]
  refine ⟨fun least hleast => nodup_extend hg _ _ _ _
    (length_members_between_lt (List.mem_range.mp hleast)), ?_⟩
  refine List.Pairwise.imp_of_mem (fun {i j} hi hj hij => ?_) List.nodup_range
  intro cycle hcycle hcycle'
  obtain ⟨way, rfl, _⟩ := (mem_fromLeast hg (List.mem_range.mp hi)).mp hcycle
  obtain ⟨way', hway', _⟩ := (mem_fromLeast hg (List.mem_range.mp hj)).mp hcycle'
  exact hij (List.cons.inj hway').1

end CycleListing

end Landscape
