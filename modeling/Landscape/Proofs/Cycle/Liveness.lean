import Landscape.Cycle.Listing
import Mathlib.Data.List.Nodup
import Mathlib.Logic.Relation

/-!
# Places that lead back

The listing of cycles extends a path only to places that still lead back to its beginning. They are
gathered from that beginning against the arcs, and none is missed: what has been found is closed
under its sources except for the places that still wait, and there is room for every place to wait
once.
-/

namespace Landscape

namespace PlaceSet

variable {s : PlaceSet} {i j bound : Nat}

theorem has_single : (single i).has j = decide (i = j) := by
  simp [has, single, Nat.one_shiftLeft, Nat.testBit_two_pow]

theorem has_insert : (s.insert i).has j = (s.has j || decide (i = j)) := by
  have hsingle := has_single (i := i) (j := j)
  unfold has at hsingle ⊢
  rw [insert, Nat.testBit_or, hsingle]

theorem has_erase : (s.erase i).has j = (s.has j && !decide (i = j)) := by
  unfold erase
  split
  next hi =>
    have hsingle := has_single (i := i) (j := j)
    unfold has at hi hsingle ⊢
    rw [Nat.testBit_xor, hsingle]
    by_cases hij : i = j
    · subst hij
      simp [hi]
    · simp [hij]
  next hi =>
    by_cases hij : i = j
    · subst hij
      simpa using hi
    · simp [hij]

/-- The places after one that is itself below the bound. -/
theorem has_between (hi : i < bound) : (between i bound).has j = decide (i < j ∧ j < bound) := by
  unfold has between
  rw [Nat.testBit_xor, Nat.one_shiftLeft, Nat.one_shiftLeft, Nat.testBit_two_pow_sub_one,
    Nat.testBit_two_pow_sub_one, Bool.eq_iff_iff]
  simp only [bne_iff_ne, ne_eq, decide_eq_decide, decide_eq_true_eq]
  omega

/-- A set with several more places. -/
theorem has_foldl_insert (places : List Nat) :
    (places.foldl insert s).has j = true ↔ s.has j = true ∨ j ∈ places := by
  induction places generalizing s with
  | nil => simp
  | cons i places ih =>
    rw [List.foldl_cons, ih, has_insert, List.mem_cons, Bool.or_eq_true, decide_eq_true_eq,
      or_assoc, eq_comm (a := i)]

/-- The places of a set that are below a bound. -/
def members (s : PlaceSet) (bound : Nat) : List Nat := (List.range bound).filter s.has

theorem mem_members : j ∈ s.members bound ↔ j < bound ∧ s.has j = true := by
  simp [members]

theorem nodup_members : (s.members bound).Nodup := List.nodup_range.filter _

/-- A set without one of its places has fewer. -/
theorem length_members_erase_lt (hi : i < bound) (hhas : s.has i = true) :
    ((s.erase i).members bound).length < (s.members bound).length := by
  have hnodup : (i :: (s.erase i).members bound).Nodup := by
    refine List.nodup_cons.mpr ⟨fun h => ?_, nodup_members⟩
    simp [mem_members, has_erase] at h
  refine hnodup.length_le_of_subset fun j hj => ?_
  rcases List.mem_cons.mp hj with rfl | hj
  · exact mem_members.mpr ⟨hi, hhas⟩
  · obtain ⟨hlt, hj⟩ := mem_members.mp hj
    rw [has_erase, Bool.and_eq_true] at hj
    exact mem_members.mpr ⟨hlt, hj.1⟩

end PlaceSet

namespace PlaceGraph

/-- An arc leads from one place to another. -/
def Arc (g : PlaceGraph) (i j : Nat) : Prop := j ∈ g.targetsOf i

/-- The two lists of a graph describe the same arcs, each of them once. -/
structure Consistent (g : PlaceGraph) : Prop where
  mem_sourcesOf : ∀ {i j}, i ∈ g.sourcesOf j ↔ g.Arc i j
  lt_size : ∀ {i j}, g.Arc i j → i < g.size ∧ j < g.size
  nodup_targetsOf : ∀ i, (g.targetsOf i).Nodup
  nodup_sourcesOf : ∀ i, (g.sourcesOf i).Nodup

/-- Places of a set that have not been found yet. -/
def missing (g : PlaceGraph) (through found : PlaceSet) : List Nat :=
  (List.range g.size).filter fun j => through.has j && !found.has j

/-- Places that have been found have all their sources in a set among them, unless they wait. -/
def ClosedBut (g : PlaceGraph) (through : PlaceSet) (waiting : List Nat) (found : PlaceSet) : Prop :=
  ∀ i, found.has i = true → i ∉ waiting → ∀ j ∈ g.sourcesOf i, through.has j = true →
    found.has j = true

variable {g : PlaceGraph} {through found : PlaceSet} {waiting : List Nat} {i j : Nat}

/-- The sources of a place that are new. -/
def fresh (g : PlaceGraph) (through found : PlaceSet) (i : Nat) : List Nat :=
  (g.sourcesOf i).filter fun j => through.has j && !found.has j

theorem mem_fresh : j ∈ g.fresh through found i ↔
    j ∈ g.sourcesOf i ∧ through.has j = true ∧ found.has j = false := by
  simp [fresh]

/-- New places are missing no longer. -/
theorem length_missing_add_le (hg : g.Consistent) (through found : PlaceSet) (i : Nat) :
    (g.missing through ((g.fresh through found i).foldl PlaceSet.insert found)).length +
      (g.fresh through found i).length ≤ (g.missing through found).length := by
  rw [← List.length_append]
  refine List.Nodup.length_le_of_subset ?_ ?_
  · refine List.nodup_append.mpr ⟨List.nodup_range.filter _, (hg.nodup_sourcesOf i).filter _, ?_⟩
    rintro j hj _ hfresh rfl
    have hfound : (((g.fresh through found i).foldl PlaceSet.insert found).has j) = true :=
      PlaceSet.has_foldl_insert _ |>.mpr (.inr hfresh)
    simp [missing, hfound] at hj
  · intro j hj
    rcases List.mem_append.mp hj with hmissing | hfresh
    · obtain ⟨hrange, hhas⟩ := List.mem_filter.mp hmissing
      rw [Bool.and_eq_true, Bool.not_eq_true', Bool.eq_false_iff, Ne,
        PlaceSet.has_foldl_insert, not_or] at hhas
      exact List.mem_filter.mpr ⟨hrange, by simp [hhas.1, hhas.2.1]⟩
    · obtain ⟨hsource, hthrough, hfound⟩ := mem_fresh.mp hfresh
      have hlt := (hg.lt_size (hg.mem_sourcesOf.mp hsource)).1
      exact List.mem_filter.mpr ⟨List.mem_range.mpr hlt, by simp [hthrough, hfound]⟩

/-- Taking a place off those that wait keeps everything else closed. -/
theorem ClosedBut.step (h : g.ClosedBut through (i :: waiting) found) :
    g.ClosedBut through (g.fresh through found i ++ waiting)
      ((g.fresh through found i).foldl PlaceSet.insert found) := by
  intro k hk hwaits j hj hthrough
  rw [List.mem_append, not_or] at hwaits
  rw [PlaceSet.has_foldl_insert] at hk ⊢
  have hk := hk.resolve_right hwaits.1
  by_cases hki : k = i
  · subst hki
    cases hfound : found.has j with
    | true => exact .inl rfl
    | false => exact .inr (mem_fresh.mpr ⟨hj, hthrough, hfound⟩)
  · refine .inl (h k hk ?_ j hj hthrough)
    rw [List.mem_cons, not_or]
    exact ⟨hki, hwaits.2⟩

/-- Gathering keeps what has been found and closes it, as long as every place can wait once. -/
theorem gather_spec (hg : g.Consistent) (fuel : Nat) (waiting : List Nat) (found : PlaceSet)
    (hfuel : waiting.length + (g.missing through found).length ≤ fuel)
    (hclosed : g.ClosedBut through waiting found) :
    (∀ j, found.has j = true → (g.gather through fuel waiting found).has j = true) ∧
      g.ClosedBut through [] (g.gather through fuel waiting found) := by
  induction fuel generalizing waiting found with
  | zero =>
    cases waiting with
    | nil => exact ⟨fun _ => id, hclosed⟩
    | cons i waiting => simp at hfuel
  | succ fuel ih =>
    cases waiting with
    | nil => exact ⟨fun _ => id, hclosed⟩
    | cons i waiting =>
      have hmissing := length_missing_add_le hg through found i
      rw [List.length_cons] at hfuel
      obtain ⟨hkeeps, hcloses⟩ := ih (g.fresh through found i ++ waiting) _
        (by rw [List.length_append]; omega) hclosed.step
      exact ⟨fun j hj => hkeeps j ((PlaceSet.has_foldl_insert _).mpr (.inl hj)), hcloses⟩

/-- Every place that leads to another one through places of a set is gathered from it. -/
theorem has_leadingTo (hg : g.Consistent)
    (h : Relation.ReflTransGen (fun a b => through.has a = true ∧ g.Arc a b) j i) :
    (g.leadingTo through i).has j = true := by
  have hsingle : g.ClosedBut through [i] (PlaceSet.single i) := by
    intro k hk hnot
    rw [PlaceSet.has_single, decide_eq_true_eq] at hk
    exact absurd (List.mem_singleton.mpr hk.symm) hnot
  have hfuel : [i].length + (g.missing through (PlaceSet.single i)).length ≤ g.size + 1 := by
    have hle := List.length_filter_le
      (fun j => through.has j && !(PlaceSet.single i).has j) (List.range g.size)
    rw [List.length_range] at hle
    simp only [missing, List.length_singleton]
    omega
  obtain ⟨hkeeps, hcloses⟩ := gather_spec hg (g.size + 1) [i] (PlaceSet.single i) hfuel hsingle
  induction h using Relation.ReflTransGen.head_induction_on with
  | refl => exact hkeeps i (by simp [PlaceSet.has_single])
  | head hab _ ih =>
    exact hcloses _ ih List.not_mem_nil _ (hg.mem_sourcesOf.mpr hab.2) hab.1

end PlaceGraph

end Landscape
