import Landscape.Cycle.Search
import Mathlib.Data.List.Chain
import Mathlib.Data.List.Nodup

/-!
# Following links back

A walk back along links is bounded by nothing but its target: there is none where a link is missing,
and none where the links go round beside the target. A walk that arrives meets no id twice, so it is
no longer than the links are many, and the path that the search reads off is the whole of it.
-/

namespace Landscape.CycleSearch

open State

/-- The ids of the walk back along links from an id, which ends where it meets the target. -/
inductive WalksBack (parents : List (Text × Text)) (target : Text) : Text → List Text → Prop where
  | arrive : WalksBack parents target target [target]
  /-- At any other id there is a link, and the walk goes on along it. -/
  | follow {id parent : Text} {walk : List Text} (hne : id ≠ target)
    (hlink : parents.lookup id = some parent) (hwalk : WalksBack parents target parent walk) :
    WalksBack parents target id (id :: walk)

namespace WalksBack

variable {parents : List (Text × Text)} {target a b : Text} {walk other : List Text}

/-- There is at most one walk from an id. -/
theorem unique (h : WalksBack parents target a walk) (h' : WalksBack parents target a other) :
    walk = other := by
  induction h generalizing other with
  | arrive =>
    cases h' with
    | arrive => rfl
    | follow hne _ _ => exact absurd rfl hne
  | follow hne hlink _ ih =>
    cases h' with
    | arrive => exact absurd rfl hne
    | follow _ hlink' hwalk' =>
      obtain rfl := Option.some.inj (hlink.symm.trans hlink')
      rw [ih hwalk']

/-- The walk from an id that is met is the rest of the walk. -/
theorem exists_suffix (h : WalksBack parents target a walk) (hb : b ∈ walk) :
    ∃ rest, WalksBack parents target b rest ∧ rest <:+ walk := by
  induction h with
  | arrive =>
    obtain rfl := List.mem_singleton.mp hb
    exact ⟨_, .arrive, List.suffix_rfl⟩
  | follow hne hlink hwalk ih =>
    rcases List.mem_cons.mp hb with rfl | hb
    · exact ⟨_, .follow hne hlink hwalk, List.suffix_rfl⟩
    · obtain ⟨rest, hrest, hsuffix⟩ := ih hb
      exact ⟨rest, hrest, hsuffix.trans (List.suffix_cons _ _)⟩

/-- No id is met twice, for the walk would go on from there as it did before. -/
theorem nodup (h : WalksBack parents target a walk) : walk.Nodup := by
  induction h with
  | arrive => exact List.nodup_singleton _
  | @follow id parent walk hne hlink hwalk ih =>
    refine List.nodup_cons.mpr ⟨fun hmem => ?_, ih⟩
    obtain ⟨rest, hrest, hsuffix⟩ := hwalk.exists_suffix hmem
    obtain rfl := hrest.unique (.follow hne hlink hwalk)
    have hle := hsuffix.length_le
    rw [List.length_cons] at hle
    omega

/-- All ids of a walk but its target have links. -/
theorem exists_linked (h : WalksBack parents target a walk) :
    ∃ linked, walk = linked ++ [target] ∧ linked ⊆ Entries.keys parents := by
  induction h with
  | arrive => exact ⟨[], rfl, List.nil_subset _⟩
  | @follow id parent walk _ hlink _ ih =>
    obtain ⟨linked, rfl, hsubset⟩ := ih
    have hid : id ∈ Entries.keys parents := by
      rw [← Entries.lookup_isSome_iff, hlink]
      rfl
    exact ⟨id :: linked, rfl, List.cons_subset.mpr ⟨hid, hsubset⟩⟩

/-- A walk follows each link once at most. -/
theorem length_le (h : WalksBack parents target a walk) : walk.length ≤ parents.length + 1 := by
  have hnodup := h.nodup
  obtain ⟨linked, rfl, hsubset⟩ := h.exists_linked
  have hle := (List.nodup_append.mp hnodup).1.length_le_of_subset hsubset
  rw [List.length_append, List.length_singleton]
  simpa [Entries.keys] using hle

/-- With links enough to follow, a walk is followed to its target. -/
theorem pathFrom_eq (h : WalksBack parents target a walk) (fuel : Nat) (path : List Text)
    (hfuel : walk.length ≤ fuel + 1) :
    pathFrom parents target fuel a path = walk.reverse ++ path := by
  induction h generalizing fuel path with
  | arrive =>
    cases fuel with
    | zero => rfl
    | succ fuel => simp [pathFrom]
  | @follow id parent walk hne hlink hwalk ih =>
    have hpos : 0 < walk.length := by
      obtain ⟨linked, rfl, _⟩ := hwalk.exists_linked
      simp
    rw [List.length_cons] at hfuel
    obtain ⟨fuel, rfl⟩ : ∃ k, fuel = k + 1 := ⟨fuel - 1, by omega⟩
    have hid : (id == target) = false := beq_eq_false_iff_ne.mpr hne
    have hrest := ih fuel (id :: path) (by omega)
    simp [pathFrom, hid, hlink, hrest]

/-- The path that the search reads off is the walk, taken from its end. -/
theorem path_eq {s : State} (h : WalksBack s.parents target a walk) :
    s.path target a = walk.reverse := by
  rw [State.path, h.pathFrom_eq s.parents.length [] h.length_le, List.append_nil]

/-- Links that go down a list of ids are walked back to the first id that is looked for. -/
theorem of_isChain {above below : List Text} (hnot : target ∉ above)
    (hchain : (above ++ target :: below).IsChain fun a b => parents.lookup a = some b)
    (hfirst : (above ++ target :: below).head? = some a) :
    WalksBack parents target a (above ++ [target]) := by
  induction above generalizing a with
  | nil =>
    obtain rfl : target = a := by simpa using hfirst
    exact .arrive
  | cons c above ih =>
    obtain rfl : c = a := by simpa using hfirst
    rw [List.mem_cons, not_or] at hnot
    rw [List.cons_append, List.isChain_cons] at hchain
    obtain ⟨hlink, hchain⟩ := hchain
    obtain ⟨next, hnext⟩ : ∃ next, (above ++ target :: below).head? = some next :=
      Option.isSome_iff_exists.mp (by simp)
    exact .follow (Ne.symm hnot.1) (hlink next hnext) (ih hnot.2 hchain hnext)

end WalksBack

end Landscape.CycleSearch
