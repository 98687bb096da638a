import Landscape.Proofs.Cycle.Detection
import Landscape.Proofs.Cycle.Enumeration
import Landscape.Proofs.Cycle.Places
import Mathlib.Data.Finset.Max
import Mathlib.Data.List.Cycle

/-!
# What the listing of cycles says about a model

A cycle has no beginning: its ids may be listed from any of them on. Of each cycle the listing holds
the one list that begins with its least id, so that every cycle comes exactly once up to rotation.
The cycle that a detection reports is one of them, and where every relation starts at an element a
detection reports one as soon as there is any.
-/

namespace Landscape

/-- Rotating a list means to exchange two parts of it. -/
theorem isRotated_iff_append {α : Type} {l l' : List α} :
    l.IsRotated l' ↔ ∃ front back, l = front ++ back ∧ l' = back ++ front := by
  constructor
  · intro h
    obtain ⟨n, hn, rfl⟩ := List.isRotated_iff_mod.mp h
    exact ⟨l.take n, l.drop n, (List.take_append_drop n l).symm, List.rotate_eq_drop_append_take hn⟩
  · rintro ⟨front, back, rfl, rfl⟩
    exact List.isRotated_append

/-- A list without repetitions has one rotation only that begins with a given item. -/
theorem eq_of_isRotated_cons {α : Type} {a : α} {l l' : List α} (hnodup : (a :: l).Nodup)
    (h : (a :: l).IsRotated (a :: l')) : a :: l = a :: l' := by
  obtain ⟨front, back, heq, heq'⟩ := isRotated_iff_append.mp h
  cases front with
  | nil => rw [heq, heq', List.nil_append, List.append_nil]
  | cons f front =>
    cases back with
    | nil => rw [heq, heq', List.nil_append, List.append_nil]
    | cons b back =>
      obtain ⟨rfl, hfront⟩ := List.cons.inj heq
      obtain ⟨rfl, -⟩ := List.cons.inj heq'
      rw [hfront] at hnodup
      simp at hnodup

namespace Model

variable {m : Model} {ids : List Text} {a : Text}

/-- A directed cycle goes around without a first or a last id. -/
theorem isCycle_iff_chain :
    m.IsCycle ids ↔ ids ≠ [] ∧ ids.Nodup ∧ Cycle.Chain m.Leads (ids : Cycle Text) := by
  have hchain (hne : ids ≠ []) : Cycle.Chain m.Leads (ids : Cycle Text) ↔
      m.Leads (ids.getLast hne) (ids.head hne) ∧ ids.IsChain m.Leads := by
    rw [Cycle.chain_ne_nil _ hne]
    cases ids with
    | nil => exact absurd rfl hne
    | cons a ids => exact List.isChain_cons_cons
  constructor
  · rintro ⟨hne, hnodup, hids, hcloses⟩
    exact ⟨hne, hnodup, (hchain hne).mpr ⟨hcloses, hids⟩⟩
  · rintro ⟨hne, hnodup, hids⟩
    exact ⟨hne, hnodup, ((hchain hne).mp hids).2, ((hchain hne).mp hids).1⟩

/-- A cycle stays one wherever its list begins. -/
theorem IsCycle.rotate {ids' : List Text} (h : m.IsCycle ids) (hrotated : ids.IsRotated ids') :
    m.IsCycle ids' := by
  rw [isCycle_iff_chain] at h ⊢
  obtain ⟨hne, hnodup, hchain⟩ := h
  refine ⟨fun hnil => hne ?_, hrotated.nodup_iff.mp hnodup, ?_⟩
  · rwa [hnil, List.isRotated_nil_iff] at hrotated
  · rwa [← Cycle.coe_eq_coe.mpr hrotated]

/-- A cycle may begin at each of its ids. -/
theorem IsCycle.exists_cons (h : m.IsCycle ids) (ha : a ∈ ids) : ∃ rest, m.IsCycle (a :: rest) := by
  obtain ⟨front, back, rfl⟩ := List.append_of_mem ha
  exact ⟨back ++ front, h.rotate List.isRotated_append⟩

/-- A cycle goes through each of its ids. -/
theorem IsCycle.onCycle (h : m.IsCycle ids) (ha : a ∈ ids) : m.OnCycle a := by
  obtain ⟨rest, hcycle⟩ := h.exists_cons ha
  exact hcycle.onCycle_head

/-- A relation leads on from every id of a cycle. -/
theorem IsCycle.exists_leads (h : m.IsCycle ids) (ha : a ∈ ids) : ∃ b, m.Leads a b := by
  obtain ⟨rest, hcycle⟩ := h.exists_cons ha
  have hchain := (isCycle_iff_chain.mp hcycle).2.2
  rw [Cycle.chain_coe_cons] at hchain
  cases hrest : rest ++ [a] with
  | nil => simp at hrest
  | cons b rest =>
    rw [hrest] at hchain
    exact ⟨b, (List.isChain_cons_cons.mp hchain).1⟩

/-- Every id of a cycle has a place. -/
theorem IsCycle.mem_sortedIds (h : m.IsCycle ids) (ha : a ∈ ids) : a ∈ m.sortedIds := by
  obtain ⟨b, hab⟩ := h.exists_leads ha
  exact hab.mem_sortedIds.1

/-- The places of a cycle that is listed are below the number of ids. -/
theorem lt_of_leastFirst {places : List Nat} (h : CycleListing.LeastFirst m.placeGraph places) :
    ∀ i ∈ places, i < m.sortedIds.length := by
  obtain ⟨least, way, rfl, hleast, hway⟩ := h
  rw [size_placeGraph] at hleast
  refine List.forall_mem_cons.mpr ⟨hleast, fun i hi => ?_⟩
  have hfree := hway.free i hi
  rw [PlaceSet.has_between (by rwa [size_placeGraph]), decide_eq_true_eq, size_placeGraph] at hfree
  exact hfree.2

theorem map_place_map_idAt {places : List Nat} (h : ∀ i ∈ places, i < m.sortedIds.length) :
    (places.map m.idAt).map m.place = places := by
  rw [List.map_map]
  calc places.map (m.place ∘ m.idAt) = places.map id :=
        List.map_congr_left fun i hi => place_idAt (h i hi)
    _ = places := List.map_id places

theorem map_idAt_map_place (h : ∀ a ∈ ids, a ∈ m.sortedIds) :
    (ids.map m.place).map m.idAt = ids := by
  rw [List.map_map]
  calc ids.map (m.idAt ∘ m.place) = ids.map id :=
        List.map_congr_left fun a ha => idAt_place (h a ha)
    _ = ids := List.map_id ids

/-- The ids of a cycle of places are a cycle. -/
theorem isCycle_of_leastFirst {places : List Nat}
    (h : CycleListing.LeastFirst m.placeGraph places) : m.IsCycle (places.map m.idAt) := by
  have hlt := lt_of_leastFirst h
  obtain ⟨least, way, rfl, hleast, hway⟩ := h
  have hnodup : (least :: way).Nodup := by
    refine List.nodup_cons.mpr ⟨fun hmem => ?_, hway.nodup⟩
    have hfree := hway.free least hmem
    rw [PlaceSet.has_between hleast, decide_eq_true_eq] at hfree
    exact Nat.lt_irrefl _ hfree.1
  refine ⟨by simp, ?_, ?_, ?_⟩
  · refine List.Nodup.map_on (fun i hi j hj hij => ?_) hnodup
    rw [← place_idAt (hlt i hi), hij, place_idAt (hlt j hj)]
  · rw [List.isChain_map]
    exact hway.chain.imp fun _ _ harc => (arc_placeGraph.mp harc).2.2
  · rw [List.getLast_map]
    exact (arc_placeGraph.mp hway.back).2.2

/-- The places of a cycle that begins with its least id are a cycle of places. -/
theorem leastFirst_of_isCycle (h : m.IsCycle (a :: ids))
    (hleast : ∀ b ∈ ids, m.place a < m.place b) :
    CycleListing.LeastFirst m.placeGraph ((a :: ids).map m.place) := by
  have hplaced (b : Text) (hb : b ∈ a :: ids) : b ∈ m.sortedIds := h.mem_sortedIds hb
  have harc {b c : Text} (hbc : m.Leads b c) : m.placeGraph.Arc (m.place b) (m.place c) := by
    obtain ⟨hb, hc⟩ := hbc.mem_sortedIds
    rw [arc_placeGraph, idAt_place hb, idAt_place hc]
    exact ⟨place_lt hb, place_lt hc, hbc⟩
  have hsize : m.place a < m.placeGraph.size := by
    rw [size_placeGraph]
    exact place_lt (hplaced a List.mem_cons_self)
  refine ⟨m.place a, ids.map m.place, rfl, hsize, ?_, ?_, ?_, ?_⟩
  · refine List.Nodup.map_on (fun b hb c hc hbc => ?_) (List.nodup_cons.mp h.nodup).2
    rw [← idAt_place (hplaced b (List.mem_cons_of_mem _ hb)), hbc,
      idAt_place (hplaced c (List.mem_cons_of_mem _ hc))]
  · intro i hi
    obtain ⟨b, hb, rfl⟩ := List.mem_map.mp hi
    rw [PlaceSet.has_between hsize, decide_eq_true_eq, size_placeGraph]
    exact ⟨hleast b hb, place_lt (hplaced b (List.mem_cons_of_mem _ hb))⟩
  · rw [← List.map_cons, List.isChain_map]
    exact h.chain.imp fun _ _ => harc
  · have hlast : (m.place a :: ids.map m.place).getLast (List.cons_ne_nil _ _) =
        m.place ((a :: ids).getLast h.ne_nil) := List.getLast_map (l := a :: ids) (by simp)
    rw [hlast]
    exact harc h.closes

/-- The listing holds the ids of the cycles of places. -/
theorem mem_cycles : ids ∈ m.cycles ↔
    ∃ places, CycleListing.LeastFirst m.placeGraph places ∧ places.map m.idAt = ids := by
  refine List.mem_map.trans (exists_congr fun places => ?_)
  rw [CycleListing.mem_ofGraph m.consistent_placeGraph]
  rfl

theorem nodup_cycles (m : Model) : m.cycles.Nodup := by
  refine List.Nodup.map_on (fun p hp q hq hpq => ?_)
    (CycleListing.nodup_ofGraph m.consistent_placeGraph)
  rw [CycleListing.mem_ofGraph m.consistent_placeGraph] at hp hq
  have hnames : p.map m.idAt = q.map m.idAt := hpq
  rw [← map_place_map_idAt (lt_of_leastFirst hp), hnames, map_place_map_idAt (lt_of_leastFirst hq)]

/-- Whatever is listed is a cycle. -/
theorem isCycle_of_mem_cycles (h : ids ∈ m.cycles) : m.IsCycle ids := by
  obtain ⟨places, hplaces, rfl⟩ := mem_cycles.mp h
  exact isCycle_of_leastFirst hplaces

/-- Every cycle is listed, from its least id on. -/
theorem IsCycle.exists_mem_cycles (h : m.IsCycle ids) :
    ∃ listed ∈ m.cycles, listed.IsRotated ids := by
  obtain ⟨a, ha, hleast⟩ := ids.toFinset.exists_min_image m.place
    (List.toFinset_nonempty_iff ids |>.mpr h.ne_nil)
  obtain ⟨front, back, rfl⟩ := List.append_of_mem (List.mem_toFinset.mp ha)
  have hrotated : (front ++ a :: back).IsRotated (a :: back ++ front) := List.isRotated_append
  have hcycle := h.rotate hrotated
  refine ⟨a :: back ++ front, mem_cycles.mpr ⟨_, leastFirst_of_isCycle hcycle fun b hb => ?_,
    map_idAt_map_place fun b hb => hcycle.mem_sortedIds hb⟩, hrotated.symm⟩
  have hb' : b ∈ a :: back ++ front := List.mem_cons_of_mem a hb
  have hle := hleast b (List.mem_toFinset.mpr (hrotated.mem_iff.mpr hb'))
  refine Nat.lt_of_le_of_ne hle fun heq => ?_
  -- Two ids of one place are one id, and no id comes twice.
  have hab : a = b := by
    rw [← idAt_place (hcycle.mem_sortedIds List.mem_cons_self), heq,
      idAt_place (hcycle.mem_sortedIds hb')]
  exact (List.nodup_cons.mp hcycle.nodup).1 (hab ▸ hb)

/-- No cycle is listed from two of its ids on. -/
theorem eq_of_isRotated {ids' : List Text} (h : ids ∈ m.cycles) (h' : ids' ∈ m.cycles)
    (hrotated : ids.IsRotated ids') : ids = ids' := by
  have hnodup := (isCycle_of_mem_cycles h).nodup
  obtain ⟨places, hplaces, rfl⟩ := mem_cycles.mp h
  obtain ⟨places', hplaces', rfl⟩ := mem_cycles.mp h'
  have hmapped := hrotated.map m.place
  rw [map_place_map_idAt (lt_of_leastFirst hplaces), map_place_map_idAt (lt_of_leastFirst hplaces')]
    at hmapped
  obtain ⟨least, way, rfl, hleast, hway⟩ := hplaces
  obtain ⟨least', way', rfl, hleast', hway'⟩ := hplaces'
  have hle : least ≤ least' := by
    rcases List.mem_cons.mp (hmapped.mem_iff.mpr List.mem_cons_self) with rfl | hmem
    · exact Nat.le_refl _
    · have hfree := hway.free _ hmem
      rw [PlaceSet.has_between hleast, decide_eq_true_eq] at hfree
      exact Nat.le_of_lt hfree.1
  have hge : least' ≤ least := by
    rcases List.mem_cons.mp (hmapped.mem_iff.mp List.mem_cons_self) with rfl | hmem
    · exact Nat.le_refl _
    · have hfree := hway'.free _ hmem
      rw [PlaceSet.has_between hleast', decide_eq_true_eq] at hfree
      exact Nat.le_of_lt hfree.1
  obtain rfl := Nat.le_antisymm hle hge
  exact congrArg (List.map m.idAt) (eq_of_isRotated_cons hnodup.of_map hmapped)

/-- A cycle is listed once, from whichever of its ids it is looked for. -/
theorem IsCycle.countP_cycles (h : m.IsCycle ids) :
    m.cycles.countP (fun listed => decide (listed.IsRotated ids)) = 1 := by
  obtain ⟨listed, hmem, hrotated⟩ := h.exists_mem_cycles
  have hcongr : m.cycles.countP (fun other => decide (other.IsRotated ids)) =
      m.cycles.countP (· == listed) := by
    refine List.countP_congr fun other hother => ?_
    rw [decide_eq_true_eq, beq_iff_eq]
    exact ⟨fun h => eq_of_isRotated hother hmem (h.trans hrotated.symm), fun h => h ▸ hrotated⟩
  rw [hcongr]
  exact List.count_eq_one_of_mem m.nodup_cycles hmem

/-- With a limit the listing is cut off after so many cycles. -/
theorem listCycles_some (m : Model) (n : Nat) : m.listCycles (some n) = m.cycles.take n := by
  simp only [cycles, listCycles]
  rw [CycleListing.ofGraph_eq_cut]
  simp [CycleListing.cut, List.map_take]

theorem maxLimit_eq : maxLimit = 2 ^ 63 - 1 := by decide

/-- A limit that can be set gives so many cycles, or all if there are no more. -/
theorem cyclesUpTo_some {limit : Int} (hlow : 0 ≤ limit) (hhigh : limit < 2 ^ 63) :
    m.cyclesUpTo (some limit) = .ok (m.cycles.take limit.toNat) := by
  have hrange : (decide (limit < 0) || decide (maxLimit < limit)) = false := by
    rw [maxLimit_eq, Bool.or_eq_false_iff, decide_eq_false_iff_not, decide_eq_false_iff_not]
    omega
  simp [cyclesUpTo, hrange, listCycles_some]

/-- A greater limit cannot be set. -/
theorem cyclesUpTo_of_le {limit : Int} (h : 2 ^ 63 ≤ limit) :
    m.cyclesUpTo (some limit) = .error .negativeLimit := by
  have hrange : (decide (limit < 0) || decide (maxLimit < limit)) = true := by
    rw [maxLimit_eq, Bool.or_eq_true, decide_eq_true_eq, decide_eq_true_eq]
    omega
  simp [cyclesUpTo, hrange]

/-- What a detection reports as a cycle is the cycle that the search finds. -/
theorem mem_detect_cycle (limits : Limits) {f : Finding} :
    f ∈ m.detect limits ∧ f.smell = .cycle ↔
      ∃ cycle, m.findCycle = some cycle ∧ Finding.ofCycle cycle = f :=
  mem_detect_cycle_iff.trans (exists_congr fun _ => and_congr_right' eq_comm)

/-- Something is found in a model in which elements reach a cycle. -/
theorem detect_ne_nil_of_cycle (h : m.IsCycle ids) (ha : a ∈ ids) (hreached : m.IsReached a)
    (limits : Limits) : m.detect limits ≠ [] := by
  obtain ⟨cycle, hcycle⟩ :=
    Option.isSome_iff_exists.mp (findCycle_isSome_iff.mpr ⟨a, hreached, h.onCycle ha⟩)
  exact List.ne_nil_of_mem (mem_detect_cycle_iff.mpr ⟨cycle, hcycle, rfl⟩).1

/-- Where every relation starts at an element, elements reach every cycle. -/
theorem IsCycle.isReached_head (h : m.IsCycle ids)
    (hsources : ∀ r ∈ m.relations, ∃ e ∈ m.elements, e.id = r.source) :
    m.IsReached (ids.head h.ne_nil) := by
  obtain ⟨b, r, hr, hsource, _⟩ := h.exists_leads (List.head_mem h.ne_nil)
  obtain ⟨e, he, hid⟩ := hsources r hr
  rw [← hsource, ← hid]
  exact isReached_id he

/--
The listing holds every simple directed cycle once up to rotation and nothing else. With a limit that
can be set it holds so many of them, or all if there are no more; a limit of `2 ^ 63` or more is
refused. The cycle that a detection reports is listed up to rotation, and where every relation starts
at an element a detection reports one exactly when there is one to list.
-/
theorem listing_agrees_with_detection (m : Model) (limits : Limits) :
    (∀ listed ∈ m.cycles, m.IsCycle listed) ∧
    (∀ ids, m.IsCycle ids →
      m.cycles.countP (fun listed => decide (listed.IsRotated ids)) = 1) ∧
    m.cyclesUpTo none = .ok m.cycles ∧
    (∀ limit : Int, 0 ≤ limit → limit < 2 ^ 63 →
      ∃ found, m.cyclesUpTo (some limit) = .ok found ∧ found <+: m.cycles ∧
        found.length = min limit.toNat m.cycles.length) ∧
    (∀ limit : Int, 2 ^ 63 ≤ limit → m.cyclesUpTo (some limit) = .error .negativeLimit) ∧
    (∀ f ∈ m.detect limits, f.smell = .cycle → ∃ listed ∈ m.cycles, listed.IsRotated f.elements) ∧
    ((∀ r ∈ m.relations, ∃ e ∈ m.elements, e.id = r.source) →
      ((∃ f ∈ m.detect limits, f.smell = .cycle) ↔ m.cycles ≠ [])) := by
  have hreported : ∀ f ∈ m.detect limits, f.smell = .cycle →
      ∃ listed ∈ m.cycles, listed.IsRotated f.elements := by
    intro f hf hsmell
    obtain ⟨cycle, hcycle, rfl⟩ := (mem_detect_cycle limits).mp ⟨hf, hsmell⟩
    exact (isCycle_of_findCycle hcycle).1.exists_mem_cycles
  refine ⟨fun listed => isCycle_of_mem_cycles, fun ids h => h.countP_cycles, rfl,
    fun limit hlow hhigh => ?_, fun limit h => cyclesUpTo_of_le h, hreported, fun hsources => ?_⟩
  · exact ⟨_, cyclesUpTo_some hlow hhigh, List.take_prefix _ _, List.length_take⟩
  constructor
  · rintro ⟨f, hf, hsmell⟩
    obtain ⟨listed, hlisted, _⟩ := hreported f hf hsmell
    exact List.ne_nil_of_mem hlisted
  · intro hne
    obtain ⟨listed, hlisted⟩ := List.exists_mem_of_ne_nil _ hne
    have hcycle := isCycle_of_mem_cycles hlisted
    have hfound := findCycle_isSome_iff.mpr
      ⟨_, hcycle.isReached_head hsources, hcycle.onCycle_head⟩
    obtain ⟨cycle, hcycle⟩ := Option.isSome_iff_exists.mp hfound
    obtain ⟨hf, hsmell⟩ := (mem_detect_cycle limits).mpr ⟨cycle, hcycle, rfl⟩
    exact ⟨_, hf, hsmell⟩

/-- Two cycles with an id in common, one of them looked for from its second id on. -/
theorem listing_of_two_cycles :
    let m : Model :=
      { elements := [{ id := "a", name := "A", kind := .system },
          { id := "b", name := "B", kind := .system }]
        relations := [{ source := "b", target := "a" }, { source := "a", target := "b" },
          { source := "b", target := "b" }] }
    m.IsCycle ["b", "a"] ∧
      m.cycles.countP (fun listed => decide (listed.IsRotated ["b", "a"])) = 1 ∧
      (∃ found, m.cyclesUpTo (some 1) = .ok found ∧ found <+: m.cycles ∧
        found.length = min 1 m.cycles.length) ∧
      (∃ f ∈ m.detect ⟨.never, .never, true⟩, f.smell = .cycle) := by
  intro m
  have hcycle : m.IsCycle ["b", "a"] :=
    ⟨by decide, by decide, by simp [Leads, m], by simp [Leads, m]⟩
  have hsources : ∀ r ∈ m.relations, ∃ e ∈ m.elements, e.id = r.source := by decide +kernel
  obtain ⟨_, hcount, _, hlimit, _, _, hdetected⟩ :=
    m.listing_agrees_with_detection ⟨.never, .never, true⟩
  have hone := hcount _ hcycle
  refine ⟨hcycle, hone, hlimit 1 (by decide) (by decide), (hdetected hsources).mpr ?_⟩
  intro hnil
  rw [hnil] at hone
  cases hone

/-- There is a limit that is not negative and that gives no listing at all. -/
theorem no_listing_up_to_large_limit :
    let m : Model := { relations := [{ source := "A", target := "A" }] }
    let limit : Int := 9223372036854775808
    0 ≤ limit ∧ ¬∃ found, m.cyclesUpTo (some limit) = .ok found ∧
      found.length = min limit.toNat m.cycles.length := by
  intro m limit
  refine ⟨by decide, ?_⟩
  rintro ⟨found, hfound, _⟩
  rw [cyclesUpTo_of_le (by decide)] at hfound
  cases hfound

end Model

end Landscape
