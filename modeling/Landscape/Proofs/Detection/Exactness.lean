import Landscape.Proofs.Cycle.Listing
import Landscape.Proofs.Detection.Severities
import Landscape.Proofs.Detection.Thresholds
import Mathlib.Algebra.BigOperators.Group.Finset.Piecewise
import Mathlib.Algebra.BigOperators.Ring.Finset
import Mathlib.Algebra.Order.BigOperators.Group.Finset

/-!
# What the detectors find, and how it fits together

A smell of degrees concerns exactly the elements whose degree reaches its limit. A relation counts
for one id only, so the limit times the number of these elements is no more than the number of
relations. An isolated element has no other smell: both degrees of it are zero while every limit is
at least one, and a relation leads on from every id of a cycle.
-/

namespace Landscape.Model

variable {m : Model} {limits : Limits} {smell : Smell} {id : Text} {f : Finding}

/-- The ids that findings of a smell concern. -/
def concerned (m : Model) (limits : Limits) (smell : Smell) : Finset Text :=
  (((m.detect limits).filter (·.smell = smell)).flatMap (·.elements)).toFinset

theorem mem_concerned_iff : id ∈ m.concerned limits smell ↔
    ∃ f ∈ m.detect limits, f.smell = smell ∧ id ∈ f.elements := by
  simp only [concerned, List.mem_toFinset, List.mem_flatMap, List.mem_filter, decide_eq_true_eq,
    and_assoc]

/-- A finding that is no cycle is about one element. -/
theorem exists_of_mem_detect (h : f ∈ m.detect limits) (hcycle : f.smell ≠ .cycle) :
    ∃ e ∈ m.elements, f.elements = [e.id] := by
  rcases mem_detect_iff.mp h with ⟨cycle, -, rfl⟩ | ⟨e, he, hf | hf | hf⟩
  · exact absurd rfl hcycle
  · obtain ⟨q, -, rfl⟩ := mem_fanInFindings_iff.mp hf
    exact ⟨e, he, rfl⟩
  · obtain ⟨q, -, rfl⟩ := mem_fanOutFindings_iff.mp hf
    exact ⟨e, he, rfl⟩
  · obtain ⟨-, rfl⟩ := mem_isolationFindings_iff.mp hf
    exact ⟨e, he, rfl⟩

/-- The findings of a smell that is no cycle are those that are made of it for the elements. -/
theorem mem_detect_smell_iff (hcycle : smell ≠ .cycle) : f ∈ m.detect limits ∧ f.smell = smell ↔
    ∃ e ∈ m.elements, f ∈
      (if smell = .bottleneck then m.fanInFindings limits e.id else []) ++
      (if smell = .overCoupling then m.fanOutFindings limits e.id else []) ++
      (if smell = .isolated then m.isolationFindings limits e.id else []) := by
  have hparts := filter_detect m limits (fun other => decide (smell = other)) (by simpa using hcycle)
  simp only [decide_eq_true_eq] at hparts
  rw [← List.mem_flatMap, ← hparts, List.mem_filter, decide_eq_true_eq, eq_comm]

/-- The bottlenecks are found where the relations that lead to an element reach the limit. -/
theorem mem_detect_bottleneck_iff : f ∈ m.detect limits ∧ f.smell = .bottleneck ↔
    ∃ e ∈ m.elements, f ∈ m.fanInFindings limits e.id := by
  refine (mem_detect_smell_iff (by simp)).trans ?_
  simp

/-- Over-coupled elements are found where the relations that lead from an element reach the limit. -/
theorem mem_detect_overCoupling_iff : f ∈ m.detect limits ∧ f.smell = .overCoupling ↔
    ∃ e ∈ m.elements, f ∈ m.fanOutFindings limits e.id := by
  refine (mem_detect_smell_iff (by simp)).trans ?_
  simp

/-- Isolated elements are found where no relation names an element, if they are to be reported. -/
theorem mem_detect_isolated_iff : f ∈ m.detect limits ∧ f.smell = .isolated ↔
    ∃ e ∈ m.elements, m.IsLone limits e.id ∧ f = Finding.ofIsolated e.id := by
  refine (mem_detect_smell_iff (by simp)).trans ?_
  simp [mem_isolationFindings_iff, fanIn_fanOut_eq_zero_iff, IsLone]

/-- The ids of a set are ends of no more relations than there are: each relation counts for the one
id at the end that is looked at. -/
theorem sum_countP_le (relations : List Relation) (ids : Finset Text) (endOf : Relation → Text) :
    ∑ id ∈ ids, relations.countP (endOf · == id) ≤ relations.length := by
  induction relations with
  | nil => simp
  | cons r relations ih =>
    have hone : (∑ id ∈ ids, if endOf r == id then 1 else 0) ≤ 1 := by
      simp only [beq_iff_eq, Finset.sum_ite_eq]
      split <;> omega
    simp only [List.countP_cons, Finset.sum_add_distrib, List.length_cons]
    omega

/-- What a smell of degrees amounts to: whom it concerns, what its findings say, and how many ids it
can concern. -/
structure Detects (m : Model) (limits : Limits) (smell : Smell) (limit : Limit)
    (degree : Text → Nat) : Prop where
  /-- The elements whose degree is at least the limit are concerned, and no others. -/
  concerned : ∀ e ∈ m.elements,
    e.id ∈ m.concerned limits smell ↔ ∃ q, limit.number? = some q ∧ q ≤ degree e.id
  /-- A finding is about one element, tells its degree, and is as grave as this is great. -/
  measured : ∀ f ∈ m.detect limits, f.smell = smell → ∃ e ∈ m.elements, ∃ q,
    limit.number? = some q ∧ f.elements = [e.id] ∧ f.degree = some (degree e.id : Int) ∧
      f.severity = .ratio (degree e.id / q) ∧ 1 ≤ (degree e.id : Rat) / q
  /-- There are relations enough for each id that is concerned. -/
  bounded : ∀ q, limit.number? = some q →
    ((m.concerned limits smell).card : Rat) * q ≤ m.relations.length

/-- A smell of degrees that is found element by element, where the relations with an end at the
element reach the limit. -/
theorem detects_of_found {limit : Limit} {degree : Text → Nat} (endOf : Relation → Text)
    (find : Text → Nat → Rat → Finding) (hdegree : ∀ id, degree id = m.relations.countP (endOf · == id))
    (hfind : ∀ id n q, (find id n q).elements = [id] ∧ (find id n q).degree = some (n : Int) ∧
      (find id n q).severity = .ratio (n / q))
    (hfound : ∀ f, f ∈ m.detect limits ∧ f.smell = smell ↔ ∃ e ∈ m.elements, ∃ q,
      limit.reachedBy (degree e.id) = some q ∧ f = find e.id (degree e.id) q) :
    m.Detects limits smell limit degree := by
  have hmem (id : Text) : id ∈ m.concerned limits smell ↔
      ∃ e ∈ m.elements, e.id = id ∧ ∃ q, limit.number? = some q ∧ q ≤ degree id := by
    rw [mem_concerned_iff]
    constructor
    · rintro ⟨f, hf, hsmell, hid⟩
      obtain ⟨e, he, q, hreached, rfl⟩ := (hfound f).mp ⟨hf, hsmell⟩
      rw [(hfind _ _ _).1, List.mem_singleton] at hid
      subst hid
      exact ⟨e, he, rfl, q, Limit.reachedBy_eq_some_iff_number?.mp hreached⟩
    · rintro ⟨e, he, rfl, q, hq⟩
      have hreached := Limit.reachedBy_eq_some_iff_number?.mpr hq
      obtain ⟨hf, hsmell⟩ := (hfound _).mpr ⟨e, he, q, hreached, rfl⟩
      exact ⟨_, hf, hsmell, by rw [(hfind _ _ _).1]; exact List.mem_singleton_self _⟩
  refine { concerned := ?concerned, measured := ?measured, bounded := ?bounded }
  case concerned =>
    intro e he
    rw [hmem]
    exact ⟨fun ⟨_, _, _, h⟩ => h, fun h => ⟨e, he, rfl, h⟩⟩
  case measured =>
    intro f hf hsmell
    obtain ⟨e, he, q, hreached, rfl⟩ := (hfound f).mp ⟨hf, hsmell⟩
    obtain ⟨helements, htold, hsevere⟩ := hfind e.id (degree e.id) q
    exact ⟨e, he, q, (Limit.reachedBy_eq_some_iff_number?.mp hreached).1, helements, htold, hsevere,
      Limit.one_le_div_of_reachedBy hreached⟩
  case bounded =>
    intro q hq
    have hreached : ∀ id ∈ m.concerned limits smell, q ≤ degree id := by
      intro id hid
      obtain ⟨_, _, _, p, hp, hle⟩ := (hmem id).mp hid
      obtain rfl := Option.some.inj (hq.symm.trans hp)
      exact hle
    calc ((m.concerned limits smell).card : Rat) * q
        = (m.concerned limits smell).card • q := (nsmul_eq_mul _ _).symm
      _ ≤ ∑ id ∈ m.concerned limits smell, (degree id : Rat) :=
          Finset.card_nsmul_le_sum _ _ _ hreached
      _ ≤ m.relations.length := by
          have hsum := sum_countP_le m.relations (m.concerned limits smell) endOf
          simp only [← hdegree] at hsum
          exact_mod_cast hsum

/-- Bottlenecks are the elements that many relations lead to. -/
theorem detects_bottleneck (m : Model) (limits : Limits) :
    m.Detects limits .bottleneck limits.bottleneck m.fanIn := by
  refine detects_of_found (·.target) Finding.ofFanIn (fun _ => rfl) (fun _ _ _ => ⟨rfl, rfl, rfl⟩)
    fun f => ?_
  rw [mem_detect_bottleneck_iff]
  simp only [mem_fanInFindings_iff]

/-- Over-coupled elements are those that many relations lead from. -/
theorem detects_overCoupling (m : Model) (limits : Limits) :
    m.Detects limits .overCoupling limits.overCoupling m.fanOut := by
  refine detects_of_found (·.source) Finding.ofFanOut (fun _ => rfl) (fun _ _ _ => ⟨rfl, rfl, rfl⟩)
    fun f => ?_
  rw [mem_detect_overCoupling_iff]
  simp only [mem_fanOutFindings_iff]

/-- Nothing but isolation is found about an id that no relation names. -/
theorem smell_of_unnamed (hunnamed : ∀ r ∈ m.relations, r.source ≠ id ∧ r.target ≠ id)
    (hf : f ∈ m.detect limits) (hid : id ∈ f.elements) : f.smell = .isolated := by
  obtain ⟨hin, hout⟩ := fanIn_fanOut_eq_zero_iff.mpr hunnamed
  rcases mem_detect_iff.mp hf with ⟨cycle, hcycle, rfl⟩ | ⟨e, -, hf | hf | hf⟩
  · obtain ⟨b, r, hr, hsource, -⟩ := (isCycle_of_findCycle hcycle).1.exists_leads hid
    exact absurd hsource (hunnamed r hr).1
  · obtain ⟨q, hreached, rfl⟩ := mem_fanInFindings_iff.mp hf
    obtain rfl := List.mem_singleton.mp hid
    rw [hin, Limit.reachedBy_zero] at hreached
    cases hreached
  · obtain ⟨q, hreached, rfl⟩ := mem_fanOutFindings_iff.mp hf
    obtain rfl := List.mem_singleton.mp hid
    rw [hout, Limit.reachedBy_zero] at hreached
    cases hreached
  · obtain ⟨-, rfl⟩ := mem_isolationFindings_iff.mp hf
    rfl

/-- An element is reported as isolated exactly when isolation is reported and no relation names it. -/
theorem mem_concerned_isolated_iff {e : Element} (he : e ∈ m.elements) :
    e.id ∈ m.concerned limits .isolated ↔ m.IsLone limits e.id := by
  rw [mem_concerned_iff]
  constructor
  · rintro ⟨f, hf, hsmell, hid⟩
    obtain ⟨e', -, hlone, rfl⟩ := mem_detect_isolated_iff.mp ⟨hf, hsmell⟩
    rwa [List.mem_singleton.mp hid]
  · intro hlone
    exact ⟨_, mem_detect_of_isLone he hlone, rfl, List.mem_singleton_self _⟩

/--
The detectors are exact and agree with each other, whatever the model and whatever the limits of an
accepted configuration.

A smell of degrees concerns the elements whose degree is at least the limit and no others; its
findings tell the degree and its ratio to the limit, which is at least one; and it concerns no more
ids than there are relations for. Isolation concerns the elements that no relation names, if it is
reported at all, and an id that it concerns is concerned by nothing else. An id that no element has
is concerned by a cycle only. The limits of a configuration of integers are these integers.
-/
theorem detectors_agree (m : Model) (limits : Limits) :
    m.Detects limits .bottleneck limits.bottleneck m.fanIn ∧
    m.Detects limits .overCoupling limits.overCoupling m.fanOut ∧
    (∀ e ∈ m.elements, e.id ∈ m.concerned limits .isolated ↔
      limits.isolated = true ∧ ∀ r ∈ m.relations, r.source ≠ e.id ∧ r.target ≠ e.id) ∧
    (∀ id ∈ m.concerned limits .isolated, ∀ f ∈ m.detect limits, id ∈ f.elements →
      f.smell = .isolated) ∧
    (∀ f ∈ m.detect limits, ∀ id ∈ f.elements, (∀ e ∈ m.elements, e.id ≠ id) →
      f.smell = .cycle) ∧
    ∀ t : Thresholds, t.check = .ok limits →
      limits.bottleneck.number? = some (t.bottleneck : Rat) ∧
      limits.overCoupling.number? = some (t.overCoupling : Rat) ∧
      limits.isolated = t.isolated := by
  refine ⟨m.detects_bottleneck limits, m.detects_overCoupling limits,
    fun e he => mem_concerned_isolated_iff he, ?exclusive, ?undeclared, ?accepted⟩
  case exclusive =>
    intro id hid f hf hmem
    obtain ⟨f', hf', hsmell, hid'⟩ := mem_concerned_iff.mp hid
    obtain ⟨e, -, hlone, rfl⟩ := mem_detect_isolated_iff.mp ⟨hf', hsmell⟩
    obtain rfl := List.mem_singleton.mp hid'
    exact smell_of_unnamed hlone.2 hf hmem
  case undeclared =>
    intro f hf id hid hundeclared
    by_contra hcycle
    obtain ⟨e, he, helements⟩ := exists_of_mem_detect hf hcycle
    rw [helements, List.mem_singleton] at hid
    exact hundeclared e he hid.symm
  case accepted =>
    intro t ht
    obtain ⟨h, h', rfl⟩ := Thresholds.check_eq_ok_iff.mp ht
    exact ⟨rfl, rfl, rfl⟩

/-- A ring through an id that no element has, where two relations lead to the same element, and a
lonely element that is declared twice. -/
theorem detectors_agree_on_ring :
    let a : Element := { id := "a", name := "A", kind := .system }
    let c : Element := { id := "c", name := "C", kind := .person }
    let m : Model :=
      { elements := [a, c, c]
        relations := [{ source := "a", target := "b" }, { source := "b", target := "a" },
          { source := "b", target := "a", weight := 2.0 }] }
    let t : Thresholds := { bottleneck := 2, overCoupling := 3 }
    let limits : Limits := ⟨.ratio 2 (by decide), .ratio 3 (by decide), true⟩
    t.check = .ok limits ∧ limits.bottleneck.number? = some (t.bottleneck : Rat) ∧
      a ∈ m.elements ∧ a.id ∈ m.concerned limits .bottleneck ∧
      a.id ∉ m.concerned limits .overCoupling ∧
      ((m.concerned limits .bottleneck).card : Rat) * 2 ≤ m.relations.length ∧
      c ∈ m.elements ∧ c.id ∈ m.concerned limits .isolated ∧
      (∀ f ∈ m.detect limits, c.id ∈ f.elements → f.smell = .isolated) ∧
      ∃ f ∈ m.detect limits, Text.ofString "b" ∈ f.elements ∧ f.smell = .cycle := by
  intro a c m t limits
  have ha : a ∈ m.elements := List.mem_cons_self
  have hc : c ∈ m.elements := List.mem_cons_of_mem _ List.mem_cons_self
  have hcheck : t.check = .ok limits :=
    Thresholds.check_eq_ok_iff.mpr ⟨by decide, by decide, rfl⟩
  have hring : Finding.ofCycle ["a", "b"] ∈ m.detect limits := by decide +kernel
  obtain ⟨hbottleneck, hcoupled, hisolated, hexclusive, hundeclared, haccepted⟩ :=
    m.detectors_agree limits
  have hlone : c.id ∈ m.concerned limits .isolated :=
    (hisolated c hc).mpr ⟨rfl, by decide +kernel⟩
  refine ⟨hcheck, (haccepted t hcheck).1, ha, (hbottleneck.concerned a ha).mpr ⟨2, rfl, ?_⟩, ?_,
    hbottleneck.bounded 2 rfl, hc, hlone, hexclusive c.id hlone, _, hring, ?_, ?_⟩
  · decide +kernel
  · rw [hcoupled.concerned a ha]
    rintro ⟨q, hq, hle⟩
    obtain rfl := Option.some.inj hq
    exact absurd hle (by decide +kernel)
  · decide +kernel
  · exact hundeclared _ hring "b" (by decide +kernel) (by decide +kernel)

end Landscape.Model
