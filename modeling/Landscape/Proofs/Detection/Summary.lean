import Landscape.Proofs.Detection.Severities
import Landscape.Proofs.Entries
import Mathlib.Data.Finset.Card

/-!
# Findings in numbers

A summary is computed in several passes over the findings: a count for each smell, the greatest
severity at each id, and the smells that occur. The passes agree with each other. For what a
detection finds they say even more, since a cycle is found at most once and every finding concerns
some id with a severity above zero.
-/

namespace Landscape

variable {findings : List Finding} {f : Finding}

/-- Every finding is counted for one smell. -/
theorem sum_countP_smell (findings : List Finding) :
    (Smell.all.map fun smell => findings.countP (·.smell = smell)).sum = findings.length := by
  induction findings with
  | nil => rfl
  | cons f findings ih =>
    simp only [Smell.all, List.map_cons, List.map_nil, List.sum_cons, List.sum_nil,
      List.countP_cons, List.length_cons] at ih ⊢
    cases f.smell <;> simp <;> omega

/-- What is recommended for different smells is different. -/
theorem Smell.nodup_recommendations : (all.map recommendation).Nodup := by decide +kernel

/-- The ids that severities are noted at are those that had one and those that are given. -/
theorem mem_keys_foldl_alter {found : List (Text × Severity)} {ids : List Text} {s : Severity}
    {id : Text} :
    id ∈ Entries.keys (ids.foldl (fun found id => Entries.alter found id .none (·.max s)) found) ↔
      id ∈ Entries.keys found ∨ id ∈ ids := by
  induction ids generalizing found with
  | nil => simp
  | cons first ids ih =>
    rw [List.foldl_cons, ih, Entries.alter, Entries.mem_keys_put, List.mem_cons, or_assoc]

/-- An id that severities are noted at again has one entry still. -/
theorem nodup_keys_foldl_alter {found : List (Text × Severity)} (h : (Entries.keys found).Nodup)
    (ids : List Text) (s : Severity) :
    (Entries.keys
      (ids.foldl (fun found id => Entries.alter found id .none (·.max s)) found)).Nodup := by
  induction ids generalizing found with
  | nil => exact h
  | cons first ids ih => exact ih (Entries.nodup_keys_put h _ _)

/-- The ids that have a severity are those that findings concern. -/
theorem mem_keys_severities {id : Text} :
    id ∈ Entries.keys (severities findings) ↔ id ∈ findings.flatMap (·.elements) := by
  induction findings using List.reverseRecOn with
  | nil => rfl
  | append_singleton findings f ih =>
    rw [severities_append_singleton, mem_keys_foldl_alter, ih, List.flatMap_append,
      List.mem_append, List.flatMap_singleton]

/-- Each of them has one severity. -/
theorem nodup_keys_severities (findings : List Finding) :
    (Entries.keys (severities findings)).Nodup := by
  induction findings using List.reverseRecOn with
  | nil => exact List.nodup_nil
  | append_singleton findings f ih =>
    rw [severities_append_singleton]
    exact nodup_keys_foldl_alter ih _ _

/-- There are as many severities as ids that findings concern. -/
theorem length_severities (findings : List Finding) :
    (severities findings).length = (findings.flatMap (·.elements)).toFinset.card := by
  have hkeys : (Entries.keys (severities findings)).toFinset =
      (findings.flatMap (·.elements)).toFinset := by
    ext id
    rw [List.mem_toFinset, List.mem_toFinset, mem_keys_severities]
  rw [← hkeys, List.toFinset_card_of_nodup (nodup_keys_severities findings), Entries.keys,
    List.length_map]

/-- The greater of exact severities in a row is one of them and not less than any. -/
theorem exists_foldl_max {values : List Severity} (hexact : ∀ s ∈ values, ∃ q, s = .ratio q)
    (p : Rat) : ∃ q, values.foldl Severity.max (.ratio p) = .ratio q ∧
      .ratio q ∈ Severity.ratio p :: values ∧ p ≤ q ∧ ∀ p', .ratio p' ∈ values → p' ≤ q := by
  induction values generalizing p with
  | nil => exact ⟨p, rfl, List.mem_singleton_self _, le_rfl, fun _ h => nomatch h⟩
  | cons s values ih =>
    rw [List.forall_mem_cons] at hexact
    obtain ⟨⟨r, rfl⟩, hexact⟩ := hexact
    obtain ⟨q, hfold, hmem, hle, hbound⟩ := ih hexact (max p r)
    rw [List.foldl_cons, Severity.max_ratio]
    refine ⟨q, hfold, ?_, le_of_max_le_left hle, fun p' hp' => ?_⟩
    · rcases List.mem_cons.mp hmem with hq | hq
      · rw [hq]
        rcases max_choice p r with h | h
        · rw [h]
          exact List.mem_cons_self
        · rw [h]
          exact List.mem_cons_of_mem _ List.mem_cons_self
      · exact List.mem_cons_of_mem _ (List.mem_cons_of_mem _ hq)
    · rcases List.mem_cons.mp hp' with heq | hp'
      · rw [Severity.ratio.inj heq]
        exact le_of_max_le_right hle
      · exact hbound p' hp'

/-- The greatest of some exact severities is one of them and not less than any. -/
theorem exists_greatestSeverity {values : List Severity} (hne : values ≠ [])
    (hexact : ∀ s ∈ values, ∃ q, s = .ratio q) :
    ∃ q, greatestSeverity values = .ratio q ∧ .ratio q ∈ values ∧
      ∀ p, .ratio p ∈ values → p ≤ q := by
  obtain ⟨s, rest, rfl⟩ := List.exists_cons_of_ne_nil hne
  rw [List.forall_mem_cons] at hexact
  obtain ⟨⟨p, rfl⟩, hexact⟩ := hexact
  obtain ⟨q, hfold, hmem, hle, hbound⟩ := exists_foldl_max hexact p
  refine ⟨q, hfold, hmem, fun p' hp' => ?_⟩
  rcases List.mem_cons.mp hp' with heq | hp'
  · rw [Severity.ratio.inj heq]
    exact hle
  · exact hbound p' hp'

/-- The severity that is noted at an id is the greatest of those of the findings that concern it. -/
theorem isGreatestAt_of_mem_severities (hexact : ∀ f ∈ findings, ∃ q, f.severity = .ratio q)
    {id : Text} {s : Severity} (h : (id, s) ∈ severities findings) :
    ∃ q, s = .ratio q ∧ IsGreatestAt findings id q := by
  obtain ⟨q, hq, hgreatest⟩ := severityOf_severities hexact id
  rw [severityOf, Entries.lookup_eq_some_of_mem (nodup_keys_severities findings) h] at hq
  exact ⟨q, hq, hgreatest⟩

/-- A severity is noted at each id that a finding concerns. -/
theorem exists_mem_severities (hexact : ∀ f ∈ findings, ∃ q, f.severity = .ratio q)
    (hf : f ∈ findings) {id : Text} (hid : id ∈ f.elements) :
    ∃ q, (id, .ratio q) ∈ severities findings ∧ IsGreatestAt findings id q := by
  have hkey : id ∈ Entries.keys (severities findings) :=
    mem_keys_severities.mpr (List.mem_flatMap.mpr ⟨f, hf, hid⟩)
  obtain ⟨⟨_, s⟩, hmem, rfl⟩ := List.mem_map.mp hkey
  obtain ⟨q, rfl, hgreatest⟩ := isGreatestAt_of_mem_severities hexact hmem
  exact ⟨q, hmem, hgreatest⟩

/-- A ratio is the greatest severity of some findings, and zero only where there are none. -/
structure IsGreatestOf (findings : List Finding) (q : Rat) : Prop where
  bounds : ∀ f ∈ findings, ∃ p, f.severity = .ratio p ∧ p ≤ q
  attained : findings ≠ [] → ∃ f ∈ findings, f.severity = .ratio q
  zero_iff : q = 0 ↔ findings = []

/-- Where every finding concerns an id with a severity above zero, the greatest severity at any id is
that of all findings. -/
theorem exists_isGreatestOf (hpos : ∀ f ∈ findings, ∃ q, f.severity = .ratio q ∧ 0 < q)
    (hconcern : ∀ f ∈ findings, f.elements ≠ []) :
    ∃ q, (summarize findings).greatest = .ratio q ∧ IsGreatestOf findings q := by
  have hexact : ∀ f ∈ findings, ∃ q, f.severity = .ratio q :=
    fun f hf => (hpos f hf).imp fun _ hq => hq.1
  by_cases hempty : findings = []
  · subst hempty
    exact ⟨0, rfl, ⟨fun _ hf => absurd hf List.not_mem_nil, (absurd rfl ·), iff_of_true rfl rfl⟩⟩
  have hnoted : ∀ f ∈ findings, ∃ p q, f.severity = .ratio p ∧ 0 < p ∧ p ≤ q ∧
      .ratio q ∈ (severities findings).map Prod.snd := by
    intro f hf
    obtain ⟨p, hp, hpos⟩ := hpos f hf
    obtain ⟨q, hmem, hgreatest⟩ :=
      exists_mem_severities hexact hf (List.head_mem (hconcern f hf))
    exact ⟨p, q, hp, hpos, hgreatest.bounds f hf (List.head_mem _) p hp,
      List.mem_map_of_mem hmem⟩
  have hne : (severities findings).map Prod.snd ≠ [] := by
    obtain ⟨f, hf⟩ := List.exists_mem_of_ne_nil findings hempty
    obtain ⟨_, _, _, _, _, hmem⟩ := hnoted f hf
    exact List.ne_nil_of_mem hmem
  obtain ⟨q, hq, hmem, hbound⟩ := exists_greatestSeverity hne fun s hs => by
    obtain ⟨⟨id, s⟩, hmem, rfl⟩ := List.mem_map.mp hs
    exact (isGreatestAt_of_mem_severities hexact hmem).imp fun _ hq => hq.1
  have hbounds : ∀ f ∈ findings, ∃ p, f.severity = .ratio p ∧ 0 < p ∧ p ≤ q := by
    intro f hf
    obtain ⟨p, p', hp, hpos, hle, hmem⟩ := hnoted f hf
    exact ⟨p, hp, hpos, hle.trans (hbound p' hmem)⟩
  have hq0 : q ≠ 0 := by
    obtain ⟨f, hf⟩ := List.exists_mem_of_ne_nil findings hempty
    obtain ⟨p, -, hpos, hle⟩ := hbounds f hf
    exact (hpos.trans_le hle).ne'
  refine ⟨q, hq, fun f hf => ?_, fun _ => ?_, by simp [hq0, hempty]⟩
  · obtain ⟨p, hp, -, hle⟩ := hbounds f hf
    exact ⟨p, hp, hle⟩
  · obtain ⟨⟨id, s⟩, hmem, hs⟩ := List.mem_map.mp hmem
    obtain ⟨q', hq', hgreatest⟩ := isGreatestAt_of_mem_severities hexact hmem
    obtain rfl := Severity.ratio.inj (hs.symm.trans hq')
    obtain ⟨f, hf, -, hsame⟩ := hgreatest.attained.resolve_left hq0
    exact ⟨f, hf, hsame⟩

/-- The numbers and the recommendations of an analysis agree with its findings and with each other. -/
structure Analysis.Consistent (a : Analysis) : Prop where
  total : a.summary.total = a.findings.length
  /-- The counts of all smells add up to the total. -/
  sum : (a.summary.bySmell.map Prod.snd).sum = a.summary.total
  /-- Each smell is counted, in order, with the number of its findings. -/
  bySmell : a.summary.bySmell = Smell.all.map fun smell => (smell, (a.ofSmell smell).length)
  cycle_le_one : (a.ofSmell .cycle).length ≤ 1
  /-- The ids that are affected are those that findings concern, each counted once. -/
  affected : a.summary.affected = (a.findings.flatMap (·.elements)).toFinset.card
  /-- There is one severity for each of these ids. -/
  severities_length : (severities a.findings).length = a.summary.affected
  severities_keys : (Entries.keys (severities a.findings)).Nodup ∧
    ∀ id, id ∈ Entries.keys (severities a.findings) ↔ ∃ f ∈ a.findings, id ∈ f.elements
  greatest : ∃ q, a.summary.greatest = .ratio q ∧ IsGreatestOf a.findings q
  /-- The ids of cycles are those of the cycle that was found, if one was. -/
  cycleElements : cycleElements a.findings = ((a.ofSmell .cycle).head?.map (·.elements)).getD []
  /-- There is one recommendation for each smell that was found, in the order of the smells. -/
  recommendations : ∃ found : List Smell, found.Sublist Smell.all ∧
    (∀ smell, smell ∈ found ↔ ∃ f ∈ a.findings, f.smell = smell) ∧
    a.recommendations = found.map Smell.recommendation ∧ a.recommendations.Nodup

/-- The smells that a recommendation is given for are those that were found. -/
theorem exists_smells_recommended (findings : List Finding) :
    ∃ found : List Smell, found.Sublist Smell.all ∧
      (∀ smell, smell ∈ found ↔ ∃ f ∈ findings, f.smell = smell) ∧
      recommendations findings = found.map Smell.recommendation ∧
      (recommendations findings).Nodup := by
  have hsublist : (Smell.all.filter fun smell => findings.any (·.smell = smell)).Sublist Smell.all :=
    List.filter_sublist
  refine ⟨_, hsublist, fun smell => ?_, rfl,
    Smell.nodup_recommendations.sublist (hsublist.map Smell.recommendation)⟩
  rw [List.mem_filter, List.any_eq_true, and_iff_right (Smell.mem_all smell)]
  simp only [decide_eq_true_eq]

namespace Model

variable {m : Model} {limits : Limits}

/-- Everything that is found concerns some id. -/
theorem elements_ne_nil_of_mem_detect (h : f ∈ m.detect limits) : f.elements ≠ [] := by
  rcases mem_detect_iff.mp h with ⟨cycle, hcycle, rfl⟩ | ⟨e, -, h | h | h⟩
  · exact (isCycle_of_findCycle hcycle).1.ne_nil
  · obtain ⟨q, -, rfl⟩ := mem_fanInFindings_iff.mp h
    exact List.cons_ne_nil _ _
  · obtain ⟨q, -, rfl⟩ := mem_fanOutFindings_iff.mp h
    exact List.cons_ne_nil _ _
  · obtain ⟨-, rfl⟩ := mem_isolationFindings_iff.mp h
    exact List.cons_ne_nil _ _

/-- The findings of cycles are that of the cycle of the search. -/
theorem ofSmell_cycle_analyze (m : Model) (limits : Limits) :
    (m.analyze limits).ofSmell .cycle = (m.findCycle.map Finding.ofCycle).toList :=
  filter_cycle_detect limits

/--
The analysis of a model is consistent. Its counts are those of its findings, smell by smell and in
total, with no more than one cycle; the ids that it affects are those of the findings, each once, and
just these have a severity; the greatest severity is that of a finding, not less than that of any, and
zero exactly where nothing was found; the ids of cycles are those of the one cycle; and there is one
recommendation for each smell that was found.
-/
theorem analyze_consistent (m : Model) (limits : Limits) : (m.analyze limits).Consistent where
  total := rfl
  sum := by
    have hsmells : (m.analyze limits).summary.bySmell.map Prod.snd =
        Smell.all.map fun smell => (m.detect limits).countP (·.smell = smell) := List.map_map
    rw [hsmells, sum_countP_smell]
    rfl
  bySmell := by
    simp only [Analysis.ofSmell, ← List.countP_eq_length_filter]
    rfl
  cycle_le_one := by
    rw [ofSmell_cycle_analyze]
    cases m.findCycle with
    | none => exact Nat.zero_le 1
    | some cycle => exact le_rfl
  affected := length_severities _
  severities_length := rfl
  severities_keys := ⟨nodup_keys_severities _, fun id => by
    rw [mem_keys_severities, List.mem_flatMap]⟩
  greatest := exists_isGreatestOf (fun _ => exists_pos_of_mem_detect)
    fun _ => elements_ne_nil_of_mem_detect
  cycleElements := by
    change ((m.analyze limits).ofSmell .cycle).flatMap (·.elements) = _
    rw [ofSmell_cycle_analyze]
    cases m.findCycle with
    | none => rfl
    | some cycle => exact List.flatMap_singleton _ _
  recommendations := exists_smells_recommended _

end Model

end Landscape
