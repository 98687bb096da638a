import Landscape.Proofs.Command.Output
import Landscape.Proofs.Cycle.Listing

/-!
# What a run says about cycles

A run that is asked for all cycles lists them behind what was found in the model, their number first.
Where nothing was found it stops before the list, though a model in which nothing is found may have
cycles: those that no element reaches. A cycle that an element reaches is itself found.
-/

namespace Landscape

namespace Console

variable {cycles : List (List Text)} {color : Bool} {analysis : Analysis} {text : Text}

/-- A cycle in words: its ids, and the first of them once more. -/
def chainText (cycle : List Text) : Text := Text.joinWith " -> " (cycle ++ cycle.take 1)

/-- All cycles in words: how many there are, and a line for each. -/
def cyclesText (cycles : List (List Text)) : Text :=
  let count : String := "  All simple cycles: " ++ toString cycles.length
  line [] ++ line count ++ lines (cycles.map fun c => "    " ++ chainText c)

/-- The findings as a table. -/
def findingTable (color : Bool) (findings : List Finding) : Except Error Text := do
  table color ["Type", "Nodes", "Severity", "Description"] (← findings.mapM (findingRow color))

/-- Every cycle that has an id can be put in words. -/
theorem mapM_chain (h : ∀ c ∈ cycles, c ≠ []) : cycles.mapM chain = .ok (cycles.map chainText) := by
  refine mapM_eq_map fun c hc => ?_
  cases c with
  | nil => exact absurd rfl (h [] hc)
  | cons first rest => rfl

/-- The report on cycles puts them in words. -/
theorem cycleReport_eq (h : ∀ c ∈ cycles, c ≠ []) : cycleReport cycles = .ok (cyclesText cycles) := by
  rw [cycleReport, mapM_chain h, ok_bind, List.map_map]
  rfl

/-- An analysis that found nothing says so, and says nothing about cycles. -/
theorem analysisReport_of_nothing (h : analysis.findings = []) (cycles : Option (List (List Text))) :
    analysisReport color analysis cycles =
      .ok (heading color "Anti-Patterns" ++ success color "No anti-patterns detected") := by
  rw [analysisReport, h]
  rfl

/-- An analysis that found something shows it, then all cycles, then what is recommended. -/
theorem analysisReport_of_findings (hne : analysis.findings ≠ []) (hcycles : ∀ c ∈ cycles, c ≠ [])
    (h : analysisReport color analysis (some cycles) = .ok text) :
    ∃ findings, findingTable color analysis.findings = .ok findings ∧
      text = heading color "Anti-Patterns" ++ findings ++ cyclesText cycles ++
        recommendationReport color analysis.recommendations := by
  have hfound : analysis.findings.isEmpty = false := List.isEmpty_eq_false_iff.mpr hne
  rw [analysisReport] at h
  simp only [hfound, Bool.false_eq_true, if_false, cycleReport_eq hcycles, ok_bind] at h
  obtain ⟨rows, hrows, h⟩ := bind_eq_ok_iff.mp h
  obtain ⟨findings, hfindings, h⟩ := bind_eq_ok_iff.mp h
  refine ⟨findings, ?_, (Except.ok.inj h).symm⟩
  rw [findingTable, hrows, ok_bind]
  exact hfindings

end Console

namespace Command

variable {o : Options} {env : Environment} {entropy : Nat} {files : Files} {r : Report}

/-- What is printed before the report on the analysis, where notes are shown and the export is not:
notes on what was written, and the reports on the model and its layout. -/
def textBeforeAnalysis (o : Options) (r : Report) : Text :=
  exportNote o ++ (imagePart o r ++ (Console.modelReport false r.model.statistics ++
    (r.layout.map fun (outcome, quality) =>
      Console.layoutReport false outcome (some quality)).getD []))

/-- What is delivered to a reader ends with the report on the analysis. -/
theorem deliveredText_of_reader {printed : Text} (hjson : o.json = false) (hquiet : o.quiet = false)
    (houtput : o.output ≠ some standardOutput) (h : deliveredText o r = .ok printed) :
    ∃ analysis, Console.analysisReport false r.analysis r.cycles = .ok analysis ∧
      printed = textBeforeAnalysis o r ++ analysis := by
  have hnotes : showsNotes o = true := by
    rw [showsNotes, hquiet, Bool.not_false, Bool.true_and, bne_iff_ne]
    exact houtput
  obtain ⟨exported, hexported, h⟩ := bind_eq_ok_iff.mp h
  obtain ⟨reported, hreported, h⟩ := bind_eq_ok_iff.mp h
  rw [reportPart, if_neg (by simp [hjson]), if_pos hnotes] at hreported
  obtain ⟨analysis, hanalysis, hreported⟩ := bind_eq_ok_iff.mp hreported
  refine ⟨analysis, hanalysis, ?_⟩
  rw [← Except.ok.inj h, ← Except.ok.inj hreported, eq_exportNote_of_exportPart houtput hexported]
  simp only [textBeforeAnalysis, List.append_assoc]

/--
A run that goes well and reports to a reader lists all cycles of the model, one line for each and
their number before them, wherever something was found. Where nothing was found it says so, in place
of the list. Something is found in every model with a cycle that an element reaches, so that this
hides only cycles of which no id is reached from an element.
-/
theorem run_lists_cycles (h : (run o env files entropy).code = 0) (hcycles : o.allCycles = true)
    (hjson : o.json = false) (hquiet : o.quiet = false) (houtput : o.output ≠ some standardOutput) :
    ∃ r, survey o env entropy files = .ok r ∧
      (r.analysis.findings ≠ [] →
        ∃ findings, Console.findingTable false r.analysis.findings = .ok findings ∧
          (run o env files entropy).transcript.output = textBeforeAnalysis o r ++
            (Console.heading false "Anti-Patterns" ++ findings ++
              Console.cyclesText r.model.cycles ++
              Console.recommendationReport false r.analysis.recommendations)) ∧
      (r.analysis.findings = [] →
        (run o env files entropy).transcript.output = textBeforeAnalysis o r ++
          (Console.heading false "Anti-Patterns" ++
            Console.success false "No anti-patterns detected")) ∧
      ∀ cycle ∈ r.model.cycles, ∀ a ∈ cycle, r.model.IsReached a → r.analysis.findings ≠ [] := by
  obtain ⟨r, hsurvey, hdelivered⟩ := output_of_code_zero h
  obtain ⟨analysis, hanalysis, hprinted⟩ :=
    deliveredText_of_reader hjson hquiet houtput hdelivered
  obtain ⟨plan, m, limits, -, -, -, hdetected, hlisted⟩ := exists_of_survey hsurvey
  rw [hcycles, if_pos rfl] at hlisted
  refine ⟨r, hsurvey, fun hfound => ?_, fun hnothing => ?_, fun cycle hcycle a ha hreached => ?_⟩
  · rw [hlisted] at hanalysis
    obtain ⟨findings, hfindings, rfl⟩ := Console.analysisReport_of_findings hfound
      (fun c hc => (Model.isCycle_of_mem_cycles hc).ne_nil) hanalysis
    exact ⟨findings, hfindings, hprinted⟩
  · rw [Console.analysisReport_of_nothing hnothing] at hanalysis
    rw [hprinted, ← Except.ok.inj hanalysis]
  · rw [hdetected]
    exact Model.detect_ne_nil_of_cycle (Model.isCycle_of_mem_cycles hcycle) ha hreached limits

/-- A relation of an element to itself is listed. -/
theorem run_lists_cycles_of_self :
    let o : Options := { input := "m.c4", allCycles := true, noLayout := true }
    let bytes := "system A \"A\"\nA -> A".toList.map (·.toNat.toUInt8)
    let outcome := run o [] { contents := [(["m.c4"], bytes)] } 0
    outcome.code = 0 ∧ o.allCycles = true ∧ o.json = false ∧ o.quiet = false ∧
      o.output ≠ some standardOutput ∧
      ∃ before after, outcome.transcript.output =
        before ++ Console.line "  All simple cycles: 1" ++ Console.line "    A -> A" ++ after := by
  intro o bytes outcome
  have hcode : outcome.code = 0 := by decide +kernel
  obtain ⟨r, hsurvey, hlisted, -, hfound⟩ := run_lists_cycles hcode rfl rfl rfl nofun
  have hmodel : (survey o [] 0 { contents := [(["m.c4"], bytes)] }).toOption.any (fun r =>
      r.model.cycles == [[("A" : Text)]] && r.model.elements.any (·.id == "A")) = true := by
    decide +kernel
  rw [hsurvey] at hmodel
  obtain ⟨hcycles, hany⟩ := (Bool.and_eq_true_iff.mp hmodel)
  rw [beq_iff_eq] at hcycles
  obtain ⟨e, he, hid⟩ := List.any_eq_true.mp hany
  have hreached : r.model.IsReached "A" := beq_iff_eq.mp hid ▸ Model.isReached_id he
  obtain ⟨findings, -, houtput⟩ :=
    hlisted (hfound ["A"] (by rw [hcycles]; decide) "A" (by decide) hreached)
  have hlines : Console.cyclesText [[("A" : Text)]] =
      Console.line [] ++ Console.line "  All simple cycles: 1" ++ Console.line "    A -> A" := by
    decide +kernel
  refine ⟨hcode, rfl, rfl, rfl, nofun, textBeforeAnalysis o r ++
    (Console.heading false "Anti-Patterns" ++ findings ++ Console.line []),
    Console.recommendationReport false r.analysis.recommendations, ?_⟩
  rw [hcycles, hlines] at houtput
  simpa only [List.append_assoc] using houtput

/-- Where no element reaches a cycle and nothing else is found, the run says that nothing was found
and lists no cycle. -/
theorem cycle_hidden_from_reader :
    let o : Options := { input := "m.c4", allCycles := true, noLayout := true }
    let bytes := "A -> A".toList.map (·.toNat.toUInt8)
    let files : Files := { contents := [(["m.c4"], bytes)] }
    (run o [] files 0).code = 0 ∧ o.allCycles = true ∧ o.json = false ∧ o.quiet = false ∧
      o.output ≠ some standardOutput ∧
      (survey o [] 0 files).toOption.map (·.model.cycles) = some [[("A" : Text)]] ∧
      Console.success false "No anti-patterns detected" <:+ (run o [] files 0).transcript.output ∧
      ¬Console.line "    A -> A" <:+: (run o [] files 0).transcript.output := by
  decide +kernel

end Command

end Landscape
