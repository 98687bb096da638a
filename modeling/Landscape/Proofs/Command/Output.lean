import Landscape.Proofs.Command.Survey

/-!
# What a run prints

After it has found everything out, a run delivers three things, each of which may print something:
the export, the image and the report. What a run that goes well has printed is what these three
print, one after another.
-/

namespace Landscape.Command

variable {α : Type} {o : Options} {env : Environment} {entropy : Nat} {files : Files} {r : Report}

namespace Step

/-- A step that, if it goes well, prints what is there to be printed. -/
def Prints (x : Step Unit) (text : Except Error Text) : Prop :=
  ∀ t t', x.run t = (.ok (), t') → ∃ printed, text = .ok printed ∧ t'.output = t.output ++ printed

/-- Printing prints. -/
theorem prints_print (text : Text) : (print text).Prints (.ok text) := by
  rintro t _ ⟨⟩
  exact ⟨text, rfl, rfl⟩

/-- What leaves the output as it is prints nothing. -/
theorem prints_nothing {x : Step Unit}
    (hx : ∀ t t', x.run t = (.ok (), t') → t'.output = t.output) : x.Prints (.ok []) :=
  fun t t' h => ⟨[], rfl, by rw [hx t t' h, List.append_nil]⟩

/-- Doing nothing prints nothing. -/
theorem prints_pure : Prints (pure ()) (.ok []) := by
  refine prints_nothing ?_
  rintro t _ ⟨⟩
  rfl

/-- A change elsewhere in the transcript prints nothing. -/
theorem prints_modify {change : Transcript → Transcript}
    (houtput : ∀ t, (change t).output = t.output) : Prints (modify change) (.ok []) := by
  refine prints_nothing ?_
  rintro t _ ⟨⟩
  exact houtput t

/-- A log line is not printed with the output. -/
theorem prints_log (level : LogLevel) (source : Source) (message : Text) :
    (log level source message).Prints (.ok []) :=
  prints_modify fun t => by cases t.level <;> rfl

/-- Writing files prints nothing. -/
theorem prints_withFiles (change : Files → Except Error Files) :
    (withFiles change).Prints (.ok []) := by
  refine prints_nothing fun t t' h => ?_
  unfold withFiles at h
  rw [run_get_bind] at h
  cases hchange : change t.files with
  | error e =>
    rw [hchange] at h
    cases h
  | ok files =>
    rw [run_lift_bind hchange] at h
    cases h
    rfl

/-- Two steps print one text after the other. -/
theorem Prints.bind {x y : Step Unit} {text text' : Except Error Text} (hx : x.Prints text)
    (hy : y.Prints text') : (x >>= fun _ => y).Prints (do return (← text) ++ (← text')) := by
  intro t t' h
  rw [run_bind] at h
  split at h
  next u hrun =>
    obtain ⟨printed, rfl, houtput⟩ := hx _ _ hrun
    obtain ⟨printed', rfl, houtput'⟩ := hy _ _ h
    exact ⟨printed ++ printed', rfl, by rw [houtput', houtput, List.append_assoc]⟩
  next => cases h

/-- A step that prints nothing changes nothing about what is printed after it. -/
theorem Prints.after {x y : Step Unit} {text : Except Error Text} (hy : y.Prints text)
    (hx : x.Prints (.ok [])) : (x >>= fun _ => y).Prints text := by
  simpa only [ok_bind, List.nil_append, bind_pure] using hx.bind hy

/-- What does not look at the transcript prints nothing. -/
theorem prints_lift_bind {found : Except Error α} {f : α → Step Unit} {text : Except Error Text}
    (hf : ∀ a, found = .ok a → (f a).Prints text) :
    ((liftM found : Step α) >>= f).Prints text := by
  intro t t' h
  cases found with
  | error e => cases h
  | ok a =>
    rw [run_lift_bind rfl] at h
    exact hf a rfl t t' h

/-- A step that is taken on a condition prints on that condition. -/
theorem Prints.ite {c : Prop} [Decidable c] {x y : Step Unit} {text text' : Text}
    (hx : x.Prints (.ok text)) (hy : y.Prints (.ok text')) :
    Prints (if c then x else y) (.ok (if c then text else text')) := by
  split
  · exact hx
  · exact hy

end Step

open Step

/-- A note that something went well, if notes are shown. -/
def note (o : Options) (text : Text) : Text :=
  if showsNotes o then Console.success false text else []

/-- What is printed of an export: the export itself where it is asked for on the terminal, and a
note on it. -/
def exportPart (o : Options) (r : Report) : Except Error Text :=
  match givenPath o.output with
  | none => .ok []
  | some path => do
    let text ← exportText o.format r
    return (if path == standardOutput then text else [])
      ++ note o (formatName o.format ++ " export written to: " ++ path)

/-- What is printed about an image: a note on it, or a caution that there is nothing to draw. -/
def imagePart (o : Options) (r : Report) : Text :=
  match givenPath o.image with
  | none => []
  | some path =>
    if r.layout.isNone then Console.warning false "No layout computed; skipping image rendering"
    else note o ("Layout image written to: " ++ path)

/-- What is printed of a report. -/
def reportPart (o : Options) (r : Report) : Except Error Text :=
  if o.json then reportText r
  else if showsNotes o then do
    let analysis ← Console.analysisReport false r.analysis r.cycles
    return Console.modelReport false r.model.statistics
      ++ ((r.layout.map fun (outcome, quality) =>
        Console.layoutReport false outcome (some quality)).getD [] ++ analysis)
  else .ok []

/-- A note is printed if notes are shown. -/
theorem prints_note (text : Text) :
    Prints (if showsNotes o then print (Console.success false text) else pure ())
      (.ok (note o text)) :=
  (prints_print _).ite prints_pure

/-- Writing an export prints its part. -/
theorem prints_writeExport (o : Options) (r : Report) :
    (writeExport o (showsNotes o) r).Prints (exportPart o r) := by
  unfold writeExport exportPart
  cases givenPath o.output with
  | none => exact prints_pure
  | some path =>
    refine prints_lift_bind fun text htext => ?_
    simp only [htext, ok_bind]
    cases path == standardOutput with
    | true => exact (prints_print text).bind (prints_note _)
    | false => exact (prints_note _).after (prints_withFiles _)

/-- Drawing an image prints its part. -/
theorem prints_draw (o : Options) (r : Report) :
    (draw o (showsNotes o) r).Prints (.ok (imagePart o r)) := by
  unfold draw imagePart
  cases givenPath o.image with
  | none => exact prints_pure
  | some path =>
    refine (prints_print _).ite (prints_lift_bind fun drawing _ => ?_)
    refine Prints.after ?_ (prints_withFiles _)
    refine Prints.after ?_ (prints_modify fun _ => rfl)
    exact (prints_note _).after (prints_log _ _ _)

/-- Printing a report prints its part. -/
theorem prints_printReport (o : Options) (r : Report) :
    (printReport o (showsNotes o) r).Prints (reportPart o r) := by
  unfold printReport reportPart
  split
  · refine prints_lift_bind fun text htext => ?_
    rw [htext]
    exact prints_print text
  split
  · have hanalysis : Prints (do print (← Console.analysisReport false r.analysis r.cycles))
        (Console.analysisReport false r.analysis r.cycles) := by
      refine prints_lift_bind fun analysis h => ?_
      rw [h]
      exact prints_print analysis
    cases r.layout with
    | none => exact (prints_print _).bind hanalysis
    | some layout =>
      have h := (prints_print (Console.modelReport false r.model.statistics)).bind
        ((prints_print (Console.layoutReport false layout.1 (some layout.2))).bind hanalysis)
      simpa only [ok_bind, bind_assoc, pure_bind, Option.map_some, Option.getD_some] using h
  · exact prints_pure

/-- What is printed of a report's delivery. -/
def deliveredText (o : Options) (r : Report) : Except Error Text := do
  return (← exportPart o r) ++ (imagePart o r ++ (← reportPart o r))

/-- A delivery prints its three parts. -/
theorem prints_deliver (o : Options) (r : Report) :
    (deliver o r).Prints (deliveredText o r) := by
  have h := (prints_writeExport o r).bind ((prints_draw o r).bind (prints_printReport o r))
  simp only [ok_bind, bind_assoc, pure_bind] at h
  exact h

/-- A run ends with code zero only if no stage fails. -/
theorem run_stages_of_code_zero (h : (run o env files entropy).code = 0) :
    (stages o env entropy).run { files } = (.ok (), (run o env files entropy).transcript) := by
  unfold run at h ⊢
  split at h
  next t hstages => rw [hstages]
  next =>
    split at h
    · cases h
    · cases h

/-- A run that goes well prints what is delivered of its survey. -/
theorem output_of_code_zero (h : (run o env files entropy).code = 0) :
    ∃ r, survey o env entropy files = .ok r ∧
      deliveredText o r = .ok (run o env files entropy).transcript.output := by
  have hstages := run_stages_of_code_zero h
  rw [stages_eq, run_bind] at hstages
  obtain ⟨t, hlearn, houtput, -⟩ := observes_learn o env entropy { files }
  rw [hlearn] at hstages
  cases hsurvey : survey o env entropy files with
  | error e =>
    rw [hsurvey] at hstages
    cases hstages
  | ok r =>
    rw [hsurvey] at hstages
    -- nothing was printed before the delivery, so that what it prints is the whole output
    obtain ⟨printed, hprinted, hdelivered⟩ := prints_deliver o r _ _ hstages
    rw [houtput] at hdelivered
    exact ⟨r, rfl, hdelivered ▸ hprinted⟩

/-- A caution that there is no layout to be drawn. -/
def caution (o : Options) (r : Report) : Text :=
  if (givenPath o.image).isSome && r.layout.isNone then
    Console.warning false "No layout computed; skipping image rendering"
  else []

/-- There is a caution exactly if an image is asked for and there is no layout. -/
theorem caution_eq_nil_iff : caution o r = [] ↔ givenPath o.image = none ∨ r.layout ≠ none := by
  unfold caution
  cases givenPath o.image <;> cases r.layout <;> simp [Console.warning, Console.line]

/-- Where no notes are shown, none is made. -/
theorem note_of_showsNotes_eq_false (h : showsNotes o = false) (text : Text) :
    note o text = [] := by
  simp [note, h]

/-- What is printed of an export that is written to a file: a note on it. -/
def exportNote (o : Options) : Text :=
  match givenPath o.output with
  | none => []
  | some path => note o (formatName o.format ++ " export written to: " ++ path)

/-- Where the export is not printed, only a note on it is. -/
theorem eq_exportNote_of_exportPart {exported : Text} (houtput : o.output ≠ some standardOutput)
    (h : exportPart o r = .ok exported) : exported = exportNote o := by
  unfold exportPart at h
  unfold exportNote
  split at h
  · exact (Except.ok.inj h).symm
  next path hpath =>
    have hne : (path == standardOutput) = false := by
      rw [beq_eq_false_iff_ne]
      rintro rfl
      exact houtput (Option.filter_eq_some_iff.mp hpath).1
    obtain ⟨text, -, h⟩ := bind_eq_ok_iff.mp h
    rw [← Except.ok.inj h, hne]
    rfl

/-- Where no notes are shown, nothing but a caution is printed about an image. -/
theorem imagePart_of_showsNotes_eq_false (h : showsNotes o = false) :
    imagePart o r = caution o r := by
  unfold imagePart caution
  cases givenPath o.image with
  | none => rfl
  | some path =>
    simp only [note_of_showsNotes_eq_false h]
    rfl

/-- Where no notes are shown, no report for a reader is printed. -/
theorem reportPart_of_showsNotes_eq_false (hnotes : showsNotes o = false) (hjson : o.json = false) :
    reportPart o r = .ok [] := by
  simp [reportPart, hnotes, hjson]

/-- An export on the terminal is all that is delivered there, but for a caution. -/
theorem deliveredText_of_standardOutput {printed : Text} (hjson : o.json = false)
    (houtput : o.output = some standardOutput) (h : deliveredText o r = .ok printed) :
    ∃ text, exportText o.format r = .ok text ∧ printed = text ++ caution o r := by
  have hnotes : showsNotes o = false := by simp [showsNotes, houtput]
  have hpath : givenPath o.output = some standardOutput := by
    rw [houtput]
    rfl
  unfold deliveredText exportPart at h
  simp only [hpath, reportPart_of_showsNotes_eq_false hnotes hjson,
    imagePart_of_showsNotes_eq_false hnotes, note_of_showsNotes_eq_false hnotes] at h
  obtain ⟨_, hexport, h⟩ := bind_eq_ok_iff.mp h
  obtain ⟨text, htext, hexport⟩ := bind_eq_ok_iff.mp hexport
  cases hexport
  cases h
  exact ⟨text, htext, by simp⟩

/-- Of a quiet delivery of anything else nothing is printed, but for a caution. -/
theorem deliveredText_of_quiet {printed : Text} (hjson : o.json = false) (hquiet : o.quiet = true)
    (houtput : o.output ≠ some standardOutput) (h : deliveredText o r = .ok printed) :
    printed = caution o r := by
  have hnotes : showsNotes o = false := by simp [showsNotes, hquiet]
  have hexport : exportNote o = [] := by
    unfold exportNote
    split
    · rfl
    · exact note_of_showsNotes_eq_false hnotes _
  unfold deliveredText at h
  obtain ⟨exported, hexported, h⟩ := bind_eq_ok_iff.mp h
  rw [reportPart_of_showsNotes_eq_false hnotes hjson, imagePart_of_showsNotes_eq_false hnotes,
    eq_exportNote_of_exportPart houtput hexported, hexport] at h
  cases h
  simp

/-- In a run that goes well, there is a caution exactly if an image is asked for of a model that is
not laid out. -/
theorem caution_eq_nil_iff_of_survey (h : survey o env entropy files = .ok r) :
    caution o r = [] ↔ givenPath o.image = none ∨ o.noLayout = false ∧ r.model.elements ≠ [] := by
  obtain ⟨plan, m, limits, -, hlaid, -⟩ := exists_of_survey h
  rw [caution_eq_nil_iff, Ne, layout_eq_none_iff_of_laidOut hlaid, not_or, Bool.not_eq_true]

/--
The export owns the terminal. When a run goes well that prints no report as a document, and its
export is printed, then it prints the text of the export and nothing else; and when it is quiet and
its export is not printed, it prints nothing. There is one exception: where an image is asked for
and nothing was laid out, because no layout is wanted or there is no element, a caution about it is
printed all the same.
-/
theorem export_owns_output (h : (run o env files entropy).code = 0) (hjson : o.json = false) :
    ∃ r, survey o env entropy files = .ok r ∧
      (o.output = some standardOutput → ∃ text, exportText o.format r = .ok text ∧
        (run o env files entropy).transcript.output = text ++ caution o r) ∧
      (o.quiet = true → o.output ≠ some standardOutput →
        (run o env files entropy).transcript.output = caution o r) ∧
      (caution o r = [] ↔
        givenPath o.image = none ∨ o.noLayout = false ∧ r.model.elements ≠ []) := by
  obtain ⟨r, hsurvey, hdelivered⟩ := output_of_code_zero h
  exact ⟨r, hsurvey, fun houtput => deliveredText_of_standardOutput hjson houtput hdelivered,
    fun hquiet houtput => deliveredText_of_quiet hjson hquiet houtput hdelivered,
    caution_eq_nil_iff_of_survey hsurvey⟩

/-- The description of a person is exported to the terminal, and nothing else is printed there. -/
theorem export_owns_output_of_person :
    let o : Options := { input := "m.c4", output := some "-", noLayout := true }
    let bytes := "person A \"A\"".toList.map (·.toNat.toUInt8)
    let outcome := run o [] { contents := [(["m.c4"], bytes)] } 0
    outcome.code = 0 ∧ o.json = false ∧
      ∃ r text, exportText o.format r = .ok text ∧ outcome.transcript.output = text := by
  intro o bytes outcome
  have hcode : outcome.code = 0 := by decide +kernel
  obtain ⟨r, hsurvey, hexport, -, hcaution⟩ := export_owns_output hcode rfl
  obtain ⟨text, htext, houtput⟩ := hexport rfl
  refine ⟨hcode, rfl, r, text, htext, ?_⟩
  rw [hcaution.mpr (.inl rfl), List.append_nil] at houtput
  exact houtput

/-- A caution stands behind an export, and in the output of a quiet run. -/
theorem caution_behind_export :
    let files : Files := { contents := [(["m.c4"], [])] }
    let o : Options :=
      { input := "m.c4", output := some "-", image := some "x.png", noLayout := true }
    let quiet : Options := { input := "m.c4", quiet := true, image := some "x.png" }
    ((run o [] files 0).code = 0 ∧ o.json = false ∧ o.output = some standardOutput ∧
      ∃ r text, survey o [] 0 files = .ok r ∧ exportText o.format r = .ok text ∧
        (run o [] files 0).transcript.output ≠ text) ∧
      (run quiet [] files 0).code = 0 ∧ quiet.json = false ∧ quiet.output ≠ some standardOutput ∧
        (run quiet [] files 0).transcript.output ≠ [] := by
  intro files o quiet
  have hcode : (run o [] files 0).code = 0 := by decide +kernel
  obtain ⟨r, hsurvey, hdelivered⟩ := output_of_code_zero hcode
  obtain ⟨text, htext, houtput⟩ := deliveredText_of_standardOutput rfl rfl hdelivered
  have hcaution : caution o r ≠ [] := by
    rw [Ne, caution_eq_nil_iff_of_survey hsurvey]
    rintro (himage | ⟨hlayout, -⟩)
    · exact absurd himage (by decide)
    · cases hlayout
  refine ⟨⟨hcode, rfl, rfl, r, text, hsurvey, htext, ?_⟩, by decide +kernel, rfl, by decide,
    by decide +kernel⟩
  rw [houtput]
  simpa using hcaution

end Landscape.Command
