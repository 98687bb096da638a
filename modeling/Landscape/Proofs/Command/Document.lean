import Landscape.Proofs.Command.Output
import Landscape.Proofs.Interchange.Reports
import Landscape.Proofs.Interchange.Saving

/-!
# Reports as documents

A run may print its report as a document. The document stands at the end of what is printed, and
whoever reads it finds the report of the run's survey and nothing behind it but a line end.
-/

namespace Landscape.Command

variable {o : Options} {env : Environment} {entropy : Nat} {files : Files} {r : Report}

/-- The model that is read comes from a source that can be read back. -/
theorem exists_source_of_inputModel {path : Text} {m : Model} (h : inputModel path files = .ok m) :
    ∃ source : Landscape.Source, source.Legible ∧ Obtained source m := by
  unfold inputModel at h
  split at h
  · obtain ⟨d, hfits, hm⟩ := Model.exists_document_of_load h
    exact ⟨.document d, hfits.legible, .read hm⟩
  · obtain ⟨text, htext, hm⟩ := bind_eq_ok_iff.mp h
    unfold Description.load at htext
    cases hfile : files.read path with
    | error e =>
      rw [hfile] at htext
      cases htext
    | ok bytes =>
      rw [hfile] at htext
      obtain rfl := Except.ok.inj htext
      exact ⟨.description _, Json.isJoined_ofChars _, .read hm⟩

/-- A model that is laid out comes from the source that it came from before. -/
theorem obtained_of_laidOut {source : Landscape.Source} {plan : Layout.Plan} {m m' : Model}
    {layout : Option (Layout.Outcome × Layout.Quality)} (hm : Obtained source m)
    (h : laidOut o plan entropy m = .ok (m', layout)) : Obtained source m' := by
  unfold laidOut at h
  split at h
  · cases h
    exact hm
  · obtain ⟨⟨placed, outcome⟩, hrun, h⟩ := bind_eq_ok_iff.mp h
    obtain ⟨quality, -, h⟩ := bind_eq_ok_iff.mp h
    cases h
    exact hm.laidOut hrun

/-- What a run reports on comes from a source that can be read back. -/
theorem exists_source_of_survey (h : survey o env entropy files = .ok r) :
    ∃ source : Landscape.Source, source.Legible ∧ Obtained source r.model := by
  obtain ⟨plan, m, limits, hread, hlaid, -⟩ := exists_of_survey h
  obtain ⟨source, hsource, hm⟩ := exists_source_of_inputModel hread
  exact ⟨source, hsource, obtained_of_laidOut hm.built hlaid⟩

/-- The document of a survey's report is clear. -/
theorem clear_of_survey (h : survey o env entropy files = .ok r) {d : Json}
    (hd : r.toJson = .ok d) : d.Clear := by
  obtain ⟨plan, m, limits, -, -, -, hanalysis, hcycles⟩ := exists_of_survey h
  obtain ⟨source, hsource, hobtained⟩ := exists_source_of_survey h
  have hlevels : source.nesting ≤ max source.nesting 1 + 3 := by omega
  obtain ⟨helements, hrelations⟩ := hobtained.parts_fit hsource hlevels
  refine Report.clear_toJson (le_max_right _ _) helements hrelations hanalysis ?_ hd
  intro cycles hmem
  rw [hcycles] at hmem
  split at hmem
  · exact (Option.some.inj hmem).symm
  · cases hmem

/-- The printed document of a survey's report is read as the document, whatever delimits it, if its
integers are not too long to be read. -/
theorem value_of_survey (h : survey o env entropy files = .ok r) {d : Json}
    (hd : r.toJson = .ok d) (hintegers : ∀ n ∈ d.integers, n.natAbs < 10 ^ Number.maxDigits)
    (layout : Json.Layout) {allowed : Nat} (hallowed : d.nesting ≤ allowed) {rest : List Char}
    (hrest : Json.Delimited rest) :
    ∃ fuel, Json.value fuel allowed ((Json.print layout d).toList ++ rest) = .ok (d, rest) :=
  ⟨_, Json.value_print ((clear_of_survey h hd).legible hintegers) layout hallowed hrest⟩

/-- What is printed before a report that is printed as a document: notes on what was written, and a
caution. -/
def remarks (o : Options) (r : Report) : Text := exportNote o ++ imagePart o r

/-- Where the report is printed as a document and the export is not printed, the document stands
behind the remarks. -/
theorem deliveredText_of_json {printed : Text} (hjson : o.json = true)
    (houtput : o.output ≠ some standardOutput) (h : deliveredText o r = .ok printed) :
    ∃ d, r.toJson = .ok d ∧
      printed = remarks o r ++ Text.ofString (Json.print (.indented 2) d ++ "\n") := by
  unfold deliveredText at h
  obtain ⟨exported, hexported, h⟩ := bind_eq_ok_iff.mp h
  obtain ⟨reported, hreported, h⟩ := bind_eq_ok_iff.mp h
  rw [reportPart, if_pos hjson, reportText] at hreported
  obtain ⟨_, -, hreported⟩ := bind_eq_ok_iff.mp hreported
  obtain ⟨d, hd, hreported⟩ := bind_eq_ok_iff.mp hreported
  refine ⟨d, hd, ?_⟩
  rw [← Except.ok.inj h, ← Except.ok.inj hreported, eq_exportNote_of_exportPart houtput hexported,
    remarks, Text.ofString_append, List.append_assoc]

/-- There are no remarks exactly if nothing is said about an export and nothing about an image. -/
theorem remarks_eq_nil_iff (houtput : o.output ≠ some standardOutput) :
    remarks o r = [] ↔ (o.quiet = true ∨ givenPath o.output = none) ∧
      (givenPath o.image = none ∨ o.quiet = true ∧ r.layout ≠ none) := by
  have hnotes : showsNotes o = !o.quiet := by
    simp [showsNotes, houtput]
  have hnote (text : Text) : note o text = [] ↔ o.quiet = true := by
    unfold note
    rw [hnotes]
    cases o.quiet <;> simp [Console.success, Console.line]
  rw [remarks, List.append_eq_nil_iff]
  refine and_congr ?_ ?_
  · unfold exportNote
    cases givenPath o.output with
    | none => simp
    | some path => simp [hnote]
  · unfold imagePart
    cases givenPath o.image with
    | none => simp
    | some path =>
      cases r.layout with
      | none => simp [Console.warning, Console.line]
      | some layout => simp [hnote]

/-- In a run that goes well, there are no remarks exactly if the run is quiet or writes no export,
and asks for no image or is quiet and lays out the model. -/
theorem remarks_eq_nil_iff_of_survey (h : survey o env entropy files = .ok r)
    (houtput : o.output ≠ some standardOutput) :
    remarks o r = [] ↔ (o.quiet = true ∨ givenPath o.output = none) ∧
      (givenPath o.image = none ∨
        o.quiet = true ∧ o.noLayout = false ∧ r.model.elements ≠ []) := by
  obtain ⟨plan, m, limits, -, hlaid, -⟩ := exists_of_survey h
  rw [remarks_eq_nil_iff houtput, Ne, layout_eq_none_iff_of_laidOut hlaid, not_or,
    Bool.not_eq_true]

/-- A text that begins, if there is anything in it, with the mark of a note or of a caution. -/
def IsMarked (t : Text) : Prop := ∀ s ∈ t.head?, s = .char '✓' ∨ s = .char '⚠'

/-- A text of marked parts is marked. -/
theorem IsMarked.append {t u : Text} (ht : IsMarked t) (hu : IsMarked u) : IsMarked (t ++ u) := by
  cases t with
  | nil => exact hu
  | cons s t => exact ht

/-- A note is marked, if there is one. -/
theorem isMarked_note (text : Text) : IsMarked (note o text) := by
  unfold note
  split
  · rintro _ ⟨⟩
    exact .inl rfl
  · exact nofun

/-- Remarks are marked. -/
theorem isMarked_remarks : IsMarked (remarks o r) := by
  refine IsMarked.append ?_ ?_
  · unfold exportNote
    split
    · exact nofun
    · exact isMarked_note _
  · unfold imagePart
    split
    · exact nofun
    split
    · rintro _ ⟨⟩
      exact .inr rfl
    · exact isMarked_note _

/-- What begins with such a mark is no document. -/
theorem document_mark {c : Char} (hc : c = '✓' ∨ c = '⚠') (cs : List Char) :
    Json.document (c :: cs) = .error (.problem .value (cs.length + 1)) := by
  rcases hc with rfl | rfl
  · rfl
  · rfl

/-- What is printed behind remarks is no document. -/
theorem document_of_remarks {text : Text} {cs : List Char} (h : remarks o r ≠ [])
    (hcs : remarks o r ++ text = Text.ofChars cs) :
    Json.document cs = .error (.problem .value cs.length) := by
  have hmarked : IsMarked (remarks o r) := isMarked_remarks
  cases hremarks : remarks o r with
  | nil => exact absurd hremarks h
  | cons s rest =>
    rw [hremarks] at hcs hmarked
    obtain ⟨c, cs, rfl, rfl, -⟩ := List.map_eq_cons_iff.mp hcs.symm
    exact document_mark (by simpa using hmarked _ rfl) cs

/-- Cycles are in a survey's document exactly if they are asked for. -/
theorem get?_all_cycles_of_survey (h : survey o env entropy files = .ok r) {d : Json}
    (hd : r.toJson = .ok d) : d.get? "all_cycles" =
      if o.allCycles then some (.list (r.model.cycles.map fun c => .list (c.map .text)))
      else none := by
  obtain ⟨plan, m, limits, -, -, -, -, hcycles⟩ := exists_of_survey h
  unfold Report.toJson at hd
  obtain ⟨analysis, -, hd⟩ := bind_eq_ok_iff.mp hd
  obtain rfl := Except.ok.inj hd
  rw [hcycles]
  cases o.allCycles <;> simp [Json.get?, List.lookup_cons]

/--
The report as a document. When a run goes well that prints its report as a document and does not
print its export, it prints the document of its survey and a line end. The document has a field for
all cycles exactly if they are asked for, and if its integers are not too long to be read, it is
read as what it is, with the line end left over. Two sorts of remarks may come before it, each of
them a line that is no part of any document: notes on the export and the image, unless the run is
quiet, and a caution, be it quiet or not, where an image is asked for and nothing was laid out.
-/
theorem document_ends_output (h : (run o env files entropy).code = 0) (hjson : o.json = true)
    (houtput : o.output ≠ some standardOutput) :
    ∃ r d, survey o env entropy files = .ok r ∧ r.toJson = .ok d ∧
      (run o env files entropy).transcript.output =
        remarks o r ++ Text.ofString (Json.print (.indented 2) d ++ "\n") ∧
      (remarks o r = [] ↔ (o.quiet = true ∨ givenPath o.output = none) ∧
        (givenPath o.image = none ∨
          o.quiet = true ∧ o.noLayout = false ∧ r.model.elements ≠ [])) ∧
      d.get? "all_cycles" = (if o.allCycles then
        some (.list (r.model.cycles.map fun c => .list (c.map .text))) else none) ∧
      (remarks o r ≠ [] → ∀ cs, (run o env files entropy).transcript.output = Text.ofChars cs →
        ∃ fault, Json.document cs = .error fault) ∧
      ((∀ n ∈ d.integers, n.natAbs < 10 ^ Number.maxDigits) → ∀ allowed, d.nesting ≤ allowed →
        ∃ fuel, Json.value fuel allowed (Json.print (.indented 2) d ++ "\n").toList =
          .ok (d, ['\n'])) := by
  obtain ⟨r, hsurvey, hdelivered⟩ := output_of_code_zero h
  obtain ⟨d, hd, hprinted⟩ := deliveredText_of_json hjson houtput hdelivered
  refine ⟨r, d, hsurvey, hd, hprinted, remarks_eq_nil_iff_of_survey hsurvey houtput,
    get?_all_cycles_of_survey hsurvey hd, ?_, ?_⟩
  · intro hremarks cs hcs
    rw [hprinted] at hcs
    exact ⟨_, document_of_remarks hremarks hcs⟩
  · intro hintegers allowed hallowed
    rw [String.toList_append]
    refine value_of_survey hsurvey hd hintegers (.indented 2) hallowed ?_
    exact Json.delimited_cons (by decide) []

/-- The report on a person is printed as a document that can be read, and nothing else is. -/
theorem document_ends_output_of_person :
    let o : Options := { input := "m.c4", json := true, allCycles := true, noLayout := true }
    let bytes := "person A \"A\"".toList.map (·.toNat.toUInt8)
    let files : Files := { contents := [(["m.c4"], bytes)] }
    (run o [] files 0).code = 0 ∧ o.json = true ∧ o.output ≠ some standardOutput ∧
      ∃ d fuel, (survey o [] 0 files >>= Report.toJson) = .ok d ∧
        (run o [] files 0).transcript.output =
          Text.ofString (Json.print (.indented 2) d ++ "\n") ∧
        Json.value fuel Json.maxDepth (Json.print (.indented 2) d ++ "\n").toList =
          .ok (d, ['\n']) := by
  intro o bytes files
  have hcode : (run o [] files 0).code = 0 := by decide +kernel
  obtain ⟨r, d, hsurvey, hd, houtput, hremarks, -, -, hvalue⟩ :=
    document_ends_output hcode rfl nofun
  have hdocument : (survey o [] 0 files >>= Report.toJson) = .ok d := by
    rw [hsurvey]
    exact hd
  have hsmall : (survey o [] 0 files >>= Report.toJson).toOption.all (fun d =>
      d.nesting ≤ Json.maxDepth ∧ ∀ n ∈ d.integers, n.natAbs < 10 ^ Number.maxDigits) = true := by
    decide +kernel
  rw [hdocument] at hsmall
  obtain ⟨hnesting, hintegers⟩ := of_decide_eq_true hsmall
  obtain ⟨fuel, hread⟩ := hvalue hintegers Json.maxDepth hnesting
  rw [hremarks.mpr ⟨.inr rfl, .inl rfl⟩, List.nil_append] at houtput
  exact ⟨hcode, rfl, nofun, d, fuel, hdocument, houtput, hread⟩

/-- A caution in a quiet run, or a note on an export, makes what is printed no document at all. -/
theorem remarks_before_document :
    let files : Files := { contents := [(["m.c4"], [])] }
    let cautious : Options :=
      { input := "m.c4", json := true, quiet := true, image := some "x.png", noLayout := true }
    let noted : Options :=
      { input := "m.c4", json := true, output := some "out.dot", noLayout := true }
    ((run cautious [] files 0).code = 0 ∧ cautious.output ≠ some standardOutput ∧
      ∀ cs d, (run cautious [] files 0).transcript.output = Text.ofChars cs →
        Json.document cs ≠ .ok d) ∧
    (run noted [] files 0).code = 0 ∧ noted.output ≠ some standardOutput ∧
      ∀ cs d, (run noted [] files 0).transcript.output = Text.ofChars cs →
        Json.document cs ≠ .ok d := by
  intro files cautious noted
  have hrefused {o : Options} (hcode : (run o [] files 0).code = 0) (hjson : o.json = true)
      (houtput : o.output ≠ some standardOutput)
      (hremarks : ¬((o.quiet = true ∨ givenPath o.output = none) ∧
        (givenPath o.image = none ∨ o.quiet = true ∧ o.noLayout = false))) (cs : List Char)
      (d : Json) (hcs : (run o [] files 0).transcript.output = Text.ofChars cs) :
      Json.document cs ≠ .ok d := by
    obtain ⟨r, hsurvey, hdelivered⟩ := output_of_code_zero hcode
    obtain ⟨_, -, hprinted⟩ := deliveredText_of_json hjson houtput hdelivered
    have hne : remarks o r ≠ [] := by
      rw [Ne, remarks_eq_nil_iff_of_survey hsurvey houtput]
      tauto
    rw [document_of_remarks hne (hprinted ▸ hcs)]
    nofun
  have hcautious : (run cautious [] files 0).code = 0 := by decide +kernel
  have hnoted : (run noted [] files 0).code = 0 := by decide +kernel
  have hfile : noted.output ≠ some standardOutput := by decide
  exact ⟨⟨hcautious, nofun, hrefused hcautious rfl nofun (by decide)⟩, hnoted, hfile,
    hrefused hnoted rfl hfile (by decide)⟩

end Landscape.Command
