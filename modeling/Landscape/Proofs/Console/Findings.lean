import Landscape.Proofs.Command.Cycles
import Landscape.Proofs.Console.Columns
import Landscape.Proofs.Detection.Summary
import Landscape.Proofs.Export.Spelling

/-!
# The table of findings

The report on an analysis has a table with a row for each finding. Its columns are aligned where it is
printed without colours. In a coloured report the severities are coloured and their heading is not, so
that the last separator stands nine symbols further left in the rows than in the heading.
-/

namespace Landscape

namespace Console

open Text (unseen)

variable {f : Finding} {findings : List Finding} {color : Bool} {first second third : Nat}
  {top row : Text} {rows : List Text}

/-- The elements of a finding in words. -/
def subject (f : Finding) : Text :=
  match f.smell with
  | .cycle => chainText f.elements
  | _ => f.elements.headD []

/-- The cells of a finding as they are printed. -/
def printedCells (color : Bool) (f : Finding) : List Text :=
  [f.smell.name, subject f,
    inked color (Number.fixed 2 f.severity.toFloat) [.ofSeverity f.severity], f.description]

/-- The cells of a finding as they are seen: its smell, its elements, its severity with two decimal
places, and its description. -/
def seenCells (f : Finding) : List Text :=
  [f.smell.name, (subject f).uncoloured, Number.fixed 2 f.severity.toFloat,
    f.description.uncoloured]

/-- How many symbols of the cell of a severity are not seen: an escape, a bracket, two digits and a
letter for the ink, and one digit less for its end. -/
def inkLength (color : Bool) : Nat := if color then 9 else 0

/-- The row of a finding that has an element. -/
theorem findingRow_eq (h : f.elements ≠ []) : findingRow color f = .ok (printedCells color f) := by
  obtain ⟨id, ids, hids⟩ := List.exists_cons_of_ne_nil h
  unfold findingRow printedCells subject Finding.element
  rw [hids]
  cases f.smell <;> rfl

/-- The control sequences of inks are not seen. -/
theorem uncoloured_code (ink : Ink) (r : Text) : (ink.code ++ r).uncoloured = r.uncoloured := by
  cases ink <;> rfl

/-- What is inked is seen as it is. -/
theorem uncoloured_inked {t : Text} (h : .char '\x1b' ∉ t) (color : Bool) (ink : Ink) :
    (inked color t [ink]).uncoloured = t := by
  cases color with
  | false => exact Text.uncoloured_of_not_mem h
  | true =>
    have hinked : inked true t [ink] = ink.code ++ (t ++ (Ink.reset.code ++ ([] : Text))) := by
      simp [inked]
    rw [hinked, uncoloured_code, Text.uncoloured_append_of_not_mem h, uncoloured_code]
    exact List.append_nil t

/-- As much is not seen of any severity that is inked. -/
theorem unseen_inked {t : Text} (h : .char '\x1b' ∉ t) (color : Bool) (s : Severity) :
    unseen (inked color t [.ofSeverity s]) = inkLength color := by
  have hlength : (inked color t [.ofSeverity s]).length = inkLength color + t.length := by
    cases color with
    | false => exact (Nat.zero_add _).symm
    | true =>
      have hcode : ((Ink.ofSeverity s).code : Text).length = 5 := by
        unfold Ink.ofSeverity
        split_ifs <;> rfl
      have hreset : (Ink.reset.code : Text).length = 4 := rfl
      simp [inked, inkLength, hcode, hreset]
      omega
  rw [unseen, uncoloured_inked h, hlength, Nat.add_sub_cancel]

/-- A number has no escape. -/
theorem not_escape_fixed (places : Nat) (x : Float) :
    .char '\x1b' ∉ (Number.fixed places x : Text) :=
  Number.char_notMem_fixed (by decide) places x

theorem not_escape_name (smell : Smell) : .char '\x1b' ∉ (smell.name : Text) := by
  cases smell <;> decide

/-- What is seen of the cells that are printed. -/
theorem map_uncoloured_printedCells (color : Bool) (f : Finding) :
    (printedCells color f).map Text.uncoloured = seenCells f := by
  simp only [printedCells, seenCells, List.map_cons, List.map_nil,
    Text.uncoloured_of_not_mem (not_escape_name f.smell),
    uncoloured_inked (not_escape_fixed 2 f.severity.toFloat)]

/-- The headings of the columns. -/
def titles : List Text := ["Type", "Nodes", "Severity", "Description"]

/-- The separators stand at the same offsets in the heading of a table of findings and in its rows,
between cells that are shown in full. -/
def Aligned (findings : List Finding) (top : Text) (rows : List Text) : Prop :=
  ∃ offsets, Columns offsets titles top ∧
    List.Forall₂ (fun f row => Columns offsets (seenCells f) row) findings rows

/-- Lines are seen line by line. -/
theorem uncoloured_lines (texts : List Text) :
    (lines texts).uncoloured = lines (texts.map Text.uncoloured) := by
  induction texts with
  | nil => rfl
  | cons t texts ih =>
    have hline (t : Text) (texts : List Text) :
        lines (t :: texts) = t ++ ([Symbol.char '\n'] ++ lines texts) := List.append_assoc _ _ _
    have hfeed : Text.uncoloured ([.char '\n'] ++ lines texts) =
        [.char '\n'] ++ (lines texts).uncoloured :=
      Text.uncoloured_append_of_not_mem (by decide) _
    rw [hline, Text.uncoloured_append (by rintro s ⟨⟩; rfl), hfeed, ih, List.map_cons, hline]

/-- What a row shows of a finding where the separators stand at given offsets in the heading. -/
def ShowsFinding (color : Bool) (first second third : Nat) (f : Finding) (row : Text) : Prop :=
  ∃ s t, s + (subject f).unseen = second ∧ t + (subject f).unseen + inkLength color = third ∧
    Columns [first, s, t] (seenCells f) row

/-- What is seen of a row of the table. -/
theorem showsFinding_uncoloured (h : Columns [first, second, third] (printedCells color f) row) :
    ShowsFinding color first second third f row.uncoloured := by
  obtain ⟨seen, hseen, hoffsets⟩ := h.uncoloured
  rw [map_uncoloured_printedCells] at hseen
  have hlength : seen.length = 3 := Nat.succ.inj hseen.length_offsets
  obtain ⟨r, s, t, rfl⟩ := List.length_eq_three.mp hlength
  simp only [printedCells, unseenBefore, List.map_cons, List.zipWith_cons_cons,
    Text.unseen_of_not_mem (not_escape_name f.smell),
    unseen_inked (not_escape_fixed 2 f.severity.toFloat), List.cons.injEq, Nat.add_zero,
    Nat.zero_add] at hoffsets
  obtain ⟨rfl, hs, ht, -⟩ := hoffsets
  exact ⟨s, t, hs, by omega, hseen⟩

/-- What is seen of a table of findings. -/
theorem findingTable_shows (color : Bool) (hfound : findings ≠ [])
    (hnamed : ∀ f ∈ findings, f.elements ≠ []) :
    ∃ first second third table top rows, findingTable color findings = .ok table ∧
      table.uncoloured = lines (top :: rule '-' top.length :: rows) ∧
      Columns [first, second, third] titles top ∧
      List.Forall₂ (ShowsFinding color first second third) findings rows := by
  have hcells : findings.mapM (findingRow color) = .ok (findings.map (printedCells color)) :=
    mapM_eq_map fun f hf => findingRow_eq (hnamed f hf)
  have hlength : ∀ row ∈ findings.map (printedCells color), row.length = titles.length := by
    intro row hrow
    obtain ⟨f, -, rfl⟩ := List.mem_map.mp hrow
    rfl
  obtain ⟨offsets, top, texts, htable, htop, htexts⟩ :=
    table_eq color (List.cons_ne_nil _ _) (List.map_eq_nil_iff.not.mpr hfound) hlength
  obtain ⟨first, second, third, rfl⟩ :=
    List.length_eq_three.mp (Nat.succ.inj htop.length_offsets)
  have hescape : .char '\x1b' ∉ top := htop.not_mem (by decide) (by decide)
  refine ⟨first, second, third, lines (inked color top [.bold] :: rule '-' top.length :: texts), top,
    texts.map Text.uncoloured, ?_, ?_, htop, ?_⟩
  · rw [findingTable, hcells, ok_bind]
    exact htable
  · rw [uncoloured_lines, List.map_cons, List.map_cons, uncoloured_inked hescape,
      Text.uncoloured_of_not_mem (not_mem_rule (by decide) _)]
  · rw [List.forall₂_map_left_iff] at htexts
    rw [List.forall₂_map_right_iff]
    exact htexts.imp fun f row hrow => showsFinding_uncoloured hrow

/-- The columns are aligned where nothing that is not seen stands before a separator. -/
theorem aligned_iff (hfound : findings ≠ []) (htop : Columns [first, second, third] titles top)
    (hrows : List.Forall₂ (ShowsFinding color first second third) findings rows) :
    Aligned findings top rows ↔ color = false ∧ ∀ f ∈ findings, (subject f).unseen = 0 := by
  constructor
  · rintro ⟨offsets, htop', hrows'⟩
    obtain rfl := htop'.unique htop
    have hnothing : List.Forall₂ (fun f _ => (color = false ∧ (subject f).unseen = 0) ∧ True)
        findings rows := by
      refine hrows.mp ?_ hrows'
      rintro f row ⟨s, t, hs, ht, hcolumns⟩ hrow
      have hoffsets := hcolumns.unique hrow
      simp only [List.cons.injEq, and_true, true_and] at hoffsets
      obtain ⟨rfl, rfl⟩ := hoffsets
      have hink : inkLength color = 0 := by omega
      refine ⟨⟨?_, by omega⟩, trivial⟩
      cases color with
      | false => rfl
      | true => cases hink
    obtain ⟨hnothing, -⟩ := (List.forall₂_and_left _ _).mp hnothing
    obtain ⟨f, hf⟩ := List.exists_mem_of_ne_nil findings hfound
    exact ⟨(hnothing f hf).1, fun f hf => (hnothing f hf).2⟩
  · rintro ⟨rfl, hnothing⟩
    refine ⟨_, htop, ?_⟩
    refine ((List.forall₂_and_left _ _).mpr ⟨hnothing, hrows⟩).imp ?_
    rintro f row ⟨hzero, s, t, rfl, rfl, hcolumns⟩
    rw [hzero]
    exact hcolumns

/-- Cells without line feeds are seen without line feeds. -/
theorem not_feed_seenCells (hdescription : .char '\n' ∉ f.description)
    (hids : ∀ id ∈ f.elements, .char '\n' ∉ id) : ∀ cell ∈ seenCells f, .char '\n' ∉ cell := by
  have hname : .char '\n' ∉ (f.smell.name : Text) := by cases f.smell <;> decide
  have hnumber : .char '\n' ∉ (Number.fixed 2 f.severity.toFloat : Text) :=
    Number.char_notMem_fixed (by decide) 2 _
  have hsubject : .char '\n' ∉ subject f := by
    unfold subject
    split
    · refine not_mem_intercalate (by decide) fun id hid => ?_
      exact hids id ((List.mem_append.mp hid).elim (fun hmem => hmem) List.mem_of_mem_take)
    · cases hids' : f.elements with
      | nil => exact List.not_mem_nil
      | cons first others => exact hids first (hids' ▸ List.mem_cons_self)
  have hseen {t : Text} (h : .char '\n' ∉ t) : .char '\n' ∉ t.uncoloured :=
    fun hmem => h ((Text.uncolouredFrom_sublist 0 t).mem hmem)
  simp only [seenCells, List.forall_mem_cons]
  exact ⟨hname, hseen hsubject, hnumber, hseen hdescription, List.forall_mem_nil _⟩

/-- A row is one line unless ids or descriptions have line feeds. -/
theorem not_feed_rows (h : List.Forall₂ (ShowsFinding color first second third) findings rows)
    (hfeed : ∀ f ∈ findings, .char '\n' ∉ f.description ∧ ∀ id ∈ f.elements, .char '\n' ∉ id) :
    ∀ row ∈ rows, .char '\n' ∉ row := by
  induction h with
  | nil => exact List.forall_mem_nil _
  | cons hshows _ ih =>
    rw [List.forall_mem_cons] at hfeed ⊢
    obtain ⟨s, t, -, -, hcolumns⟩ := hshows
    obtain ⟨hdescription, hids⟩ := hfeed.1
    exact ⟨hcolumns.not_mem (by decide) (not_feed_seenCells hdescription hids), ih hfeed.2⟩

/-- What is said of the findings in a model has no line feeds. -/
theorem not_feed_description_of_mem_detect {m : Model} {limits : Limits} (h : f ∈ m.detect limits) :
    .char '\n' ∉ f.description := by
  have hcount {before after : Text} (n : Nat) (hbefore : .char '\n' ∉ before)
      (hafter : .char '\n' ∉ after) :
      .char '\n' ∉ before ++ ((toString n : String) : Text) ++ after := by
    simp only [List.mem_append, not_or]
    refine ⟨⟨hbefore, fun hdigit => ?_⟩, hafter⟩
    exact absurd (Number.isPlain_toString n _ (Text.char_mem_ofString.mp hdigit)) (by decide)
  rcases Model.mem_detect_iff.mp h with ⟨cycle, -, rfl⟩ | ⟨e, -, h | h | h⟩
  · exact hcount cycle.length (by decide) (by decide)
  · obtain ⟨q, -, rfl⟩ := Model.mem_fanInFindings_iff.mp h
    exact hcount (m.fanIn e.id) (by decide) (by decide)
  · obtain ⟨q, -, rfl⟩ := Model.mem_fanOutFindings_iff.mp h
    exact hcount (m.fanOut e.id) (by decide) (by decide)
  · obtain ⟨-, rfl⟩ := Model.mem_isolationFindings_iff.mp h
    exact (by decide : .char '\n' ∉ (("No connections to other components" : String) : Text))

/-- The report on findings shows them as a table below its heading. -/
theorem exists_analysisReport_eq {a : Analysis} {cycles : Option (List (List Text))} {table : Text}
    (hfound : a.findings ≠ []) (hcycles : ∀ c ∈ cycles.getD [], c ≠ [])
    (htable : findingTable color a.findings = .ok table) :
    ∃ rest, analysisReport color a cycles =
      .ok (heading color "Anti-Patterns" ++ table ++ rest) := by
  obtain ⟨cells, hcells, htable⟩ := bind_eq_ok_iff.mp htable
  have hnonempty : a.findings.isEmpty = false := List.isEmpty_eq_false_iff.mpr hfound
  rw [analysisReport]
  simp only [hnonempty, Bool.false_eq_true, if_false, hcells, htable, ok_bind]
  cases cycles with
  | none => exact ⟨_, congrArg Except.ok (by rw [List.append_assoc, List.append_assoc])⟩
  | some listed =>
    have hlisted : cycleReport listed = .ok (cyclesText listed) := cycleReport_eq hcycles
    simp only [hlisted, ok_bind]
    exact ⟨_, congrArg Except.ok (by rw [List.append_assoc, List.append_assoc])⟩

/--
The report on findings has a table. What is seen of it is a heading, a rule, and a row for each
finding that shows its smell, its elements, its severity and its description in full. In a row the
second separator stands to the left of that in the heading by as many symbols of the elements as are
not seen, and the third one by nine more if the report is coloured. So the columns are aligned where
it is not coloured and no elements have colour sequences of their own, and nowhere else. A row is one
line unless its ids have line feeds, or a description has that no detection makes.
-/
theorem analysisReport_shows_table (color : Bool) {a : Analysis}
    {cycles : Option (List (List Text))} (hfound : a.findings ≠ [])
    (hnamed : ∀ f ∈ a.findings, f.elements ≠ []) (hcycles : ∀ c ∈ cycles.getD [], c ≠ []) :
    ∃ first second third table top rows rest,
      analysisReport color a cycles = .ok (heading color "Anti-Patterns" ++ table ++ rest) ∧
      table.uncoloured = lines (top :: rule '-' top.length :: rows) ∧
      Columns [first, second, third] titles top ∧
      List.Forall₂ (ShowsFinding color first second third) a.findings rows ∧
      (Aligned a.findings top rows ↔ color = false ∧ ∀ f ∈ a.findings, (subject f).unseen = 0) ∧
      ((∀ f ∈ a.findings, ∀ id ∈ f.elements, .char '\n' ∉ id) →
        ((∃ m limits, a = Model.analyze m limits) ∨
          ∀ f ∈ a.findings, .char '\n' ∉ f.description) →
        ∀ row ∈ top :: rows, .char '\n' ∉ row) := by
  obtain ⟨first, second, third, table, top, rows, htable, hseen, htop, hrows⟩ :=
    findingTable_shows color hfound hnamed
  obtain ⟨rest, hreport⟩ := exists_analysisReport_eq hfound hcycles htable
  refine ⟨first, second, third, table, top, rows, rest, hreport, hseen, htop, hrows,
    aligned_iff hfound htop hrows, fun hids hdescriptions => List.forall_mem_cons.mpr ⟨?_, ?_⟩⟩
  · exact htop.not_mem (by decide) (by decide)
  · refine not_feed_rows hrows fun f hf => ⟨?_, hids f hf⟩
    rcases hdescriptions with ⟨m, limits, rfl⟩ | hdescriptions
    · exact not_feed_description_of_mem_detect hf
    · exact hdescriptions f hf

/-- A cycle and an isolated element stand aligned in a report that is not coloured. -/
theorem analysisReport_shows_table_of_cycle :
    let a : Analysis := .ofFindings [.ofCycle ["A", "B"], .ofIsolated "C"]
    let cycles : Option (List (List Text)) := some [["A", "B"]]
    (a.findings ≠ [] ∧ (∀ f ∈ a.findings, f.elements ≠ []) ∧ ∀ c ∈ cycles.getD [], c ≠ []) ∧
      ∃ table top rows rest,
        analysisReport false a cycles = .ok (heading false "Anti-Patterns" ++ table ++ rest) ∧
        table.uncoloured = lines (top :: rule '-' top.length :: rows) ∧
        Aligned a.findings top rows := by
  intro a cycles
  have hfound : a.findings ≠ [] := List.cons_ne_nil _ _
  have hnamed : ∀ f ∈ a.findings, f.elements ≠ [] := by decide
  have hcycles : ∀ c ∈ cycles.getD [], c ≠ [] := by decide
  obtain ⟨-, -, -, table, top, rows, rest, hreport, hseen, -, -, haligned, -⟩ :=
    analysisReport_shows_table false hfound hnamed hcycles
  have hplain : ∀ f ∈ a.findings, (subject f).unseen = 0 := by decide
  exact ⟨⟨hfound, hnamed, hcycles⟩, table, top, rows, rest, hreport, hseen,
    haligned.mpr ⟨rfl, hplain⟩⟩

/-- The third separator stands nine symbols further left in the row of a coloured report than in its
heading. -/
theorem coloured_report_not_aligned :
    let a : Analysis := .ofFindings [.ofIsolated "A"]
    let top : Text := "Type              | Nodes | Severity      | Description                       "
    let row : Text := "IsolatedComponent | A     | 0.30 | No connections to other components"
    ∃ table rest,
      analysisReport true a none = .ok (heading true "Anti-Patterns" ++ table ++ rest) ∧
      table.uncoloured = lines [top, rule '-' top.length, row] ∧
      ¬Aligned a.findings top [row] := by
  intro a top row
  let before : Text := "IsolatedComponent | A     | "
  let behind : Text := " | No connections to other components"
  let table := lines [inked true top [.bold], rule '-' top.length,
    before ++ (inked true "0.30" [.cyan] ++ behind)]
  have htable : findingTable true a.findings = .ok table := by decide +kernel
  obtain ⟨rest, hreport⟩ : ∃ rest, analysisReport true a none =
      .ok (heading true "Anti-Patterns" ++ table ++ rest) :=
    exists_analysisReport_eq (List.cons_ne_nil _ _) nofun htable
  have hrow : (before ++ (inked true "0.30" [.cyan] ++ behind)).uncoloured = row := by
    rw [Text.uncoloured_append_of_not_mem (by decide), Text.uncoloured_append (by decide),
      uncoloured_inked (by decide), Text.uncoloured_of_not_mem (by decide)]
    rfl
  have hseen : table.uncoloured = lines [top, rule '-' top.length, row] := by
    rw [uncoloured_lines, List.map_cons, List.map_cons, List.map_cons, hrow,
      uncoloured_inked (by decide), Text.uncoloured_of_not_mem (by decide), List.map_nil]
  refine ⟨table, rest, hreport, hseen, ?_⟩
  have hfirst : Columns [17, 25, 41] titles top :=
    .cons "Type" 13 (.cons "Nodes" 0 (.cons "Severity" 5 (.last "Description" 23)))
  have hcells : seenCells (.ofIsolated "A") =
      ["IsolatedComponent", "A", "0.30", "No connections to other components"] := by decide +kernel
  have hsecond : Columns [17, 25, 32] (seenCells (.ofIsolated "A")) row := by
    rw [hcells]
    exact .cons "IsolatedComponent" 0 (.cons "A" 4 (.cons "0.30" 0
      (.last "No connections to other components" 0)))
  rintro ⟨offsets, htop, hrows⟩
  obtain rfl := htop.unique hfirst
  cases hrows with
  | cons hrow _ => cases hrow.unique hsecond

end Console

end Landscape
