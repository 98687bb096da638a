import Landscape.Proofs.Cycle.Listing
import Landscape.Proofs.Detection.Severities
import Landscape.Proofs.Interchange.Legibility
import Landscape.Proofs.Export.Spelling
import Landscape.Proofs.Json.Spelling
import Landscape.Report

/-!
# Legible reports

A report says what its model says and what was found out about it: ids, numbers and words of its
own. Where the model can be read back, so can the report, as long as its integers can be.
-/

namespace Landscape

open Number

namespace Json

/-- A value that can be read back but perhaps for its integers. -/
inductive Clear : Json → Prop
  | null : Clear .null
  | bool (b : Bool) : Clear (.bool b)
  | int (n : Int) : Clear (.int n)
  | float (x : Float) : Clear (.float x)
  | text {t : Text} (ht : IsJoined t) : Clear (.text t)
  | list {xs : List Json} (hxs : ∀ x ∈ xs, Clear x) : Clear (.list xs)
  | record {fs : List (Text × Json)} (hkeys : (Entries.keys fs).Nodup)
      (hnames : ∀ f ∈ fs, IsJoined f.1) (hfs : ∀ f ∈ fs, Clear f.2) : Clear (.record fs)

/-- A clear value is legible if its integers are short. -/
theorem Clear.legible {d : Json} (h : d.Clear)
    (hintegers : ∀ n ∈ d.integers, n.natAbs < 10 ^ maxDigits) : d.Legible := by
  induction h with
  | null => exact .scalar (s := .null) trivial
  | bool b => exact .scalar (s := .bool b) trivial
  | int n => exact .scalar (s := .int n) (hintegers n (by simp [integers]))
  | float x => exact .scalar (s := .float x) trivial
  | @text t ht => exact .scalar (s := .text t) ht
  | @list xs _ ih =>
    refine .list fun x hx => ih x hx fun n hn => hintegers n ?_
    rw [integers]
    exact mem_integersOfItems.mpr ⟨x, hx, hn⟩
  | @record fs hkeys hnames _ ih =>
    refine .record hkeys hnames fun f hf => ih f hf fun n hn => hintegers n ?_
    rw [integers]
    exact mem_integersOfFields.mpr ⟨f, hf, hn⟩

/-- A legible value is clear. -/
theorem Legible.clear {d : Json} (h : d.Legible) : d.Clear := by
  induction h with
  | @scalar s hs =>
    cases s with
    | null => exact .null
    | bool b => exact .bool b
    | int n => exact .int n
    | float x => exact .float x
    | text t => exact .text hs
  | list _ ih => exact .list ih
  | record hkeys hnames _ ih => exact .record hkeys hnames ih

/-- Fields with clear values whose names are some strings, perhaps not all of them, in order. -/
structure FieldsClear (names : List String) (fs : List (Text × Json)) : Prop where
  keys : (Entries.keys fs).Sublist (names.map Text.ofString)
  values : ∀ f ∈ fs, f.2.Clear

/-- There may be no fields. -/
theorem FieldsClear.nil : FieldsClear [] [] := ⟨.refl _, List.forall_mem_nil _⟩

/-- There may be one more field. -/
theorem FieldsClear.cons {name : String} {names : List String} {d : Json}
    {fs : List (Text × Json)} (hd : d.Clear) (hfs : FieldsClear names fs) :
    FieldsClear (name :: names) ((Text.ofString name, d) :: fs) :=
  ⟨hfs.keys.cons_cons _, List.forall_mem_cons.mpr ⟨hd, hfs.values⟩⟩

/-- A field that may be left out. -/
theorem FieldsClear.fieldOf {name : String} {value : Option Json} (hvalue : ∀ d ∈ value, d.Clear) :
    FieldsClear [name] (Json.fieldOf (Text.ofString name) value) :=
  ⟨keys_fieldOf _ _, fun _ hf => hvalue _ (mem_fieldOf.mp hf).2⟩

/-- Fields may be followed by others. -/
theorem FieldsClear.append {names names' : List String} {fs gs : List (Text × Json)}
    (hfs : FieldsClear names fs) (hgs : FieldsClear names' gs) :
    FieldsClear (names ++ names') (fs ++ gs) := by
  refine ⟨?_, fun f hf => (List.mem_append.mp hf).elim (hfs.values f) (hgs.values f)⟩
  rw [Entries.keys, List.map_append, List.map_append]
  exact hfs.keys.append hgs.keys

/-- A record is clear whose fields are clear and have names of their own. -/
theorem FieldsClear.record {names : List String} {fs : List (Text × Json)}
    (h : FieldsClear names fs) (hnames : names.Nodup) : (Json.record fs).Clear := by
  refine .record ?_ (fun f hf => ?_) h.values
  · exact (hnames.map fun _ _ => Text.ofString_inj.mp).sublist h.keys
  · obtain ⟨name, -, hname⟩ := List.mem_map.mp (h.keys.subset (List.mem_map_of_mem hf))
    rw [← hname]
    exact isJoined_ofString name

/-- What a printed legible value is followed by is left over. -/
theorem value_print {d : Json} (h : d.Legible) (layout : Layout) {allowed : Nat}
    (hallowed : d.nesting ≤ allowed) {rest : List Char} (hrest : Delimited rest) :
    value (2 * (print layout d).toList.length) allowed ((print layout d).toList ++ rest) =
      .ok (d, rest) := by
  rcases h.answers layout allowed 0 _ hrest (Nat.le_succ _) with ⟨-, hread⟩ | ⟨hlt, -⟩
  · exact hread
  · exact absurd hallowed (Nat.not_le.mpr hlt)

/-- Texts that can be read back make a clear list. -/
theorem clear_texts {ts : List Text} (h : ∀ t ∈ ts, IsJoined t) :
    (Json.list (ts.map .text)).Clear :=
  .list (List.forall_mem_map.mpr fun t ht => .text (h t ht))

end Json

variable {m : Model} {levels : Nat} {limits : Limits}

/-- What is written for a model is clear if its values and texts can be read back. -/
theorem Model.clear_toJson (hlevels : 1 ≤ levels) (helements : ∀ e ∈ m.elements, e.Fits levels)
    (hrelations : ∀ r ∈ m.relations, r.Fits levels) : m.toJson.Clear := by
  have hnodes : (Json.list (m.elements.map Element.toJson)).Clear :=
    .list (List.forall_mem_map.mpr fun e he => ((helements e he).toJson hlevels).legible.clear)
  have hedges : (Json.list (m.relations.map Relation.toJson)).Clear :=
    .list (List.forall_mem_map.mpr fun r hr => (hrelations r hr).toJson.legible.clear)
  exact Json.FieldsClear.record (.cons hnodes (.cons hedges (.cons (.int _) (.cons (.int _) .nil))))
    (by decide)

/-- What is written for a configuration is clear. -/
theorem Thresholds.clear_toJson (t : Thresholds) : t.toJson.Clear :=
  Json.FieldsClear.record (.cons (.int _) (.cons (.int _) (.cons (.bool _) .nil))) (by decide)

/-- What is written for a layout is clear. -/
theorem Layout.Outcome.clear_toJson (o : Layout.Outcome) : o.toJson.Clear :=
  Json.FieldsClear.record
    (.cons (.int _) (.cons (.float _) (.cons (.float _) (.cons (.int _) (.cons (.int _) .nil)))))
    (by decide)

/-- What is written for the quality of a layout is clear. -/
theorem Layout.Quality.clear_toJson (q : Layout.Quality) : q.toJson.Clear :=
  Json.FieldsClear.record (.cons (.text (Json.isJoined_ofString _))
    (.cons (.int _) (.cons (.float _) (.cons (.float _) .nil)))) (by decide)

/-- What is written for a summary of findings is clear. -/
theorem clear_toJson_summarize (findings : List Finding) : (summarize findings).toJson.Clear := by
  have hnames : (Smell.all.map Smell.name).Nodup := by decide
  have hsmells : (Json.record ((summarize findings).bySmell.map fun p : Smell × Nat =>
      ((p.1.name : Text), Json.int p.2))).Clear :=
    Json.FieldsClear.record (.cons (.int _) (.cons (.int _) (.cons (.int _) (.cons (.int _) .nil))))
      hnames
  exact Json.FieldsClear.record
    (.cons (.int _) (.cons hsmells (.cons (.int _) (.cons (.float _) .nil)))) (by decide)

/-- A finding whose texts can be read back. -/
structure Finding.IsJoined (f : Finding) : Prop where
  elements : ∀ id ∈ f.elements, Json.IsJoined id
  description : Json.IsJoined f.description
  recommendation : Json.IsJoined f.recommendation

namespace Finding

variable {f : Finding}

/-- What is written for a finding is clear if its texts can be read back. -/
theorem IsJoined.clear {d : Json} (hf : f.IsJoined) (h : f.toJson = .ok d) : d.Clear := by
  have hkind : Json.FieldsClear ["type"] [("type", .text f.smell.name)] :=
    .cons (.text (Json.isJoined_ofString _)) .nil
  have hdegree (name : String) :
      Json.FieldsClear [name] [(Text.ofString name, (f.degree.map Json.int).getD .null)] := by
    refine .cons ?_ .nil
    cases f.degree with
    | none => exact .null
    | some n => exact .int n
  have haccount : Json.FieldsClear ["severity", "description"]
      [("severity", .float f.severity.toFloat), ("description", .text f.description)] :=
    .cons (.float _) (.cons (.text hf.description) .nil)
  have hadvice : Json.FieldsClear ["recommendation"] (Json.fieldOf "recommendation"
      (if f.recommendation.isEmpty then none else some (.text f.recommendation))) := by
    refine .fieldOf fun d hd => ?_
    obtain ⟨-, rfl⟩ : _ ∧ Json.text f.recommendation = d := by simpa using hd
    exact .text hf.recommendation
  have hnode {id : Text} (hid : f.element = .ok id) :
      Json.FieldsClear ["node_id"] [("node_id", .text id)] := by
    refine .cons (.text (hf.elements id ?_)) .nil
    unfold element at hid
    split at hid
    next heq =>
      obtain rfl := Except.ok.inj hid
      rw [heq]
      exact List.mem_cons_self
    · cases hid
  unfold toJson at h
  -- a smell decides which fields stand between the kind and the account
  cases hsmell : f.smell with
  | cycle =>
    simp only [hsmell] at h hkind
    obtain rfl := Except.ok.inj h
    have hnodes : Json.FieldsClear ["nodes"] [("nodes", .list (f.elements.map .text))] :=
      .cons (Json.clear_texts hf.elements) .nil
    exact ((((hkind.append hnodes).append .nil).append haccount).append hadvice).record (by decide)
  | bottleneck =>
    simp only [hsmell] at h hkind
    obtain ⟨id, hid, h⟩ := bind_eq_ok_iff.mp h
    obtain rfl := Except.ok.inj h
    exact ((((hkind.append (hnode hid)).append (hdegree _)).append haccount).append
      hadvice).record (by decide)
  | overCoupling =>
    simp only [hsmell] at h hkind
    obtain ⟨id, hid, h⟩ := bind_eq_ok_iff.mp h
    obtain rfl := Except.ok.inj h
    exact ((((hkind.append (hnode hid)).append (hdegree _)).append haccount).append
      hadvice).record (by decide)
  | isolated =>
    simp only [hsmell] at h hkind
    obtain ⟨id, hid, h⟩ := bind_eq_ok_iff.mp h
    obtain rfl := Except.ok.inj h
    exact ((((hkind.append (hnode hid)).append .nil).append haccount).append
      hadvice).record (by decide)

end Finding

namespace Model

/-- The ids of a cycle can be read back if those can that relations name. -/
theorem IsCycle.isJoined (hrelations : ∀ r ∈ m.relations, r.Fits levels) {ids : List Text}
    (h : m.IsCycle ids) : ∀ id ∈ ids, Json.IsJoined id := by
  intro id hid
  obtain ⟨_, r, hr, rfl, -⟩ := h.exists_leads hid
  exact (hrelations r hr).source

/-- What is found in a model can be read back if the model can. -/
theorem isJoined_of_mem_detect (helements : ∀ e ∈ m.elements, e.Fits levels)
    (hrelations : ∀ r ∈ m.relations, r.Fits levels) {f : Finding} (h : f ∈ m.detect limits) :
    f.IsJoined := by
  have hadvice (smell : Smell) : Json.IsJoined smell.recommendation := Json.isJoined_ofString _
  have hwords (s t u : String) : Json.IsJoined ((s : Text) ++ (t : Text) ++ (u : Text)) := by
    rw [← Text.ofString_append, ← Text.ofString_append]
    exact Json.isJoined_ofString _
  have hone {e : Element} (he : e ∈ m.elements) : ∀ id ∈ [e.id], Json.IsJoined id := by
    simpa using (helements e he).id
  rcases mem_detect_iff.mp h with ⟨cycle, hcycle, rfl⟩ | ⟨e, he, hf | hf | hf⟩
  · have hids := (isCycle_of_findCycle hcycle).1.isJoined hrelations
    exact ⟨hids, hwords _ _ _, by simpa only [Finding.ofCycle] using hadvice .cycle⟩
  · obtain ⟨q, -, rfl⟩ := mem_fanInFindings_iff.mp hf
    exact ⟨hone he, hwords _ _ _, by simpa only [Finding.ofFanIn] using hadvice .bottleneck⟩
  · obtain ⟨q, -, rfl⟩ := mem_fanOutFindings_iff.mp hf
    exact ⟨hone he, hwords _ _ _, by simpa only [Finding.ofFanOut] using hadvice .overCoupling⟩
  · obtain ⟨-, rfl⟩ := mem_isolationFindings_iff.mp hf
    exact ⟨hone he, Json.isJoined_ofString _,
      by simpa only [Finding.ofIsolated] using hadvice .isolated⟩

/-- What is written for the analysis of a model is clear if the model can be read back. -/
theorem clear_toJson_analyze (helements : ∀ e ∈ m.elements, e.Fits levels)
    (hrelations : ∀ r ∈ m.relations, r.Fits levels) {d : Json}
    (h : (m.analyze limits).toJson = .ok d) : d.Clear := by
  unfold Analysis.toJson at h
  obtain ⟨written, hwritten, h⟩ := bind_eq_ok_iff.mp h
  obtain rfl := Except.ok.inj h
  have hfindings : (Json.list written).Clear := by
    refine .list fun x hx => ?_
    obtain ⟨f, hf, hread⟩ := exists_of_mapM_eq_ok hwritten hx
    exact (isJoined_of_mem_detect helements hrelations hf).clear hread
  have hadvice : (Json.list ((m.analyze limits).recommendations.map
      fun (r : String) => Json.text r)).Clear :=
    .list (List.forall_mem_map.mpr fun r _ => .text (Json.isJoined_ofString r))
  exact Json.FieldsClear.record (.cons hfindings (.cons (.int _)
    (.cons (clear_toJson_summarize _) (.cons hadvice .nil)))) (by decide)

end Model

/-- What is written for a report on a model is clear if the model can be read back. -/
theorem Report.clear_toJson {r : Report} (hlevels : 1 ≤ levels)
    (helements : ∀ e ∈ r.model.elements, e.Fits levels)
    (hrelations : ∀ s ∈ r.model.relations, s.Fits levels)
    (hanalysis : r.analysis = r.model.analyze limits)
    (hcycles : ∀ cycles ∈ r.cycles, cycles = r.model.cycles) {d : Json}
    (h : r.toJson = .ok d) : d.Clear := by
  unfold toJson at h
  obtain ⟨analysis, hwritten, h⟩ := bind_eq_ok_iff.mp h
  obtain rfl := Except.ok.inj h
  rw [hanalysis] at hwritten
  have hlayout : Json.Clear ((r.layout.map fun p : Layout.Outcome × Layout.Quality =>
      p.1.toJson).getD .null) := by
    cases r.layout with
    | none => exact .null
    | some layout => exact layout.1.clear_toJson
  have hquality : Json.Clear ((r.layout.map fun p : Layout.Outcome × Layout.Quality =>
      p.2.toJson).getD .null) := by
    cases r.layout with
    | none => exact .null
    | some layout => exact layout.2.clear_toJson
  have hlisted : ∀ d ∈ r.cycles.map fun cycles =>
      Json.list (cycles.map fun c => .list (c.map .text)), d.Clear := by
    intro d hd
    obtain ⟨cycles, hmem, rfl⟩ := Option.map_eq_some_iff.mp hd
    refine .list (List.forall_mem_map.mpr fun c hc => Json.clear_texts ?_)
    rw [hcycles cycles hmem] at hc
    exact (Model.isCycle_of_mem_cycles hc).isJoined hrelations
  have hmodel := Model.clear_toJson hlevels helements hrelations
  have hfound := Model.clear_toJson_analyze helements hrelations hwritten
  exact Json.FieldsClear.record (.append (.cons hmodel (.cons r.thresholds.clear_toJson
    (.cons hlayout (.cons hquality (.cons hfound .nil))))) (.fieldOf hlisted)) (by decide)

end Landscape
