import Landscape.Proofs.Detection.Severities
import Landscape.Proofs.Export.Graph
import Mathlib.Data.List.Forall2

/-!
# The colours of a graph tell what was found

The fill of a node tells whether something critical was found about its element, and else whether
the element is isolated; its outline tells of isolation alone. An edge is red and thick where both
its ends are on the cycle that was found. This is said of the statements of a graph as they are
read, up to the comments behind them.
-/

namespace Landscape.Dot

/-- The value of an attribute of a node or of an edge. -/
def Statement.attribute? (name : Text) : Statement → Option Text
  | .node _ attributes | .edge _ _ attributes => attributes.lookup name
  | .setting _ _ | .defaults _ _ => none

/-- A statement has an attribute of a value. -/
def Statement.Shows (s : Statement) (name value : Text) : Prop := s.attribute? name = some value

/-- A statement that is drawn red and thick. -/
def Statement.IsRed (s : Statement) : Prop := s.Shows "color" "#ff0000" ∧ s.Shows "penwidth" "3"

/-- What the node of an element tells: its fill is critical for a grave element, else medium for a
lone one, else healthy, and its outline is dashed for a lone one. -/
structure NodeTells (m : Model) (limits : Limits) (e : Element) (s : Statement) : Prop where
  isNode : s.node? = some (e.id, some e.name)
  critical : s.Shows "fillcolor" "#ff4444" ↔ m.IsGrave limits e.id
  medium : s.Shows "fillcolor" "#ffcc44" ↔ ¬m.IsGrave limits e.id ∧ m.IsLone limits e.id
  healthy : s.Shows "fillcolor" "#aaddaa" ↔ ¬m.IsGrave limits e.id ∧ ¬m.IsLone limits e.id
  dashed : s.Shows "style" "filled,dashed" ↔ m.IsLone limits e.id
  solid : s.Shows "style" "filled" ↔ ¬m.IsLone limits e.id

/-- What the edge of a relation tells: its ends, and what its label says if this can be spelled; it is
red where both its ends are on the reported cycle, and else it has no colour of its own. -/
structure EdgeTells (m : Model) (limits : Limits) (r : Relation) (s : Statement) : Prop where
  isEdge : ∃ label, s.edge? = some (r.source, r.target, some label) ∧
    ∀ t, LabelSays r.label t → label = t
  red : s.IsRed ↔ m.InReportedCycle limits r.source ∧ m.InReportedCycle limits r.target
  plain : (∀ color, ¬s.Shows "color" color) ↔
    ¬(m.InReportedCycle limits r.source ∧ m.InReportedCycle limits r.target)

/-- One id comes next after another one around a cycle, the first after the last. -/
def ComesNext (ids : List Text) (a b : Text) : Prop :=
  [a, b] <:+: ids ∨ ids.getLast? = some a ∧ ids.head? = some b

variable {m : Model} {limits : Limits} {findings : List Finding} {e : Element} {r : Relation}
  {a b id : Text}

/-- The elements of findings that concern one element each. -/
theorem mapM_element (h : ∀ f ∈ findings, ∃ id, f.elements = [id]) :
    findings.mapM (·.element) = .ok (findings.flatMap (·.elements)) := by
  induction findings with
  | nil => rfl
  | cons f findings ih =>
    rw [List.forall_mem_cons] at h
    obtain ⟨⟨id, hid⟩, hrest⟩ := h
    have helement : f.element = .ok id := by rw [Finding.element, hid]
    rw [List.mapM_cons, helement, ok_bind, ih hrest, ok_bind, List.flatMap_cons, hid]
    rfl

/-- A relation leads from each id of a cycle to the one that comes next. -/
theorem leads_of_comesNext {ids : List Text} (hcycle : m.IsCycle ids) (h : ComesNext ids a b) :
    m.Leads a b := by
  obtain ⟨hne, -, hchain, hcloses⟩ := hcycle
  rcases h with hpair | ⟨hlast, hhead⟩
  · have hstep := List.IsChain.infix hchain hpair
    exact List.isChain_pair.mp hstep
  · rw [List.getLast?_eq_some_getLast hne] at hlast
    rw [List.head?_eq_some_head hne] at hhead
    rwa [Option.some.inj hlast, Option.some.inj hhead] at hcloses

/-- The ids of a cycle that come before or after another one are on it. -/
theorem mem_of_comesNext {ids : List Text} (h : ComesNext ids a b) : a ∈ ids ∧ b ∈ ids := by
  rcases h with hpair | ⟨hlast, hhead⟩
  · exact ⟨hpair.subset (by simp), hpair.subset (by simp)⟩
  · exact ⟨List.mem_of_getLast? hlast, List.mem_of_head? hhead⟩

/-- The marks of what a detection finds. -/
def marksOf (m : Model) (limits : Limits) : Marks where
  severities := severities (m.detect limits)
  cycle := cycleElements (m.detect limits)
  isolated := ((m.detect limits).filter (·.smell = .isolated)).flatMap (·.elements)

theorem ofFindings_detect (m : Model) (limits : Limits) :
    Marks.ofFindings (m.detect limits) = .ok (marksOf m limits) := by
  have hisolated : isolatedElements (m.detect limits) = .ok (marksOf m limits).isolated := by
    refine mapM_element fun f hf => ?_
    obtain ⟨hmem, hsmell⟩ := List.mem_filter.mp hf
    have hfound : f ∈ found m (some limits) := hmem
    exact (mem_found hfound).resolve_left (by simp [of_decide_eq_true hsmell])
  rw [Marks.ofFindings, hisolated]
  rfl

/-- The marked ids of the cycle are those of the reported cycle. -/
theorem contains_cycle_iff :
    (marksOf m limits).cycle.contains id = true ↔ m.InReportedCycle limits id := by
  simp [marksOf, cycleElements, Model.InReportedCycle, and_assoc]

/-- The marked isolated elements are the lone ones. -/
theorem contains_isolated_iff (he : e ∈ m.elements) :
    (marksOf m limits).isolated.contains e.id = true ↔ m.IsLone limits e.id := by
  simp only [marksOf, List.contains_iff_mem, List.mem_flatMap, List.mem_filter, decide_eq_true_eq]
  constructor
  · rintro ⟨f, ⟨hf, hsmell⟩, hid⟩
    rcases Model.mem_detect_iff.mp hf with ⟨cycle, -, rfl⟩ | ⟨e', -, h | h | h⟩
    · cases hsmell
    · obtain ⟨q, -, rfl⟩ := Model.mem_fanInFindings_iff.mp h
      cases hsmell
    · obtain ⟨q, -, rfl⟩ := Model.mem_fanOutFindings_iff.mp h
      cases hsmell
    · obtain ⟨⟨hon, hdegrees⟩, rfl⟩ := Model.mem_isolationFindings_iff.mp h
      obtain heq := List.mem_singleton.mp hid
      rw [heq]
      exact ⟨hon, Model.fanIn_fanOut_eq_zero_iff.mp hdegrees⟩
  · intro hlone
    exact ⟨_, ⟨Model.mem_detect_of_isLone he hlone, rfl⟩, List.mem_singleton_self _⟩

/-- The outline of an element tells whether it is lone. -/
theorem shows_style_iff (he : e ∈ m.elements) :
    ((elementStatement (marksOf m limits) e).Shows "style" "filled,dashed" ↔
      m.IsLone limits e.id) ∧
    ((elementStatement (marksOf m limits) e).Shows "style" "filled" ↔ ¬m.IsLone limits e.id) := by
  have hstyle : (elementStatement (marksOf m limits) e).attribute? "style" =
      some (Text.ofString
        (if (marksOf m limits).isolated.contains e.id then "filled,dashed" else "filled")) := rfl
  rw [Statement.Shows, Statement.Shows, hstyle, ← contains_isolated_iff he]
  cases (marksOf m limits).isolated.contains e.id with
  | true => exact ⟨iff_of_true rfl rfl, iff_of_false (by decide) (by decide)⟩
  | false => exact ⟨iff_of_false (by decide) (by decide), iff_of_true rfl (by decide)⟩

/-- The node of an element tells what was found about it. -/
theorem nodeTells (he : e ∈ m.elements) :
    NodeTells m limits e (elementStatement (marksOf m limits) e) := by
  obtain ⟨hcritical, hmedium, hhealthy⟩ := @Model.level_severityOf m limits e he
  obtain ⟨hdashed, hsolid⟩ := @shows_style_iff m limits e he
  have hfill : (elementStatement (marksOf m limits) e).attribute? "fillcolor" =
      some (Text.ofString (severityOf (severities (m.detect limits)) e.id).level.color) := rfl
  -- Of the five bands three occur, one in each case.
  by_cases hgrave : m.IsGrave limits e.id
  · rw [hcritical hgrave] at hfill
    refine ⟨rfl, ?_, ?_, ?_, hdashed, hsolid⟩
    · exact iff_of_true hfill hgrave
    · exact iff_of_false (by rw [Statement.Shows, hfill]; decide) fun h => h.1 hgrave
    · exact iff_of_false (by rw [Statement.Shows, hfill]; decide) fun h => h.1 hgrave
  by_cases hlone : m.IsLone limits e.id
  · rw [hmedium hgrave hlone] at hfill
    refine ⟨rfl, ?_, ?_, ?_, hdashed, hsolid⟩
    · exact iff_of_false (by rw [Statement.Shows, hfill]; decide) hgrave
    · exact iff_of_true hfill ⟨hgrave, hlone⟩
    · exact iff_of_false (by rw [Statement.Shows, hfill]; decide) fun h => h.2 hlone
  · rw [hhealthy hgrave hlone] at hfill
    refine ⟨rfl, ?_, ?_, ?_, hdashed, hsolid⟩
    · exact iff_of_false (by rw [Statement.Shows, hfill]; decide) hgrave
    · exact iff_of_false (by rw [Statement.Shows, hfill]; decide) fun h => hlone h.2
    · exact iff_of_true hfill ⟨hgrave, hlone⟩

/-- The edge of a relation tells whether both its ends are on the reported cycle. -/
theorem edgeTells (m : Model) (limits : Limits) (r : Relation) :
    EdgeTells m limits r (relationStatement (marksOf m limits) r) := by
  have hboth : ((marksOf m limits).cycle.contains r.source &&
      (marksOf m limits).cycle.contains r.target) = true ↔
      m.InReportedCycle limits r.source ∧ m.InReportedCycle limits r.target := by
    rw [Bool.and_eq_true, contains_cycle_iff, contains_cycle_iff]
  by_cases hcycle : m.InReportedCycle limits r.source ∧ m.InReportedCycle limits r.target
  · have hstatement : relationStatement (marksOf m limits) r =
        .edge r.source r.target (("label", labelText r) ::
          [("penwidth", "3"), ("color", Palette.cycle)]) := by
      rw [relationStatement, if_pos (hboth.mpr hcycle)]
    rw [hstatement]
    refine ⟨⟨_, rfl, fun _ h => h.labelText_eq⟩, iff_of_true ⟨rfl, rfl⟩ hcycle,
      iff_of_false ?_ (not_not_intro hcycle)⟩
    exact fun hnone => hnone Palette.cycle rfl
  · have hstatement : relationStatement (marksOf m limits) r =
        .edge r.source r.target (("label", labelText r) ::
          [("penwidth", Number.general (penWidth r.weight))]) := by
      rw [relationStatement, if_neg (mt hboth.mp hcycle)]
    have hplain : ∀ color, ¬(relationStatement (marksOf m limits) r).Shows "color" color := by
      rw [hstatement]
      exact fun color h => nomatch (h : (none : Option Text) = some color)
    exact ⟨⟨_, by rw [hstatement]; rfl, fun _ h => h.labelText_eq⟩,
      iff_of_false (fun hred => hplain _ hred.1) hcycle, iff_of_true hplain hcycle⟩

/-- Each step around a reported cycle has a red edge. -/
theorem exists_isRed_of_comesNext {f : Finding} (hf : f ∈ m.detect limits)
    (hsmell : f.smell = .cycle) (h : ComesNext f.elements a b) :
    ∃ s ∈ m.relations.map (relationStatement (marksOf m limits)),
      (∃ label, s.edge? = some (a, b, label)) ∧ s.IsRed := by
  obtain ⟨cycle, hcycle, rfl⟩ := Model.mem_detect_cycle_iff.mp ⟨hf, hsmell⟩
  obtain ⟨r, hr, rfl, rfl⟩ := leads_of_comesNext (Model.isCycle_of_findCycle hcycle).1 h
  obtain ⟨hsource, htarget⟩ := mem_of_comesNext h
  have htells := edgeTells m limits r
  obtain ⟨label, hedge, -⟩ := htells.isEdge
  exact ⟨_, List.mem_map_of_mem hr, ⟨some label, hedge⟩,
    htells.red.mpr ⟨⟨_, hf, hsmell, hsource⟩, ⟨_, hf, hsmell, htarget⟩⟩⟩

/-- What a finding says in a comment, if it is of a cycle or concerns one element. -/
theorem exists_findingText {f : Finding} (h : f.smell = .cycle ∨ ∃ id, f.elements = [id]) :
    ∃ t, findingText f = .ok t := by
  unfold findingText
  cases hsmell : f.smell with
  | cycle => exact ⟨_, rfl⟩
  | bottleneck =>
    obtain ⟨id, hid⟩ := h.resolve_left (by simp [hsmell])
    exact ⟨_, by rw [Finding.element, hid]; rfl⟩
  | overCoupling =>
    obtain ⟨id, hid⟩ := h.resolve_left (by simp [hsmell])
    exact ⟨_, by rw [Finding.element, hid]; rfl⟩
  | isolated =>
    obtain ⟨id, hid⟩ := h.resolve_left (by simp [hsmell])
    exact ⟨_, by rw [Finding.element, hid]; rfl⟩

/-- The lines behind the statements are begun as comments. -/
theorem exists_findingLines (m : Model) (limits : Limits) :
    ∃ lines, findingLines (m.detect limits) = .ok lines ∧
      ∀ line ∈ lines, line = [] ∨ ("  // " : Text) <+: line := by
  have htext (f : Finding) (hf : f ∈ m.detect limits) : ∃ t, findingText f = .ok t ∧ True := by
    have hfound : f ∈ found m (some limits) := hf
    obtain ⟨t, ht⟩ := exists_findingText (mem_found hfound)
    exact ⟨t, ht, trivial⟩
  obtain ⟨texts, htexts, -⟩ := mapM_eq_ok htext
  unfold findingLines
  split
  · exact ⟨[], rfl, fun _ h => nomatch h⟩
  · refine ⟨_, by rw [htexts]; rfl, ?_⟩
    simp only [List.forall_mem_cons, List.forall_mem_map]
    refine ⟨.inl trivial, .inr ?_, fun t _ => .inr (List.prefix_append _ _)⟩
    exact ⟨"Anti-patterns detected:", by decide⟩

/--
The colours of a graph tell what was found in its model. Of the statements, one for each element
tells of the element and one for each relation tells of the relation. Each step around a reported
cycle, also that from its last element to its first, has a red edge, and without a reported cycle no
edge is red.

The statements are read from the text up to the comments behind them, and from the whole text where
each of these keeps to its line. The text is written where all labels of the model say something.
-/
theorem colours_tell_findings (m : Model) (limits : Limits) :
    ∃ body comments nodes edges,
      ofModel m (m.detect limits) = .ok (body ++ (unlines comments ++ (closing ++ ("\n" : Text)))) ∧
      ((∀ r ∈ m.relations, ∃ label, LabelSays r.label label) →
        render m (m.detect limits) = ofModel m (m.detect limits)) ∧
      (∀ line ∈ comments, line = [] ∨ ("  // " : Text) <+: line) ∧
      (∀ behind, (behind = [] ∨ behind = unlines comments ∧ ∀ f ∈ m.detect limits, KeepsToLine f) →
        Graph.read (body ++ (behind ++ (closing ++ ("\n" : Text)))) = some
          { directed := true, name := "Architecture", statements := preamble ++ nodes ++ edges }) ∧
      List.Forall₂ (NodeTells m limits) m.elements nodes ∧
      List.Forall₂ (EdgeTells m limits) m.relations edges ∧
      (∀ f ∈ m.detect limits, f.smell = .cycle → ∀ a b, ComesNext f.elements a b →
        ∃ s ∈ edges, (∃ label, s.edge? = some (a, b, label)) ∧ s.IsRed) ∧
      ((∀ f ∈ m.detect limits, f.smell ≠ .cycle) → ∀ s ∈ edges, ¬s.IsRed) := by
  obtain ⟨comments, hcomments, hbegun⟩ := exists_findingLines m limits
  have helements := writesIn_flatMap fun e (_ : e ∈ m.elements) =>
    writes_elementLines (marksOf m limits) e
  have hrelations := writesIn_flatMap fun r (_ : r ∈ m.relations) =>
    writes_relationLine (marksOf m limits) r
  rw [← List.map_eq_flatMap] at helements hrelations
  have hblank : Writes (unlines [[]]) [] := ⟨[], by decide, means_nil true⟩
  have hbody := writes_preamble.append (helements.append (hblank.append hrelations))
  refine ⟨"digraph Architecture \x7b\n" ++ (unlines preambleLines ++
      ((m.elements.flatMap fun e => unlines (elementLines (marksOf m limits) e)) ++
        (unlines [[]] ++
          m.relations.flatMap fun r => relationLine (marksOf m limits) r ++ ("\n" : Text)))),
    comments, m.elements.map (elementStatement (marksOf m limits)),
    m.relations.map (relationStatement (marksOf m limits)), ?_,
    render_eq_ofModel (ofFindings_detect m limits), hbegun, ?_, ?_, ?_, ?_, ?_⟩
  · rw [ofModel_eq_ok m (ofFindings_detect m limits) hcomments]
    simp only [List.append_assoc]
  · intro behind hbehind
    have hsilent : Writes behind [] := by
      rcases hbehind with rfl | ⟨rfl, hkeeps⟩
      · exact writesIn_nil true
      · obtain ⟨lines, hlines, hwrites⟩ := findingLines_eq_ok hkeeps
        rwa [Except.ok.inj (hcomments.symm.trans hlines)]
    have hread := read_of_writes (hbody.append hsilent)
      (by decide : Lexes (closing ++ ("\n" : Text)) [.mark '\x7d'])
      (by decide +kernel : statements? true [.mark '\x7d'] = some ([], []))
    simpa only [List.append_nil, List.nil_append, List.append_assoc] using hread
  · exact List.forall₂_map_right_iff.mpr (List.forall₂_same.mpr fun e he => nodeTells he)
  · exact List.forall₂_map_right_iff.mpr (List.forall₂_same.mpr fun r _ => edgeTells m limits r)
  · exact fun f hf hsmell a b h => exists_isRed_of_comesNext hf hsmell h
  · intro hnone s hs hred
    obtain ⟨r, -, rfl⟩ := List.mem_map.mp hs
    obtain ⟨f, hf, hsmell, -⟩ := ((edgeTells m limits r).red.mp hred).1
    exact hnone f hf hsmell

/-- A ring with an element that leads out of it, and one that no relation names. -/
theorem colours_tell_ring :
    let m : Model :=
      { elements := [{ id := "a", name := "A", kind := .system },
          { id := "b", name := "B", kind := .person }, { id := "c", name := "C", kind := .system }]
        relations := [{ source := "a", target := "b" }, { source := "b", target := "a" },
          { source := "b", target := "d" }] }
    let limits : Limits := ⟨.never, .never, true⟩
    ∃ nodes edges, List.Forall₂ (NodeTells m limits) m.elements nodes ∧
      List.Forall₂ (EdgeTells m limits) m.relations edges ∧
      (∀ f ∈ m.detect limits, KeepsToLine f) ∧ (∃ t, render m (m.detect limits) = .ok t ∧
        Graph.read t = some
          { directed := true, name := "Architecture", statements := preamble ++ nodes ++ edges }) ∧
      (ComesNext ["a", "b"] "b" "a" ∧
        ∃ s ∈ edges, (∃ label, s.edge? = some (("b" : Text), ("a" : Text), label)) ∧ s.IsRed) := by
  intro m limits
  have hlabels : ∀ r ∈ m.relations, ∃ label, LabelSays r.label label := by
    simp only [m, List.forall_mem_cons]
    exact ⟨⟨_, .none⟩, ⟨_, .none⟩, ⟨_, .none⟩, List.forall_mem_nil _⟩
  obtain ⟨body, comments, nodes, edges, htext, hrender, -, hread, hnodes, hedges, hred, -⟩ :=
    colours_tell_findings m limits
  have hfound : m.detect limits = [Finding.ofCycle ["a", "b"], Finding.ofIsolated "c"] := by
    decide +kernel
  have hkeeps : ∀ f ∈ m.detect limits, KeepsToLine f := by
    rw [hfound]
    intro f hf
    rcases List.mem_cons.mp hf with rfl | hf
    · exact .inl rfl
    · obtain rfl := List.mem_singleton.mp hf
      exact .inr ⟨"c", rfl, by decide⟩
  have hcycle : Finding.ofCycle ["a", "b"] ∈ m.detect limits := by
    rw [hfound]
    exact List.mem_cons_self
  have hnext : ComesNext ["a", "b"] "b" "a" := .inr ⟨rfl, rfl⟩
  exact ⟨nodes, edges, hnodes, hedges, hkeeps,
    ⟨_, (hrender hlabels).trans htext, hread _ (.inr ⟨rfl, hkeeps⟩)⟩, hnext, hred _ hcycle rfl _ _ hnext⟩

end Landscape.Dot
