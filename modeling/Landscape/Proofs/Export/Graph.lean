import Landscape.Proofs.Export.Writing
import Landscape.Proofs.Json.Numbers
import Landscape.Proofs.Results
import Mathlib.Data.List.Forall2

/-!
# An exported graph says what its model says

Read again, the graph of a model has a node for each element and an edge for each relation, with
their ids, names and labels, and nothing else, provided that the comments on what was found keep to
their lines. They do unless the id of a bottleneck, of an over-coupled or of an isolated element
holds a line feed: such an id is written into its comment as it is, and what follows the line feed
is read as part of the graph.
-/

namespace Landscape

namespace Dot

open Landscape.Number

variable {body tail : Text} {statements more : List Statement} {tokens : List Token}

/-- The statements before those of the model. -/
def preamble : List Statement :=
  [.setting "rankdir" "TB", .setting "splines" "curved",
    .defaults "node" [("style", "filled"), ("fontsize", "10"), ("fontcolor", Palette.font)],
    .defaults "edge" [("penwidth", "1.5")]]

/-- The lines in which they are written. -/
def preambleLines : List Text :=
  ["  rankdir=TB;", "  splines=curved;",
    "  node [style=filled, fontsize=10, fontcolor=\"" ++ Palette.font ++ "\"];",
    "  edge [penwidth=1.5];", ""]

/-- They are read as they are written. -/
theorem writes_preamble : Writes (unlines preambleLines) preamble := by
  have hrank : Writes (("  rankdir=TB;" : Text) ++ ("\n" : Text)) [.setting "rankdir" "TB"] :=
    ⟨.word "rankdir" :: ([.mark '=', .word "TB"] ++ [.mark ';']), by decide,
      means_statement (fun _ => Token.noConfusion) fun _ => rfl⟩
  have hsplines : Writes (("  splines=curved;" : Text) ++ ("\n" : Text))
      [.setting "splines" "curved"] :=
    ⟨.word "splines" :: ([.mark '=', .word "curved"] ++ [.mark ';']), by decide,
      means_statement (fun _ => Token.noConfusion) fun _ => rfl⟩
  have hnode : Writes
      (("  node [style=filled, fontsize=10, fontcolor=\"" ++ Palette.font ++ "\"];" : String)
        ++ ("\n" : Text))
      [.defaults "node" [("style", "filled"), ("fontsize", "10"), ("fontcolor", Palette.font)]] :=
    ⟨.word "node" :: ([.mark '[', .word "style", .mark '=', .word "filled", .mark ',',
      .word "fontsize", .mark '=', .word "10", .mark ',', .word "fontcolor", .mark '=',
      .quoted Palette.font, .mark ']'] ++ [.mark ';']), by decide,
      means_statement (fun _ => Token.noConfusion) fun _ => rfl⟩
  have hedge : Writes (("  edge [penwidth=1.5];" : Text) ++ ("\n" : Text))
      [.defaults "edge" [("penwidth", "1.5")]] :=
    ⟨.word "edge" :: ([.mark '[', .word "penwidth", .mark '=', .word "1.5", .mark ']'] ++
      [.mark ';']), by decide, means_statement (fun _ => Token.noConfusion) fun _ => rfl⟩
  have hblank : Writes (("" : Text) ++ ("\n" : Text)) [] := ⟨[], by decide, means_nil true⟩
  exact hrank.append <| hsplines.append <| hnode.append <| hedge.append <| hblank.append <|
    writesIn_nil true

/-- A text that is read as statements, behind the opening of a graph of its sort. -/
theorem read_of_writesIn {directed : Bool} {opening sort : Text}
    (hopen : Lexes opening [.word sort, .word "Architecture", .mark '\x7b'])
    (hsort : sort = if directed then ("digraph" : Text) else "graph")
    (h : WritesIn directed body statements) (htail : Lexes tail tokens)
    (hmore : statements? directed tokens = some (more, [])) :
    Graph.read (opening ++ (body ++ tail)) =
      some { directed, name := "Architecture", statements := statements ++ more } := by
  obtain ⟨inner, hinner, hmeans⟩ := h
  have htokens := (hopen.append (hinner.append htail)).tokens?_eq
  have hstatements : statements? directed (inner ++ tokens) = some (statements ++ more, []) := by
    rw [hmeans, hmore]
    rfl
  have hother : (("graph" : Text) == ("digraph" : Text)) = false := by decide
  subst hsort
  cases directed with
  | true => simp [Graph.read, htokens, hstatements, Token.text?]
  | false => simp [Graph.read, htokens, hstatements, Token.text?, hother]

/-- A text that is read as statements, within a graph. -/
theorem read_of_writes (h : Writes body statements) (htail : Lexes tail tokens)
    (hmore : statements? true tokens = some (more, [])) :
    Graph.read ("digraph Architecture \x7b\n" ++ (body ++ tail)) =
      some { directed := true, name := "Architecture", statements := statements ++ more } :=
  read_of_writesIn (by decide) rfl h htail hmore

/-- A finding whose comment keeps to its line: one of a cycle, the elements of which are shown in
quotes, or one whose first element has an id without line feeds. -/
def KeepsToLine (f : Finding) : Prop :=
  f.smell = .cycle ∨ ∃ id ∈ f.elements.head?, .char '\n' ∉ id

/-- A degree keeps to its line. -/
theorem not_feed_degree (degree : Option Int) :
    .char '\n' ∉ (((degree.map fun n => (toString n : String)).getD "None" : String) : Text) := by
  rw [Text.char_mem_ofString]
  cases degree with
  | none => decide
  | some n =>
    change '\n' ∉ (toString n : String).toList
    rw [Json.toList_toString_int, List.mem_append, not_or]
    refine ⟨?_, fun hdigit => absurd (isDigit_toDigits _ hdigit) (by decide)⟩
    unfold Numeral.minus
    split <;> decide

/-- The first element of a finding that is not of a cycle. -/
theorem KeepsToLine.element {f : Finding} (h : KeepsToLine f) (hcycle : f.smell ≠ .cycle) :
    ∃ id, f.element = .ok id ∧ .char '\n' ∉ id := by
  obtain ⟨id, hid, hfeed⟩ := h.resolve_left hcycle
  refine ⟨id, ?_, hfeed⟩
  unfold Finding.element
  cases helements : f.elements with
  | nil => simp [helements] at hid
  | cons first others =>
    rw [helements, List.head?_cons, Option.mem_some_iff] at hid
    rw [hid]

/-- The comment on a finding that keeps to its line. -/
theorem findingText_eq_ok {f : Finding} (h : KeepsToLine f) :
    ∃ t, findingText f = .ok t ∧ .char '\n' ∉ t := by
  have hdegree := not_feed_degree f.degree
  have hseverity := not_feed_fixed 2 f.severity.toFloat
  unfold findingText
  cases hsmell : f.smell with
  | cycle =>
    refine ⟨_, rfl, ?_⟩
    have hshown := Text.char_mem_ofString.not.mpr (Json.not_feed_shown f.elements)
    simp only [List.mem_append, not_or]
    exact ⟨by decide, hshown⟩
  | bottleneck =>
    obtain ⟨id, hid, hfeed⟩ := h.element (by simp [hsmell])
    refine ⟨_, by rw [hid]; rfl, ?_⟩
    simp only [List.mem_append, not_or]
    exact ⟨⟨⟨⟨⟨⟨by decide, hfeed⟩, by decide⟩, hdegree⟩, by decide⟩, hseverity⟩, by decide⟩
  | overCoupling =>
    obtain ⟨id, hid, hfeed⟩ := h.element (by simp [hsmell])
    refine ⟨_, by rw [hid]; rfl, ?_⟩
    simp only [List.mem_append, not_or]
    exact ⟨⟨⟨⟨⟨⟨by decide, hfeed⟩, by decide⟩, hdegree⟩, by decide⟩, hseverity⟩, by decide⟩
  | isolated =>
    obtain ⟨id, hid, hfeed⟩ := h.element (by simp [hsmell])
    refine ⟨_, by rw [hid]; rfl, ?_⟩
    simp only [List.mem_append, not_or]
    exact ⟨by decide, hfeed⟩

/-- The comments on findings that keep to their lines say nothing. -/
theorem findingLines_eq_ok {findings : List Finding} (h : ∀ f ∈ findings, KeepsToLine f) :
    ∃ lines, findingLines findings = .ok lines ∧ Writes (unlines lines) [] := by
  unfold findingLines
  split
  · exact ⟨[], rfl, writesIn_nil true⟩
  · obtain ⟨texts, htexts, hfeed⟩ := mapM_eq_ok fun f hf => findingText_eq_ok (h f hf)
    refine ⟨_, by rw [htexts]; rfl, ?_⟩
    have hblank : Writes (([] : Text) ++ ("\n" : Text)) [] := ⟨[], by decide, means_nil true⟩
    have htitle : Writes (("  // Anti-patterns detected:" : Text) ++ ("\n" : Text)) [] :=
      ⟨[], by decide, means_nil true⟩
    have hcomment : ∀ t ∈ texts, Writes (("  // " : Text) ++ t ++ ("\n" : Text)) [] :=
      fun t ht => writes_comment (t := (" " : Text) ++ t) (by simpa using ⟨by decide, hfeed t ht⟩)
    have hcomments : Writes (unlines (texts.map fun t => ("  // " : Text) ++ t)) [] := by
      have htogether := writesIn_flatMap hcomment
      rw [List.flatMap_eq_nil_iff.mpr fun _ _ => rfl] at htogether
      rwa [unlines, List.flatMap_map]
    exact hblank.append (htitle.append hcomments)

/-- The parts of a graph, one behind the other. -/
theorem ofModel_eq_ok (m : Model) {findings : List Finding} {marks : Marks} {comments : List Text}
    (hmarks : Marks.ofFindings findings = .ok marks)
    (hcomments : findingLines findings = .ok comments) :
    ofModel m findings = .ok ("digraph Architecture \x7b\n" ++ (unlines preambleLines ++
      ((m.elements.flatMap fun e => unlines (elementLines marks e)) ++ (unlines [[]] ++
        ((m.relations.flatMap fun r => relationLine marks r ++ ("\n" : Text)) ++
          (unlines comments ++ (closing ++ ("\n" : Text)))))))) := by
  rw [ofModel, hmarks, ok_bind, hcomments, ok_bind, pure_eq_ok]
  simp only [unlines, List.flatMap_append, List.flatMap_assoc, List.flatMap_map, List.append_assoc]
  rfl

/-- A graph whose labels all say something is written as it is made up. -/
theorem render_eq_ofModel {m : Model} {findings : List Finding} {marks : Marks}
    (hmarks : Marks.ofFindings findings = .ok marks)
    (hlabels : ∀ r ∈ m.relations, ∃ label, LabelSays r.label label) :
    render m findings = ofModel m findings := by
  rw [render, hmarks, ok_bind, checkLabels_eq_ok hlabels, ok_bind]

/-- With comments that keep to their lines, the graph of a model has its elements and relations. -/
theorem read_ofModel (m : Model) {findings : List Finding} (h : ∀ f ∈ findings, KeepsToLine f) :
    ∃ marks t, Marks.ofFindings findings = .ok marks ∧ ofModel m findings = .ok t ∧
      Graph.read t = some
        { directed := true, name := "Architecture"
          statements := preamble ++ m.elements.map (elementStatement marks) ++
            m.relations.map (relationStatement marks) } := by
  obtain ⟨isolated, hisolated, -⟩ : ∃ ids, isolatedElements findings = .ok ids ∧ ∀ id ∈ ids, True :=
    mapM_eq_ok fun f hf => by
      obtain ⟨hmem, hsmell⟩ := List.mem_filter.mp hf
      obtain ⟨id, hid, -⟩ := (h f hmem).element (by simp [of_decide_eq_true hsmell])
      exact ⟨id, hid, trivial⟩
  obtain ⟨comments, hcomments, hwrites⟩ := findingLines_eq_ok h
  have hmarks : Marks.ofFindings findings =
      .ok ⟨Landscape.severities findings, cycleElements findings, isolated⟩ := by
    rw [Marks.ofFindings, hisolated]
    rfl
  generalize Marks.mk (Landscape.severities findings) (cycleElements findings) isolated = marks
    at hmarks
  have helements := writesIn_flatMap fun e (_ : e ∈ m.elements) => writes_elementLines marks e
  have hrelations := writesIn_flatMap fun r (_ : r ∈ m.relations) => writes_relationLine marks r
  rw [← List.map_eq_flatMap] at helements hrelations
  have hblank : Writes (unlines [[]]) [] := ⟨[], by decide, means_nil true⟩
  have hbody := writes_preamble.append <| helements.append <| hblank.append <|
    hrelations.append hwrites
  have hread := read_of_writes hbody (by decide : Lexes (closing ++ ("\n" : Text)) [.mark '\x7d'])
    (by decide +kernel : statements? true [.mark '\x7d'] = some ([], []))
  refine ⟨marks, _, hmarks, ofModel_eq_ok m hmarks hcomments, ?_⟩
  simpa only [List.append_nil, List.nil_append, List.append_assoc] using hread

/-- The id and the label of a node. -/
def Statement.node? : Statement → Option (Text × Option Text)
  | .node id attributes => some (id, attributes.lookup ("label" : Text))
  | _ => none

/-- The ends and the label of an edge. -/
def Statement.edge? : Statement → Option (Text × Text × Option Text)
  | .edge source target attributes => some (source, target, attributes.lookup ("label" : Text))
  | _ => none

/-- The edge of a relation has its ends, and its label as text. -/
theorem edge?_relationStatement (marks : Marks) (r : Relation) :
    (relationStatement marks r).edge? = some (r.source, r.target, some (labelText r)) := rfl

/-- A text is read as a graph that has, behind the statements of its preamble, one node for each
element of a model, then one edge for each relation, and nothing else. -/
def Says (t : Text) (m : Model) : Prop :=
  ∃ nodes edges,
    Graph.read t = some
      { directed := true, name := "Architecture", statements := preamble ++ nodes ++ edges } ∧
    nodes.map Statement.node? = m.elements.map (fun e => some (e.id, some e.name)) ∧
    List.Forall₂ (fun r s => ∃ label, LabelSays r.label label ∧
      s.edge? = some (r.source, r.target, some label)) m.relations edges

/-- What is found in a model within limits; without limits nothing is looked for. -/
def found (m : Model) (limits : Option Limits) : List Finding :=
  (limits.map m.detect).getD []

/-- What is found is a cycle or concerns one element. -/
theorem mem_found {m : Model} {limits : Option Limits} {f : Finding} (h : f ∈ found m limits) :
    f.smell = .cycle ∨ ∃ id, f.elements = [id] := by
  cases limits with
  | none => cases h
  | some limits =>
    rcases List.mem_append.mp h with hcycle | hdegree
    · obtain ⟨cycle, -, rfl⟩ := Option.map_eq_some_iff.mp (Option.mem_toList.mp hcycle)
      exact .inl rfl
    · obtain ⟨e, -, hf⟩ := List.mem_flatMap.mp hdegree
      refine .inr ⟨e.id, ?_⟩
      simp only [Model.degreeFindings, List.mem_append] at hf
      rcases hf with (hf | hf) | hf
      · obtain ⟨limit, -, rfl⟩ := Option.map_eq_some_iff.mp (Option.mem_toList.mp hf)
        rfl
      · obtain ⟨limit, -, rfl⟩ := Option.map_eq_some_iff.mp (Option.mem_toList.mp hf)
        rfl
      · split at hf
        · rw [List.mem_singleton.mp hf]
          rfl
        · cases hf

/--
The graph of a model says what the model says: each element is a node with its id and with its name
as label, each relation is an edge with its ids and its label, in their order, and nothing else is
said, whatever ids and names are, and labels that are texts, or missing or blank, or can be spelled.
The ids alone that are written into comments as they are, those of single elements that something was
found about, must not hold a line feed.
-/
theorem graph_says_model (m : Model) (limits : Option Limits)
    (hlabels : ∀ r ∈ m.relations, ∃ label, LabelSays r.label label)
    (hfeed : ∀ f ∈ found m limits, f.smell ≠ .cycle → ∀ id ∈ f.elements, .char '\n' ∉ id) :
    ∃ t, render m (found m limits) = .ok t ∧ Says t m := by
  have hline : ∀ f ∈ found m limits, KeepsToLine f := by
    intro f hf
    by_cases hcycle : f.smell = .cycle
    · exact .inl hcycle
    · obtain ⟨id, hid⟩ := (mem_found hf).resolve_left hcycle
      have hmem : id ∈ f.elements := by
        rw [hid]
        exact List.mem_cons_self
      exact .inr ⟨id, by rw [hid]; rfl, hfeed f hf hcycle id hmem⟩
  obtain ⟨marks, t, hmarks, ht, hread⟩ := read_ofModel m hline
  refine ⟨t, (render_eq_ofModel hmarks hlabels).trans ht, _, _, hread, ?_, ?_⟩
  · rw [List.map_map]
    rfl
  · refine List.forall₂_map_right_iff.mpr (List.forall₂_same.mpr fun r hr => ?_)
    obtain ⟨label, hlabel⟩ := hlabels r hr
    exact ⟨label, hlabel, by rw [edge?_relationStatement, hlabel.labelText_eq]⟩

/-- The comment on a cycle shows its ids in quotes, so that they may hold line feeds. -/
theorem graph_says_model_of_quotes :
    let m : Model :=
      { elements := [{ id := "A\nB", name := "\"A\\", kind := .system }]
        relations := [{ source := "A\nB", target := "A\nB", label := some (.text "\"];//") }] }
    found m (some ⟨.never, .never, true⟩) = [Finding.ofCycle ["A\nB"]] ∧
      ∃ t, render m (found m (some ⟨.never, .never, true⟩)) = .ok t ∧ Says t m := by
  intro m
  have hlabels : ∀ r ∈ m.relations, ∃ label, LabelSays r.label label :=
    List.forall_mem_singleton.mpr ⟨_, .text _⟩
  have hfound : found m (some ⟨.never, .never, true⟩) = [Finding.ofCycle ["A\nB"]] := by
    decide +kernel
  refine ⟨hfound, graph_says_model m _ hlabels fun f hf hcycle => absurd ?_ hcycle⟩
  rw [hfound, List.mem_singleton] at hf
  rw [hf]
  rfl

/-- An id with a line feed leaves its comment, and what follows the line feed is read as a node. -/
theorem comment_left_at_feed :
    let m : Model := { elements := [{ id := "A\nB", name := "A\nB", kind := .system }] }
    let limits : Limits := ⟨.ratio 5 (by decide), .ratio 7 (by decide), true⟩
    ∃ t, render m (found m (some limits)) = .ok t ∧ ¬Says t m := by
  intro m limits
  have hfound : found m (some limits) = [Finding.ofIsolated "A\nB"] := by decide +kernel
  obtain ⟨marks, hmarks⟩ : ∃ marks, Marks.ofFindings [Finding.ofIsolated "A\nB"] = .ok marks :=
    ⟨_, rfl⟩
  have hcomments : findingLines [Finding.ofIsolated "A\nB"] =
      .ok [[], "  // Anti-patterns detected:", "  // Isolated: A\nB"] := rfl
  have hsplit : unlines [[], "  // Anti-patterns detected:", "  // Isolated: A\nB"] ++
      (closing ++ ("\n" : Text)) =
      unlines [[], "  // Anti-patterns detected:", "  // Isolated: A"] ++ ("B\n\x7d\n" : Text) := by
    decide
  have hblank : Writes (unlines [[]]) [] := ⟨[], by decide, means_nil true⟩
  have hkept : Writes (unlines [[], "  // Anti-patterns detected:", "  // Isolated: A"]) [] :=
    ⟨[], by decide, means_nil true⟩
  have helements := writesIn_flatMap fun e (_ : e ∈ m.elements) => writes_elementLines marks e
  rw [← List.map_eq_flatMap] at helements
  have hread := read_of_writes
    (writes_preamble.append (helements.append (hblank.append hkept)))
    (by decide : Lexes "B\n\x7d\n" [.word "B", .mark '\x7d'])
    (by decide +kernel : statements? true [.word "B", .mark '\x7d'] = some ([.node "B" []], []))
  have hrender := (render_eq_ofModel hmarks (List.forall_mem_nil _ : ∀ r ∈ m.relations, _)).trans
    (ofModel_eq_ok m hmarks hcomments)
  refine ⟨_, hfound ▸ hrender, ?_⟩
  rintro ⟨nodes, edges, hsays, hnodes, hedges⟩
  rw [hsplit] at hsays
  simp only [List.append_assoc] at hread hsays
  have hlength := congrArg (fun g => g.statements.length) (Option.some.inj (hread.symm.trans hsays))
  have hnode := congrArg List.length hnodes
  have hedge := hedges.length_eq
  simp only [List.length_append, List.length_map, List.length_cons, List.length_nil, m] at *
  omega

end Dot

end Landscape
