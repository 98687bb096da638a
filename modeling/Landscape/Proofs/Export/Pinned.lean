import Landscape.Proofs.Export.Graph
import Mathlib.Data.List.Forall2

/-!
# A pinned graph says where the elements are

Read again, the graph of a model with its elements at their positions has a node for each element,
which tells its id, its name, the shape of its kind and, if it has one, its position. Behind them it
has an edge for each relation, which tells its ends and its label. Nothing else is said, whatever
the ids, names and labels are: each of them is a quoted text and stands for itself.
-/

namespace Landscape.Dot

open Landscape.Number

/-- The statements before those of the model. -/
def pinnedPreamble : List Statement :=
  [.setting "layout" "neato",
    .defaults "node" [("style", "filled"), ("fixedsize", "true"), ("width", "1.5"),
      ("height", "0.8"), ("fontsize", "10"), ("fontcolor", Palette.font)]]

/-- A position as a graph writes it: two coordinates with two decimal places, which are kept. -/
def pinText (p : Point Float) : String := fixed 2 p.x ++ "," ++ fixed 2 p.y ++ "!"

/-- The node of an element: it has a position where the element has one. -/
def pinnedStatement (e : Element) : Statement :=
  .node e.id <|
    ("label", e.name) :: ("shape", e.kind.shape) ::
      (e.position.map fun p => (("pos" : Text), (pinText p : Text))).toList

/-- The edge of a relation. -/
def linkStatement (r : Relation) : Statement :=
  .edge r.source r.target [("label", labelText r)]

/-- What the edge of a relation tells: its ends, and what its label says. -/
def LinkTells (r : Relation) (s : Statement) : Prop :=
  ∃ label, LabelSays r.label label ∧ s = .edge r.source r.target [("label", label)]

/-- There is one edge that tells of a relation. -/
theorem LinkTells.eq {r : Relation} {s : Statement} {label : Text} (h : LinkTells r s)
    (hlabel : LabelSays r.label label) : s = .edge r.source r.target [("label", label)] := by
  obtain ⟨label', hlabel', rfl⟩ := h
  rw [hlabel'.unique hlabel]

/-- The lines before those of the model. -/
def pinnedPreambleLines : List Text :=
  ["  layout=neato;",
    "  node [style=filled, fixedsize=true, width=1.5, height=0.8, fontsize=10, fontcolor=\""
      ++ Palette.font ++ "\"];",
    ""]

/-- They are read as they are written. -/
theorem writesIn_pinnedPreamble : WritesIn false (unlines pinnedPreambleLines) pinnedPreamble := by
  have hlayout : WritesIn false (("  layout=neato;" : Text) ++ ("\n" : Text))
      [.setting "layout" "neato"] :=
    ⟨.word "layout" :: ([.mark '=', .word "neato"] ++ [.mark ';']), by decide,
      means_statement (fun _ => Token.noConfusion) fun _ => rfl⟩
  have hnode : WritesIn false
      (("  node [style=filled, fixedsize=true, width=1.5, height=0.8, fontsize=10, fontcolor=\""
        ++ Palette.font ++ "\"];" : Text) ++ ("\n" : Text))
      [.defaults "node" [("style", "filled"), ("fixedsize", "true"), ("width", "1.5"),
        ("height", "0.8"), ("fontsize", "10"), ("fontcolor", Palette.font)]] :=
    ⟨.word "node" :: ([.mark '[', .word "style", .mark '=', .word "filled", .mark ',',
      .word "fixedsize", .mark '=', .word "true", .mark ',', .word "width", .mark '=', .word "1.5",
      .mark ',', .word "height", .mark '=', .word "0.8", .mark ',', .word "fontsize", .mark '=',
      .word "10", .mark ',', .word "fontcolor", .mark '=', .quoted Palette.font, .mark ']'] ++
      [.mark ';']), by decide +kernel, means_statement (fun _ => Token.noConfusion) fun _ => rfl⟩
  have hblank : WritesIn false (("" : Text) ++ ("\n" : Text)) [] :=
    ⟨[], by decide, means_nil false⟩
  exact hlayout.append (hnode.append (hblank.append (writesIn_nil false)))

/-- The shape of a kind is a word, and a position behind it keeps to its string. -/
theorem lexes_pin (kind : Kind) (p : Point Float) :
    Lexes ((", shape=" : Text) ++ (kind.shape ++
        ((", pos=\"" ++ fixed 2 p.x ++ "," ++ fixed 2 p.y ++ "!\"" : String) : Text)))
      [.mark ',', .word "shape", .mark '=', .word kind.shape, .mark ',', .word "pos", .mark '=',
        .quoted (pinText p)] := by
  have hinside : ∀ c ∈ (pinText p).toList, c ≠ '\\' ∧ c ≠ '"' := by
    have hnumber (x : Float) : ∀ c ∈ (fixed 2 x).toList, c ≠ '\\' ∧ c ≠ '"' := fun c hc =>
      ⟨(isNumeric_fixed 2 x c hc).ne (by decide), (isNumeric_fixed 2 x c hc).ne (by decide)⟩
    simp only [pinText, String.toList_append, List.forall_mem_append]
    exact ⟨⟨⟨hnumber p.x, forall_mem_of_all (by decide)⟩, hnumber p.y⟩,
      forall_mem_of_all (by decide)⟩
  have hnames : Lexes ((", shape=" : Text) ++ (kind.shape ++ (", pos=" : Text)))
      [.mark ',', .word "shape", .mark '=', .word kind.shape, .mark ',', .word "pos",
        .mark '='] := by
    cases kind <;> decide
  have htokens := hnames.append (lexes_inQuotes hinside)
  have hopen : (", pos=\"" : Text) = (", pos=" : Text) ++ ("\"" : Text) := by decide
  have hclose : ("!\"" : Text) = ("!" : Text) ++ ("\"" : Text) := by decide
  simp only [pinText, Text.ofString_append, hopen, hclose] at htokens ⊢
  simpa only [List.append_assoc, List.cons_append, List.nil_append] using htokens

/-- The line of an element is its node, with a position if there is one. -/
theorem writesIn_pinnedLine (e : Element) :
    WritesIn false (pinnedLine e ++ "\n") [pinnedStatement e] := by
  have hnamed {shape : Text} {tokens : List Token} (hshape : Lexes shape tokens) :=
    (by decide : Lexes "  " []).append <| (lexes_quote e.id).append <|
      (by decide : Lexes " [label=" [.mark '[', .word "label", .mark '=']).append <|
      (lexes_quote e.name).append hshape
  unfold pinnedLine pinnedStatement
  cases e.position with
  | none =>
    have hshape : Lexes ((", shape=" : Text) ++ (e.kind.shape ++ (("" : Text) ++
        (("];" : Text) ++ ("\n" : Text)))))
        [.mark ',', .word "shape", .mark '=', .word e.kind.shape, .mark ']', .mark ';'] := by
      cases e.kind <;> decide
    refine ⟨.quoted e.id :: ([.mark '[', .word "label", .mark '=', .quoted e.name, .mark ',',
      .word "shape", .mark '=', .word e.kind.shape, .mark ']'] ++ [.mark ';']), ?_, ?_⟩
    · simpa only [List.append_assoc, List.nil_append, List.cons_append] using hnamed hshape
    · exact means_statement (fun _ => Token.noConfusion) fun rest => rfl
  | some p =>
    have hshape := (lexes_pin e.kind p).append
      (by decide : Lexes (("];" : Text) ++ ("\n" : Text)) [.mark ']', .mark ';'])
    refine ⟨.quoted e.id :: ([.mark '[', .word "label", .mark '=', .quoted e.name, .mark ',',
      .word "shape", .mark '=', .word e.kind.shape, .mark ',', .word "pos", .mark '=',
      .quoted (pinText p), .mark ']'] ++ [.mark ';']), ?_, ?_⟩
    · simpa only [List.append_assoc, List.nil_append, List.cons_append] using hnamed hshape
    · exact means_statement (fun _ => Token.noConfusion) fun rest => rfl

/-- The line of a relation is the edge between its ends. -/
theorem writesIn_linkLine (r : Relation) :
    WritesIn false (linkLine r ++ "\n") [linkStatement r] := by
  have hline := (by decide : Lexes "  " []).append <| (lexes_quote r.source).append <|
    (by decide : Lexes " -- " [.join false]).append <| (lexes_quote r.target).append <|
    (by decide : Lexes " [label=" [.mark '[', .word "label", .mark '=']).append <|
    (lexes_quote (labelText r)).append <|
    (by decide : Lexes (("];" : Text) ++ ("\n" : Text)) [.mark ']', .mark ';'])
  unfold linkLine linkStatement
  refine ⟨.quoted r.source :: ([.join false, .quoted r.target, .mark '[', .word "label",
    .mark '=', .quoted (labelText r), .mark ']'] ++ [.mark ';']), ?_, ?_⟩
  · simpa only [List.append_assoc, List.nil_append, List.cons_append] using hline
  · exact means_statement (fun _ => Token.noConfusion) fun rest => rfl

/-- The parts of a pinned graph, one behind the other. -/
theorem pinned_eq (m : Model) :
    pinned m = "graph Architecture \x7b\n" ++ ((unlines pinnedPreambleLines ++
      ((m.elements.flatMap fun e => pinnedLine e ++ ("\n" : Text)) ++ (unlines [[]] ++
        m.relations.flatMap fun r => linkLine r ++ ("\n" : Text)))) ++
          (closing ++ ("\n" : Text))) := by
  simp only [pinned, unlines, List.flatMap_append, List.flatMap_map, List.append_assoc]
  rfl

/-- A pinned graph is read as the elements and relations of its model. -/
theorem read_pinned_eq (m : Model) :
    Graph.read (pinned m) = some
      { directed := false, name := "Architecture"
        statements := pinnedPreamble ++ m.elements.map pinnedStatement ++
          m.relations.map linkStatement } := by
  have helements := writesIn_flatMap fun e (_ : e ∈ m.elements) => writesIn_pinnedLine e
  have hrelations := writesIn_flatMap fun r (_ : r ∈ m.relations) => writesIn_linkLine r
  rw [← List.map_eq_flatMap] at helements hrelations
  have hblank : WritesIn false (unlines [[]]) [] := ⟨[], by decide, means_nil false⟩
  have hbody := writesIn_pinnedPreamble.append (helements.append (hblank.append hrelations))
  have hopen : Lexes "graph Architecture \x7b\n"
      [.word "graph", .word "Architecture", .mark '\x7b'] := by decide
  have hread := read_of_writesIn hopen rfl hbody
    (by decide : Lexes (closing ++ ("\n" : Text)) [.mark '\x7d'])
    (by decide +kernel : statements? false [.mark '\x7d'] = some ([], []))
  rw [pinned_eq]
  simpa only [List.append_nil, List.nil_append, List.append_assoc] using hread

/--
The graph of a model with its elements at their positions can be read back, if each label is a text, is
missing or blank, or can be spelled. It has one node for each element, in order, with the id, the name
and the shape of the element, and with its position if and only if it has one. Behind them it has one
edge for each relation, in order, with its ends and with what its label says. It says nothing else,
whatever these texts are.
-/
theorem read_pinned (m : Model) (hlabels : ∀ r ∈ m.relations, ∃ label, LabelSays r.label label) :
    ∃ t links, renderPinned m = .ok t ∧
      Graph.read t = some
        { directed := false, name := "Architecture"
          statements := pinnedPreamble ++ m.elements.map pinnedStatement ++ links } ∧
      List.Forall₂ LinkTells m.relations links := by
  refine ⟨pinned m, m.relations.map linkStatement, ?_, read_pinned_eq m, ?_⟩
  · rw [renderPinned, checkLabels_eq_ok hlabels]
    rfl
  · refine List.forall₂_map_right_iff.mpr (List.forall₂_same.mpr fun r hr => ?_)
    obtain ⟨label, hlabel⟩ := hlabels r hr
    exact ⟨label, hlabel, by rw [linkStatement, hlabel.labelText_eq]⟩

/-- An element with a position and one without, and a label of each sort: a text that would end its
string and its line, none, zero, and a list. -/
theorem read_pinned_of_labels :
    let m : Model :=
      { elements := [{ id := "a\"b", name := "A\\", kind := .system, position := some ⟨1.5, -2.0⟩ },
          { id := "c", name := "C", kind := .person }]
        relations := [{ source := "a\"b", target := "c", label := some (.text "\"];\n\x7d") },
          { source := "c", target := "a\"b" },
          { source := "c", target := "c", label := some (.int 0) },
          { source := "c", target := "d", label := some (.list [.int 1, .null]) }] }
    ∃ t, renderPinned m = .ok t ∧ Graph.read t = some
      { directed := false, name := "Architecture"
        statements := pinnedPreamble ++
          [.node "a\"b" [("label", "A\\"), ("shape", "box3d"), ("pos", "1.50,-2.00!")],
            .node "c" [("label", "C"), ("shape", "ellipse")]] ++
          [.edge "a\"b" "c" [("label", "\"];\n\x7d")], .edge "c" "a\"b" [("label", "")],
            .edge "c" "c" [("label", "")], .edge "c" "d" [("label", "[1, None]")]] } := by
  intro m
  have hspell : (Json.list [.int 1, .null]).spell = .ok "[1, None]" := by decide +kernel
  have hlist : LabelSays (some (.list [.int 1, .null])) "[1, None]" := .value nofun nofun hspell
  have hlabels : ∀ r ∈ m.relations, ∃ label, LabelSays r.label label := by
    simp only [m, List.forall_mem_cons]
    exact ⟨⟨_, .text _⟩, ⟨_, .none⟩, ⟨_, .blank .zero⟩, ⟨_, hlist⟩, List.forall_mem_nil _⟩
  have hnodes : m.elements.map pinnedStatement =
      [.node "a\"b" [("label", "A\\"), ("shape", "box3d"), ("pos", "1.50,-2.00!")],
        .node "c" [("label", "C"), ("shape", "ellipse")]] := by
    decide +kernel
  obtain ⟨t, links, ht, hread, htells⟩ := read_pinned m hlabels
  obtain ⟨first, _, hfirst, hbehind, rfl⟩ := List.forall₂_cons_left_iff.mp htells
  obtain ⟨second, _, hsecond, hthence, rfl⟩ := List.forall₂_cons_left_iff.mp hbehind
  obtain ⟨third, _, hthird, hlast, rfl⟩ := List.forall₂_cons_left_iff.mp hthence
  obtain ⟨fourth, _, hfourth, hnone, rfl⟩ := List.forall₂_cons_left_iff.mp hlast
  obtain rfl := List.forall₂_nil_left_iff.mp hnone
  rw [hfirst.eq (.text _), hsecond.eq .none, hthird.eq (.blank .zero), hfourth.eq hlist,
    hnodes] at hread
  exact ⟨t, ht, hread⟩

end Landscape.Dot
