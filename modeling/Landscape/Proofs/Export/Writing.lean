import Landscape.Proofs.Export.Labels
import Landscape.Proofs.Export.Spelling

/-!
# Written lines are read as statements

Each line of an exported graph stands for one statement, or for none if it is a comment. The line of
an element is a node with the id and the name of the element, the line of a relation an edge between
its two ids with its label, whatever these texts are.
-/

namespace Landscape.Dot

open Landscape.Number

variable {directed : Bool} {tokens tokens' : List Token} {statements statements' : List Statement}
  {t u : Text}

/-- Tokens that stand for statements, whatever follows. -/
def Means (directed : Bool) (tokens : List Token) (statements : List Statement) : Prop :=
  ∀ rest, statements? directed (tokens ++ rest) =
    (statements? directed rest).map fun (more, left) => (statements ++ more, left)

theorem means_nil (directed : Bool) : Means directed [] [] := fun rest => by
  cases h : statements? directed rest <;> simp [h]

theorem Means.append (h : Means directed tokens statements)
    (h' : Means directed tokens' statements') :
    Means directed (tokens ++ tokens') (statements ++ statements') := by
  intro rest
  rw [List.append_assoc, h, h', Option.map_map]
  congr 1
  funext left
  simp

/-- A statement before a semicolon. -/
theorem means_statement {first : Token} {s : Statement} (hfirst : ∀ c, first ≠ .mark c)
    (h : ∀ rest, statement? directed (first :: (tokens ++ .mark ';' :: rest)) =
      some (s, .mark ';' :: rest)) :
    Means directed (first :: (tokens ++ [.mark ';'])) [s] := by
  intro rest
  have hend : statements? directed (.mark ';' :: rest) = statements? directed rest := by
    rw [statements?]
    simp
  rw [List.cons_append, List.append_assoc, List.singleton_append, statements?,
    if_neg (hfirst _), if_neg (hfirst _), h]
  simp [hend]

/-- A text that is read as statements, wherever a statement of a graph may begin. -/
def WritesIn (directed : Bool) (t : Text) (statements : List Statement) : Prop :=
  ∃ tokens, Lexes t tokens ∧ Means directed tokens statements

theorem writesIn_nil (directed : Bool) : WritesIn directed [] [] := ⟨[], rfl, means_nil directed⟩

theorem WritesIn.append (h : WritesIn directed t statements)
    (h' : WritesIn directed u statements') :
    WritesIn directed (t ++ u) (statements ++ statements') := by
  obtain ⟨tokens, hlexes, hmeans⟩ := h
  obtain ⟨tokens', hlexes', hmeans'⟩ := h'
  exact ⟨_, hlexes.append hlexes', hmeans.append hmeans'⟩

/-- Parts that are read as statements are read as them together. -/
theorem writesIn_flatMap {α : Type} {items : List α} {f : α → Text} {g : α → List Statement}
    (h : ∀ a ∈ items, WritesIn directed (f a) (g a)) :
    WritesIn directed (items.flatMap f) (items.flatMap g) := by
  induction items with
  | nil => exact writesIn_nil directed
  | cons a items ih =>
    rw [List.forall_mem_cons] at h
    exact h.1.append (ih h.2)

/-- A text that is read as statements, wherever a statement of a directed graph may begin. -/
abbrev Writes (t : Text) (statements : List Statement) : Prop := WritesIn true t statements

/-- The first of some lines, and the others. -/
theorem unlines_cons (line : Text) (lines : List Text) :
    unlines (line :: lines) = (line ++ ("\n" : Text)) ++ unlines lines := rfl

/-- A comment that keeps to its line says nothing. -/
theorem writes_comment (h : .char '\n' ∉ t) : Writes ("  //" ++ t ++ "\n") [] :=
  ⟨[], lexes_comment h, means_nil true⟩

/-- The node of an element. -/
def elementStatement (marks : Marks) (e : Element) : Statement :=
  let severity := severityOf marks.severities e.id
  let tooltip : Attributes :=
    if severity.isPositive then [("tooltip", "Severity: " ++ fixed 2 severity.toFloat)] else []
  let style : String := if marks.isolated.contains e.id then "filled,dashed" else "filled"
  .node e.id <|
    ("label", e.name) :: ("fillcolor", severity.color) :: ("shape", e.kind.shape) ::
      ("style", style) :: tooltip

/-- The edge of a relation. -/
def relationStatement (marks : Marks) (r : Relation) : Statement :=
  let look : Attributes :=
    if marks.cycle.contains r.source && marks.cycle.contains r.target then
      [("penwidth", "3"), ("color", Palette.cycle)]
    else [("penwidth", general (penWidth r.weight))]
  .edge r.source r.target (("label", labelText r) :: look)

/-- A text of characters without quotes and backslashes stands between quotes as it is. -/
theorem lexes_inQuotes {s : String} (h : ∀ c ∈ s.toList, c ≠ '\\' ∧ c ≠ '"') :
    Lexes (("\"" : Text) ++ (s ++ ("\"" : Text))) [.quoted s] := by
  have hquote : quote s = ("\"" : Text) ++ (s ++ ("\"" : Text)) := by
    refine quote_eq fun symbol hsymbol => ?_
    obtain ⟨c, hc, rfl⟩ := List.mem_map.mp hsymbol
    simpa using h c hc
  rw [← hquote]
  exact lexes_quote s

/-- How an element looks is said by words and strings of its own. -/
theorem lexes_look (severity : Severity) (kind : Kind) (dashed : Bool) :
    Lexes ((", fillcolor=\"" : Text) ++ (severity.color ++ (("\", shape=" : Text) ++ (kind.shape ++
      ((", style=\"" : Text) ++ ((if dashed then "filled,dashed" else "filled" : String) ++
        ("\"" : Text)))))))
      [.mark ',', .word "fillcolor", .mark '=', .quoted severity.color, .mark ',', .word "shape",
        .mark '=', .word kind.shape, .mark ',', .word "style", .mark '=',
        .quoted (if dashed then "filled,dashed" else "filled" : String)] := by
  unfold Severity.color
  cases severity.level <;> cases kind <;> cases dashed <;> decide

/-- The severity in a tooltip keeps to its string. -/
theorem lexes_tooltip (x : Float) :
    Lexes ((", tooltip=\"Severity: " ++ fixed 2 x ++ "\"" : String))
      [.mark ',', .word "tooltip", .mark '=', .quoted ("Severity: " ++ (fixed 2 x : Text))] := by
  have hinside : ∀ c ∈ ("Severity: " ++ fixed 2 x : String).toList, c ≠ '\\' ∧ c ≠ '"' := by
    rw [String.toList_append, List.forall_mem_append]
    exact ⟨forall_mem_of_all (by decide), fun c hc =>
      ⟨(isNumeric_fixed 2 x c hc).ne (by decide), (isNumeric_fixed 2 x c hc).ne (by decide)⟩⟩
  have htokens := (by decide : Lexes ", tooltip=" [.mark ',', .word "tooltip", .mark '=']).append
    (lexes_inQuotes hinside)
  have hopen : (", tooltip=\"Severity: " : Text) =
      (", tooltip=" : Text) ++ (("\"" : Text) ++ ("Severity: " : Text)) := by decide
  rw [Text.ofString_append, Text.ofString_append, hopen]
  rw [Text.ofString_append] at htokens
  simpa only [List.append_assoc, List.cons_append, List.nil_append] using htokens

/-- A written number keeps to its line. -/
theorem not_feed_fixed (places : Nat) (x : Float) : .char '\n' ∉ (fixed places x : Text) :=
  char_notMem_fixed (by decide) places x

/-- The line of an element is the node with its id and its name, and with a tooltip if any. -/
theorem writes_elementLine (e : Element) (severity : Severity) (dashed : Bool) {tooltip : String}
    {tokens : List Token} {attributes : Attributes} (htooltip : Lexes tooltip tokens)
    (hattributes : ∀ rest, attributes? (tokens ++ .mark ']' :: rest) = some (attributes, rest)) :
    Writes (("  " ++ quote e.id ++ " [label=" ++ quote e.name ++ ", fillcolor=\"" ++ severity.color
      ++ "\", shape=" ++ e.kind.shape ++ ", style=\""
      ++ (if dashed then "filled,dashed" else "filled" : String) ++ "\"" ++ tooltip ++ "];")
      ++ "\n")
      [.node e.id (("label", e.name) :: ("fillcolor", severity.color) :: ("shape", e.kind.shape) ::
        ("style", (if dashed then "filled,dashed" else "filled" : String)) :: attributes)] := by
  have hlook := lexes_look severity e.kind dashed
  generalize (if dashed then "filled,dashed" else "filled") = style at hlook ⊢
  have hline := (by decide : Lexes "  " []).append <| (lexes_quote e.id).append <|
    (by decide : Lexes " [label=" [.mark '[', .word "label", .mark '=']).append <|
    (lexes_quote e.name).append <| hlook.append <| htooltip.append <|
    (by decide : Lexes (("];" : Text) ++ ("\n" : Text)) [.mark ']', .mark ';'])
  refine ⟨.quoted e.id :: (([.mark '[', .word "label", .mark '=', .quoted e.name, .mark ',',
    .word "fillcolor", .mark '=', .quoted severity.color, .mark ',', .word "shape", .mark '=',
    .word e.kind.shape, .mark ',', .word "style", .mark '=', .quoted style] ++ tokens ++
      [.mark ']']) ++ [.mark ';']), ?_, ?_⟩
  · simpa only [List.append_assoc, List.nil_append, List.cons_append] using hline
  · refine means_statement (fun _ => Token.noConfusion) fun rest => ?_
    simp [statement?, attributesIfAny?, attributes?, Token.text?, hattributes]

/-- The comment on a severity keeps to its line. -/
theorem writes_severity (x : Float) :
    Writes (("  // Severity: " ++ (fixed 2 x : Text)) ++ "\n") [] := by
  have hopen : ("  // Severity: " : Text) ++ (fixed 2 x : Text) =
      "  //" ++ ((" Severity: " : Text) ++ (fixed 2 x : Text)) := rfl
  rw [hopen]
  refine writes_comment fun hmem => ?_
  rcases List.mem_append.mp hmem with hmem | hmem
  · exact absurd hmem (by decide)
  · exact not_feed_fixed 2 x hmem

/-- The comment on a position keeps to its line. -/
theorem writes_position (p : Point Float) (x : Float) :
    Writes (("  // Position: (" ++ (fixed 2 p.x : Text) ++ ", " ++ fixed 2 p.y ++ "), Severity: "
      ++ fixed 2 x) ++ "\n") [] := by
  have hopen : ("  // Position: (" : Text) ++ (fixed 2 p.x : Text) ++ (", " : Text)
      ++ (fixed 2 p.y : Text) ++ ("), Severity: " : Text) ++ (fixed 2 x : Text) =
      "  //" ++ ((" Position: (" : Text) ++ (fixed 2 p.x : Text) ++ (", " : Text)
        ++ (fixed 2 p.y : Text) ++ ("), Severity: " : Text) ++ (fixed 2 x : Text)) := rfl
  rw [hopen]
  refine writes_comment fun hmem => ?_
  simp only [List.mem_append] at hmem
  rcases hmem with ((((hmem | hmem) | hmem) | hmem) | hmem) | hmem
  · exact absurd hmem (by decide)
  · exact not_feed_fixed 2 p.x hmem
  · exact absurd hmem (by decide)
  · exact not_feed_fixed 2 p.y hmem
  · exact absurd hmem (by decide)
  · exact not_feed_fixed 2 x hmem

/-- The lines of an element are its node; the others are comments. -/
theorem writes_elementLines (marks : Marks) (e : Element) :
    Writes (unlines (elementLines marks e)) [elementStatement marks e] := by
  unfold elementLines elementStatement
  dsimp only
  generalize severityOf marks.severities e.id = severity
  cases hpositive : severity.isPositive with
  | true =>
    have hline := writes_elementLine e severity (marks.isolated.contains e.id)
      (lexes_tooltip severity.toFloat) (fun _ => rfl)
    cases e.position with
    | none =>
      simp only [if_true, unlines_cons]
      exact hline.append ((writes_severity _).append (writesIn_nil true))
    | some p =>
      simp only [if_true, unlines_cons]
      exact hline.append ((writes_position p _).append (writesIn_nil true))
  | false =>
    have hline := writes_elementLine e severity (marks.isolated.contains e.id)
      (by decide : Lexes (Text.ofString "") []) (fun _ => rfl)
    cases e.position with
    | none =>
      simp only [Bool.false_eq_true, if_false, unlines_cons]
      exact hline.append (writesIn_nil true)
    | some p =>
      simp only [Bool.false_eq_true, if_false, unlines_cons]
      exact hline.append ((writes_position p _).append (writesIn_nil true))

/-- The line of a relation is the edge from its source to its target. -/
theorem writes_relationLine (marks : Marks) (r : Relation) :
    Writes (relationLine marks r ++ "\n") [relationStatement marks r] := by
  have hends {look : String} {tokens : List Token}
      (hlook : Lexes ((", " : Text) ++ (look ++ (("];" : Text) ++ ("\n" : Text)))) tokens) :=
    (by decide : Lexes "  " []).append <| (lexes_quote r.source).append <|
      (by decide : Lexes " -> " [.join true]).append <| (lexes_quote r.target).append <|
      (by decide : Lexes " [label=" [.mark '[', .word "label", .mark '=']).append <|
      (lexes_quote (labelText r)).append hlook
  unfold relationLine relationStatement
  split
  next hcycle =>
    have hlook : Lexes ((", " : Text) ++
        (("penwidth=3, color=\"" ++ Palette.cycle ++ "\"" : String) ++
          (("];" : Text) ++ ("\n" : Text))))
        [.mark ',', .word "penwidth", .mark '=', .word "3", .mark ',', .word "color", .mark '=',
          .quoted Palette.cycle, .mark ']', .mark ';'] := by decide
    refine ⟨.quoted r.source :: ([.join true, .quoted r.target, .mark '[', .word "label",
      .mark '=', .quoted (labelText r), .mark ',', .word "penwidth", .mark '=', .word "3",
      .mark ',', .word "color", .mark '=', .quoted Palette.cycle, .mark ']'] ++ [.mark ';']),
      ?_, ?_⟩
    · simpa only [List.append_assoc, List.nil_append, List.cons_append] using hends hlook
    · exact means_statement (fun _ => Token.noConfusion) fun rest => rfl
  next hcycle =>
    obtain ⟨hword, hne⟩ := continues_general (penWidth r.weight)
    generalize general (penWidth r.weight) = width at *
    have hlook : Lexes ((", " : Text) ++ (("penwidth=" ++ width : String) ++
          (("];" : Text) ++ ("\n" : Text))))
        [.mark ',', .word "penwidth", .mark '=', .word width, .mark ']', .mark ';'] := by
      have hname : Lexes ", penwidth=" [.mark ',', .word "penwidth", .mark '='] := by decide
      have hvalue := lexes_word hne hword (by decide : Lexes [.char ']'] [.mark ']'])
      have htokens := hname.append (hvalue.append (by decide : Lexes ";\n" [.mark ';']))
      rw [Text.ofString_append]
      rw [List.append_assoc] at htokens ⊢
      exact htokens
    refine ⟨.quoted r.source :: ([.join true, .quoted r.target, .mark '[', .word "label",
      .mark '=', .quoted (labelText r), .mark ',', .word "penwidth", .mark '=', .word width,
      .mark ']'] ++ [.mark ';']), ?_, ?_⟩
    · simpa only [List.append_assoc, List.nil_append, List.cons_append] using hends hlook
    · exact means_statement (fun _ => Token.noConfusion) fun rest => rfl

end Landscape.Dot
