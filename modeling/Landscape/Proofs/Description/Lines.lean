import Landscape.Proofs.Description.Line

/-!
# Descriptions line by line

A description whose lines are well-formed amounts to what its lines say: a scan takes what each line
says in turn and goes on at the beginning of the next one. A blank line is no exception, though a
statement may be found in it already: it is the one that the next line makes.
-/

namespace Landscape.Description

open Landscape.Text

variable {α : Type} {statement? : Text → Option (α × Text)} {Statement : Text → α → Text → Prop}
  {said? : Saying → Option α} {t rest : Text}

/-- A text that begins with a word begins with nothing else. -/
theorem IsWord.head?_ne {word : Text} (h : IsWord word) (rest : Text) {s : Symbol}
    (hs : s.isA Text.isWord = false) : (word ++ rest).head? ≠ some s := by
  obtain ⟨hne, hword⟩ := h
  cases word with
  | nil => exact absurd rfl hne
  | cons w word =>
    intro heq
    obtain rfl : w = s := by simpa using heq
    rw [hword w List.mem_cons_self] at hs
    cases hs

/-- A line that begins with a word begins with no quote and no arrow. -/
theorem head_of_isWord {lead word : Text} (hlead : IsBlanks lead) (hword : IsWord word)
    (tail : Text) : (skipBlanks (lead ++ (word ++ tail))).head? ≠ some (.char '"') ∧
      ¬("->" : Text) <+: skipBlanks (lead ++ (word ++ tail)) := by
  rw [skipBlanks_append hlead (hword.head? tail)]
  refine ⟨hword.head?_ne tail (by decide), ?_⟩
  rintro ⟨more, hmore⟩
  refine hword.head?_ne tail (s := .char '-') (by decide) ?_
  rw [← hmore]
  rfl

/-- A line that is not blank begins with no quote and no arrow, whatever follows. -/
theorem IsLine.head {saying : Saying} (h : IsLine t saying) (hblank : ¬IsBlanks t)
    (hrest : ∀ s ∈ rest.head?, s = .char '\n') :
    (skipBlanks (t ++ rest)).head? ≠ some (.char '"') ∧
      ¬("->" : Text) <+: skipBlanks (t ++ rest) := by
  cases h with
  | declaration h =>
    obtain ⟨hlead, -⟩ := h
    simp only [List.append_assoc]
    exact head_of_isWord hlead (isWord_keyword _) _
  | arrow h =>
    obtain ⟨hlead, hsource, -⟩ := h
    simp only [List.append_assoc]
    exact head_of_isWord hlead hsource _
  | junk h =>
    obtain ⟨hskip, hne⟩ := skipBlanks_of_not_isBlanks hblank rest
    have hhead : (skipBlanks t ++ rest).head? = (skipBlanks t).head? := by
      rw [List.head?_append, Option.or_of_isSome (List.isSome_head?.mpr hne)]
    rw [hskip, hhead]
    refine ⟨h.noQuote, fun harrow => ?_⟩
    have hstart := prefix_of_prefix_append (by decide) hrest harrow
    exact h.noArrow (hstart.isInfix.trans (List.dropWhile_suffix _).isInfix)

/-- Further lines may follow a line. -/
theorem isLineEnd_following (lines : List Line) : IsLineEnd (following lines) := by
  induction lines with
  | nil => exact ⟨by simp [following], by simp [following, skipBlanks], by decide⟩
  | cons l lines ih =>
    have hskip : skipBlanks (following (l :: lines)) = skipBlanks (l.text ++ following lines) := rfl
    by_cases hblank : IsBlanks l.text
    · rw [skipBlanks_of_isBlanks hblank] at hskip
      exact ⟨by simp [following], hskip ▸ ih.noQuote, hskip ▸ ih.noArrow⟩
    · obtain ⟨hquote, harrow⟩ := l.isLine.head hblank ih.feed
      exact ⟨by simp [following], hskip ▸ hquote, hskip ▸ harrow⟩

/-- Lines with line feeds between them are the first one and what follows it. -/
theorem joinWith_feed (l : Line) (lines : List Line) :
    joinWith "\n" ((l :: lines).map Line.text) = l.text ++ following lines := by
  induction lines generalizing l with
  | nil => simp [joinWith, following]
  | cons l' lines ih =>
    have hjoin := ih l'
    rw [joinWith] at hjoin ⊢
    rw [List.map_cons, List.map_cons, List.intercalate_cons_cons, ← List.map_cons, hjoin,
      List.append_assoc]
    rfl

/-- Within a line a scan passes one symbol, and a line begins behind it if it is a line feed. -/
theorem scan_symbol (s : Symbol) (rest : Text) :
    scan statement? false (s :: rest) = scan statement? (s == .char '\n') rest := by
  rw [scan]
  simp

/-- A scan within a line goes on to its end. -/
theorem scan_within (hfeed : .char '\n' ∉ t) (rest : Text) :
    scan statement? false (t ++ rest) = scan statement? false rest := by
  induction t with
  | nil => rfl
  | cons s t ih =>
    rw [List.mem_cons, not_or] at hfeed
    have hs : (s == .char '\n') = false := beq_false_of_ne (Ne.symm hfeed.1)
    rw [List.cons_append, scan_symbol, hs]
    exact ih hfeed.2

/-- A line feed begins a line. -/
theorem scan_feed (rest : Text) :
    scan statement? false (.char '\n' :: rest) = scan statement? true rest :=
  scan_symbol (.char '\n') rest

/-- A statement at the beginning of a line is taken, and the scan goes on where it ends. -/
theorem scan_statement (hreads : Reads statement? Statement) {a : α} (h : Statement t a rest) :
    scan statement? true t = a :: scan statement? false rest := by
  have hshorter : rest.length < t.length := (hreads.endsInLine (t := t.drop 0) h).place.1
  cases t with
  | nil => exact absurd hshorter (Nat.not_lt_zero _)
  | cons s tail =>
    rw [List.length_cons] at hshorter
    rw [scan]
    simp only [if_true, hreads.eq_some_iff.mpr h]
    rw [if_pos (by omega)]

/-- Where no statement stands the beginning of a line is like any other place. -/
theorem scan_none (h : statement? t = none) :
    scan statement? true t = scan statement? false t := by
  cases t with
  | nil => rw [scan, scan]
  | cons s t =>
    rw [scan, scan]
    simp [h]

/-- A reader of statements that passes over the blanks before them. -/
structure PassesBlanks (statement? : Text → Option (α × Text)) (Statement : Text → α → Text → Prop) :
    Prop extends Reads statement? Statement where
  skipsBlanks : ∀ {t t'}, skipBlanks t = skipBlanks t' → statement? t = statement? t'

/-- Declarations are read behind the blanks before them. -/
theorem passesBlanks_declaration {keyword : Text} (hkeyword : IsWord keyword)
    (withTechnology : Bool) :
    PassesBlanks (declaration? keyword withTechnology) (IsDeclaration keyword withTechnology) where
  toReads := reads_declaration hkeyword withTechnology
  skipsBlanks hskip := by rw [declaration?, declaration?, hskip]

/-- Relations are read behind the blanks before them. -/
theorem passesBlanks_arrow : PassesBlanks arrow? IsArrow where
  toReads := reads_arrow
  skipsBlanks hskip := by rw [arrow?, arrow?, hskip]

/-- No statement is found in a blank text. -/
theorem PassesBlanks.eq_none (h : PassesBlanks statement? Statement) (hblank : IsBlanks t) :
    statement? t = none := by
  have hskip : skipBlanks t = skipBlanks [] := by
    simpa only [List.append_nil] using skipBlanks_of_isBlanks hblank []
  rw [h.skipsBlanks hskip, Option.eq_none_iff_forall_ne_some]
  rintro ⟨a, tail⟩ hsome
  obtain ⟨used, last, heq, -⟩ := h.endsInLine (h.eq_some_iff.mp hsome)
  simp at heq

/-- A scan finds the statement behind blanks from wherever among them it begins. -/
theorem PassesBlanks.scan_eq (h : PassesBlanks statement? Statement) {t' : Text}
    (hskip : skipBlanks t = skipBlanks t') (hsome : (statement? t).isSome) :
    scan statement? true t = scan statement? true t' := by
  obtain ⟨⟨a, tail⟩, hfound⟩ := Option.isSome_iff_exists.mp hsome
  have hfound' : statement? t' = some (a, tail) := (h.skipsBlanks hskip).symm.trans hfound
  rw [scan_statement h.toReads (h.eq_some_iff.mp hfound),
    scan_statement h.toReads (h.eq_some_iff.mp hfound')]

/-- A reader of statements that takes what is said in each line, whatever lines follow. -/
structure ReadsLines (statement? : Text → Option (α × Text)) (Statement : Text → α → Text → Prop)
    (said? : Saying → Option α) : Prop extends PassesBlanks statement? Statement where
  found : ∀ {t saying rest a}, IsLine t saying → said? saying = some a → IsLineEnd rest →
    ∃ trail, trail <:+ t ∧ Statement (t ++ rest) a (trail ++ rest)
  notFound : ∀ {t saying rest}, IsLine t saying → said? saying = none → ¬IsBlanks t →
    IsLineEnd rest → ∀ a rest', ¬Statement (t ++ rest) a rest'

/-- Nothing is taken from a blank line; what is found there the next line says. -/
theorem ReadsLines.scan_blanks (h : ReadsLines statement? Statement said?) (hblank : IsBlanks t)
    (hfeed : .char '\n' ∉ t) (hrest : IsLineEnd rest) :
    scan statement? true (t ++ rest) = scan statement? false rest := by
  cases rest with
  | nil => rw [List.append_nil, scan_none (h.eq_none hblank), ← List.append_nil t, scan_within hfeed]
  | cons s rest =>
    obtain rfl := hrest.feed s rfl
    by_cases hfound : (statement? (t ++ .char '\n' :: rest)).isSome
    · have hskip : skipBlanks (t ++ .char '\n' :: rest) = skipBlanks rest :=
        skipBlanks_of_isBlanks hblank (.char '\n' :: rest)
      rw [h.scan_eq hskip hfound, scan_feed]
    · rw [scan_none (Option.not_isSome_iff_eq_none.mp hfound), scan_within hfeed]

/-- What a line says is taken from it, and the scan goes on behind it. -/
theorem ReadsLines.scan_line (h : ReadsLines statement? Statement said?) (l : Line)
    (hrest : IsLineEnd rest) :
    scan statement? true (l.text ++ rest) =
      (said? l.saying).toList ++ scan statement? false rest := by
  cases hsaid : said? l.saying with
  | some a =>
    obtain ⟨trail, hsuffix, ha⟩ := h.found l.isLine hsaid hrest
    rw [scan_statement h.toReads ha, scan_within fun hmem => l.noFeed (hsuffix.subset hmem)]
    rfl
  | none =>
    rw [Option.toList_none, List.nil_append]
    by_cases hblank : IsBlanks l.text
    · exact h.scan_blanks hblank l.noFeed hrest
    · have hnone : statement? (l.text ++ rest) = none := by
        rw [Option.eq_none_iff_forall_ne_some]
        rintro ⟨a, rest'⟩ hsome
        exact h.notFound l.isLine hsaid hblank hrest a rest' (h.eq_some_iff.mp hsome)
      rw [scan_none hnone, scan_within l.noFeed]

/-- A scan of lines takes what they say, in their order. -/
theorem ReadsLines.scan_lines (h : ReadsLines statement? Statement said?) (lines : List Line) :
    scan statement? true (joinWith "\n" (lines.map Line.text)) =
      lines.filterMap fun l => said? l.saying := by
  cases lines with
  | nil => exact scan.eq_1 ..
  | cons l lines =>
    rw [joinWith_feed]
    induction lines generalizing l with
    | nil =>
      rw [h.scan_line l (isLineEnd_following []), following, List.flatMap_nil, scan]
      cases hsaid : said? l.saying <;> simp [hsaid]
    | cons l' lines ih =>
      rw [h.scan_line l (isLineEnd_following (l' :: lines)), following, List.flatMap_cons,
        List.cons_append, scan_feed, ← following, ih l']
      cases hsaid : said? l.saying <;> simp [hsaid]

/-- The declarations of a kind are those that lines make. -/
theorem readsLines_declaration (kind : Kind) :
    ReadsLines (declaration? (keyword kind).1 (keyword kind).2)
      (IsDeclaration (keyword kind).1 (keyword kind).2) (Saying.declaration? kind) where
  toPassesBlanks := passesBlanks_declaration (isWord_keyword kind) _
  found hline hsaid hrest := by
    cases hline with
    | declaration h =>
      obtain ⟨rfl, hd⟩ := Option.ite_none_right_eq_some.mp hsaid
      obtain rfl := Option.some.inj hd
      obtain ⟨trail, -, hsuffix, hstatement⟩ := h.isDeclaration hrest
      exact ⟨trail, hsuffix, hstatement⟩
    | arrow h => cases hsaid
    | junk h => cases hsaid
  notFound hline hsaid hblank hrest d rest' hd := by
    cases hline with
    | declaration h =>
      obtain ⟨trail, -, -, hstatement⟩ := h.isDeclaration hrest
      obtain rfl := hstatement.kind_unique hd
      simp [Saying.declaration?] at hsaid
    | arrow h =>
      obtain ⟨trail, -, -, hstatement⟩ := h.isArrow hrest
      exact hd.not_isArrow (isWord_keyword kind) hstatement
    | junk h => exact h.not_isDeclaration hblank hrest hd

/-- The relations are those that lines state. -/
theorem readsLines_arrow : ReadsLines arrow? IsArrow Saying.arrow? where
  toPassesBlanks := passesBlanks_arrow
  found hline hsaid hrest := by
    cases hline with
    | declaration h => cases hsaid
    | arrow h =>
      obtain rfl := Option.some.inj hsaid
      obtain ⟨trail, -, hsuffix, hstatement⟩ := h.isArrow hrest
      exact ⟨trail, hsuffix, hstatement⟩
    | junk h => cases hsaid
  notFound hline hsaid hblank hrest a rest' ha := by
    cases hline with
    | declaration h =>
      obtain ⟨trail, -, -, hstatement⟩ := h.isDeclaration hrest
      exact hstatement.not_isArrow (isWord_keyword _) ha
    | arrow h => cases hsaid
    | junk h => exact h.not_isArrow hblank hrest ha

/--
A description of well-formed lines amounts to what its lines say: the elements that they declare,
those of one kind after those of another and within a kind in the order of the lines, and the
relations that they state, in the order of the lines. A line that says nothing changes nothing.
-/
theorem parse_lines (lines : List Line) :
    parse (joinWith "\n" (lines.map Line.text)) =
      { elements := [Kind.container, .component, .person, .system].flatMap fun kind =>
          (lines.filterMap fun l => l.saying.declaration? kind).map fun d =>
            { id := d.id, name := d.name, kind := kind
              technology := d.technology.map .text, description := none, position := none }
        relations := (lines.filterMap fun l => l.saying.arrow?).map fun a =>
          { source := a.source, target := a.target, label := a.label.map .text, weight := 1.0 }
        matrix := none } := by
  have hdeclarations (kind : Kind) :
      declarations kind (joinWith "\n" (lines.map Line.text)) =
        lines.filterMap fun l => l.saying.declaration? kind :=
    (readsLines_declaration kind).scan_lines lines
  have harrows : arrows (joinWith "\n" (lines.map Line.text)) =
      lines.filterMap fun l => l.saying.arrow? := readsLines_arrow.scan_lines lines
  simp only [parse, kindOrder, hdeclarations, harrows]
  rfl

/-- Parts that look like keywords or arrows, and a comment, are read as the lines have them. -/
theorem parse_lines_of_lookalikes :
    parse "container person \"A -> B\" \"x\"\n# person B \"B\"\n\tperson->system \"y\"" =
      { elements := [{ id := "person", name := "A -> B", kind := .container,
                       technology := some (.text "x") }]
        relations := [{ source := "person", target := "system", label := some (.text "y") }] } := by
  have hdeclaration : IsDeclarationLine .container "container person \"A -> B\" \"x\""
      ⟨"person", "A -> B", some "x"⟩ :=
    @IsDeclarationLine.mk .container [] " " "person" " " "A -> B" (" " ++ inQuotes "x") []
      (some "x") (by decide) (by decide) (by decide) (by decide) (by decide)
      (.present (by decide) (by decide)) (by decide) (by decide)
  have hjunk : IsJunk "# person B \"B\"" :=
    ⟨fun h => absurd (h.subset List.mem_cons_self) (by decide),
      fun kind => by cases kind <;> decide, by decide⟩
  have harrow : IsArrowLine "\tperson->system \"y\"" ⟨"person", "system", some "y"⟩ :=
    @IsArrowLine.mk "\t" "person" [] [] "system" (" " ++ inQuotes "y") [] (some "y") (by decide)
      (by decide) (by decide) (by decide) (by decide) (.present (by decide) (by decide)) (by decide)
  exact parse_lines [⟨_, _, .declaration hdeclaration, by decide⟩, ⟨_, _, .junk hjunk, by decide⟩,
    ⟨_, _, .arrow harrow, by decide⟩]

end Landscape.Description
