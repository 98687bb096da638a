import Landscape.Proofs.Description.Scanning

/-!
# Lines of a description

A line of a well-formed description declares an element, relates two, or says nothing. Blanks may
cross line ends and a quoted text may stand behind them, so that what a line says depends on how the
next ones begin: no line begins with a double quote or an arrow. With that no statement begins in
one line and ends in another, and each sort of statement is found in its own lines only.
-/

namespace Landscape.Description

open Landscape.Text

instance (t : Text) : Decidable (IsBlanks t) :=
  inferInstanceAs (Decidable (∀ s ∈ t, s.isA isBlank = true))

instance (t : Text) : Decidable (IsGap t) := inferInstanceAs (Decidable (t ≠ [] ∧ IsBlanks t))

instance (t : Text) : Decidable (IsWord t) :=
  inferInstanceAs (Decidable (t ≠ [] ∧ ∀ s ∈ t, s.isA isWord = true))

instance (t : Text) : Decidable (IsQuotable t) :=
  inferInstanceAs (Decidable (t ≠ [] ∧ .char '"' ∉ t))

/-- What a line says. -/
inductive Saying where
  | declares (kind : Kind) (d : Declaration)
  | relates (a : Arrow)
  | nothing
  deriving DecidableEq, Repr

/-- The declaration of a kind that a line makes. -/
def Saying.declaration? (kind : Kind) : Saying → Option Declaration
  | .declares other d => if other = kind then some d else none
  | _ => none

/-- The relation that a line states. -/
def Saying.arrow? : Saying → Option Arrow
  | .relates a => some a
  | _ => none

/-- What may be written behind a statement: a gap and a quoted text, or nothing. -/
inductive QuotedEnd : Text → Option Text → Prop
  | present {gap inside : Text} (hgap : IsGap gap) (hinside : IsQuotable inside) :
    QuotedEnd (gap ++ inQuotes inside) (some inside)
  | absent : QuotedEnd [] none

/-- A line that declares an element of a kind. -/
inductive IsDeclarationLine (kind : Kind) : Text → Declaration → Prop
  | mk {lead gap id gap' name ending trail : Text} {technology : Option Text}
    (hlead : IsBlanks lead) (hgap : IsGap gap) (hid : IsWord id) (hgap' : IsGap gap')
    (hname : IsQuotable name) (hending : QuotedEnd ending technology)
    (hkind : (keyword kind).2 = false → technology = none) (htrail : IsBlanks trail) :
    IsDeclarationLine kind
      (lead ++ (keyword kind).1 ++ gap ++ id ++ gap' ++ inQuotes name ++ ending ++ trail)
      ⟨id, name, technology⟩

/-- A line that relates two elements. -/
inductive IsArrowLine : Text → Arrow → Prop
  | mk {lead source space space' target ending trail : Text} {label : Option Text}
    (hlead : IsBlanks lead) (hsource : IsWord source) (hspace : IsBlanks space)
    (hspace' : IsBlanks space') (htarget : IsWord target) (hending : QuotedEnd ending label)
    (htrail : IsBlanks trail) :
    IsArrowLine (lead ++ source ++ space ++ "->" ++ space' ++ target ++ ending ++ trail)
      ⟨source, target, label⟩

/-- A line that says nothing: it holds no arrow and begins with no keyword and no quote. -/
structure IsJunk (t : Text) : Prop where
  noArrow : ¬("->" : Text) <:+: t
  noKeyword : ∀ kind, ¬(keyword kind).1 <+: skipBlanks t
  noQuote : (skipBlanks t).head? ≠ some (.char '"')

/-- What a line says, by how it is written. -/
inductive IsLine : Text → Saying → Prop
  | declaration {t : Text} {kind : Kind} {d : Declaration} (h : IsDeclarationLine kind t d) :
    IsLine t (.declares kind d)
  | arrow {t : Text} {a : Arrow} (h : IsArrowLine t a) : IsLine t (.relates a)
  | junk {t : Text} (h : IsJunk t) : IsLine t .nothing

/-- A well-formed line with what it says. -/
structure Line where
  text : Text
  saying : Saying
  isLine : IsLine text saying
  noFeed : .char '\n' ∉ text

/-- The lines behind a first one, each with the line feed before it. -/
def following (lines : List Line) : Text := lines.flatMap fun l => .char '\n' :: l.text

/-- What may follow a line: nothing, or a line feed with further lines, the first of which that is
not blank begins with no quote and no arrow. -/
structure IsLineEnd (t : Text) : Prop where
  feed : ∀ s ∈ t.head?, s = .char '\n'
  noQuote : (skipBlanks t).head? ≠ some (.char '"')
  noArrow : ¬("->" : Text) <+: skipBlanks t

variable {t rest lead trail tail : Text}

theorem skipBlanks_of_isBlanks (h : IsBlanks t) (rest : Text) :
    skipBlanks (t ++ rest) = skipBlanks rest := by
  rw [skipBlanks, List.dropWhile_append_of_pos h]
  rfl

theorem skipBlanks_of_not_isBlanks (h : ¬IsBlanks t) (rest : Text) :
    skipBlanks (t ++ rest) = skipBlanks t ++ rest ∧ skipBlanks t ≠ [] := by
  have hne : skipBlanks t ≠ [] := by
    intro hnil
    obtain ⟨lead, hlead, ht⟩ := exists_skipBlanks t
    rw [hnil, List.append_nil] at ht
    exact h (ht ▸ hlead)
  refine ⟨?_, hne⟩
  have hempty : ¬(t.dropWhile (Symbol.isA isBlank)).isEmpty = true := by
    rwa [List.isEmpty_iff]
  rw [skipBlanks, List.dropWhile_append, if_neg hempty]
  rfl

/-- A text without line feeds that begins a line and what follows begins the line. -/
theorem prefix_of_prefix_append {w : Text} (hw : .char '\n' ∉ w)
    (hrest : ∀ s ∈ rest.head?, s = .char '\n') (h : w <+: t ++ rest) : w <+: t := by
  rcases List.prefix_or_prefix_of_prefix h (List.prefix_append t rest) with h' | ⟨more, rfl⟩
  · exact h'
  · have hmore := (List.prefix_append_right_inj t).mp h
    cases more with
    | nil => simp
    | cons s more =>
      obtain ⟨rest, rfl⟩ := hmore
      obtain rfl := hrest s (by simp)
      simp at hw

/-- The first word of a text and what follows the blanks behind it. -/
def opening? (t : Text) : Option (Text × Text) :=
  (word? (skipBlanks t)).map fun (word, rest) => (word, skipBlanks rest)

/-- A word, blanks and something else open a text. -/
theorem opening?_append {word space : Text} (hlead : IsBlanks lead) (hword : IsWord word)
    (hspace : IsBlanks space) (hwhole : ∀ s ∈ (space ++ tail).head?, s.isA Text.isWord = false)
    (htail : ∀ s ∈ tail.head?, s.isA isBlank = false) :
    opening? (lead ++ (word ++ (space ++ tail))) = some (word, tail) := by
  have hskip := skipBlanks_append hlead (hword.head? (space ++ tail))
  have hread : word? (word ++ (space ++ tail)) = some (word, space ++ tail) :=
    word?_eq_some_iff.mpr ⟨rfl, hword, hwhole⟩
  simp only [opening?, hskip, hread, Option.map_some, skipBlanks_append hspace htail]

/-- A declaration opens with its keyword, and a word follows. -/
theorem IsDeclaration.opening {keyword : Text} (hkeyword : IsWord keyword) {withTechnology : Bool}
    {d : Declaration} (h : IsDeclaration keyword withTechnology t d rest) :
    ∃ tail, opening? t = some (keyword, tail) ∧ ∃ s ∈ tail.head?, s.isA Text.isWord = true := by
  obtain @⟨lead, gap, id, gap', name, t, rest, technology, hlead, hgap, hid, -, -, -⟩ := h
  refine ⟨id ++ (gap' ++ (inQuotes name ++ t)), ?_, ?_⟩
  · simp only [List.append_assoc]
    exact opening?_append hlead hkeyword hgap.2 (hgap.head? _) (hid.head? _)
  · obtain ⟨hne, hword⟩ := hid
    cases id with
    | nil => exact absurd rfl hne
    | cons s id => exact ⟨s, rfl, hword s List.mem_cons_self⟩

/-- A relation opens with its source, and an arrow follows. -/
theorem IsArrow.opening {a : Arrow} (h : IsArrow t a rest) :
    ∃ tail, opening? t = some (a.source, ("->" : Text) ++ tail) := by
  obtain @⟨lead, source, space, space', target, t, rest, label, hlead, hsource, hspace, -, -, -,
    -⟩ := h
  refine ⟨space' ++ (target ++ t), ?_⟩
  simp only [List.append_assoc]
  exact opening?_append hlead hsource hspace (head?_spaceArrow hspace _) fun s hs =>
    (head?_arrow _ s hs).1

/-- A text that opens as a declaration is no relation. -/
theorem IsDeclaration.not_isArrow {keyword : Text} (hkeyword : IsWord keyword)
    {withTechnology : Bool} {d : Declaration} {a : Arrow} {rest' : Text}
    (h : IsDeclaration keyword withTechnology t d rest) : ¬IsArrow t a rest' := by
  intro ha
  obtain ⟨tail, hopening, s, hs, hword⟩ := h.opening hkeyword
  obtain ⟨tail', hopening'⟩ := ha.opening
  rw [hopening, Option.some.injEq, Prod.mk.injEq] at hopening'
  rw [hopening'.2] at hs
  rw [(head?_arrow tail' s hs).2] at hword
  cases hword

/-- A text opens as a declaration of one kind only. -/
theorem IsDeclaration.kind_unique {kind kind' : Kind} {withTechnology withTechnology' : Bool}
    {d d' : Declaration} {rest' : Text}
    (h : IsDeclaration (keyword kind).1 withTechnology t d rest)
    (h' : IsDeclaration (keyword kind').1 withTechnology' t d' rest') : kind = kind' := by
  obtain ⟨tail, hopening, -⟩ := h.opening (isWord_keyword kind)
  obtain ⟨tail', hopening', -⟩ := h'.opening (isWord_keyword kind')
  rw [hopening, Option.some.injEq, Prod.mk.injEq] at hopening'
  have hinjective : ∀ k k' : Kind, (keyword k).1 = (keyword k').1 → k = k' := by
    intro k k'
    cases k <;> cases k' <;> decide
  exact hinjective kind kind' hopening'.1

/-- The quoted text that may end a line is the one that is taken, whatever lines follow. -/
theorem QuotedEnd.quotedIfAny {ending : Text} {q : Option Text} (h : QuotedEnd ending q)
    (htrail : IsBlanks trail) (hrest : IsLineEnd rest) :
    QuotedIfAny (ending ++ (trail ++ rest)) q (trail ++ rest) := by
  cases h with
  | present hgap hinside => exact .present ⟨hgap, hinside⟩
  | absent =>
    refine .absent fun inside rest' hnext => hrest.noQuote ?_
    rw [← skipBlanks_of_isBlanks htrail rest]
    rw [List.nil_append] at hnext
    generalize trail ++ rest = t at hnext
    obtain ⟨hgap, -⟩ := hnext
    rw [List.append_assoc, skipBlanks_append hgap.2 (head?_inQuotes _ _)]
    rfl

/-- A quoted text behind a word leaves the word whole. -/
theorem QuotedEnd.head? {ending : Text} {q : Option Text} (h : QuotedEnd ending q)
    (htrail : IsBlanks trail) (hrest : IsLineEnd rest) :
    ∀ s ∈ (ending ++ (trail ++ rest)).head?, s.isA Text.isWord = false := by
  cases h with
  | present hgap hinside =>
    rw [List.append_assoc]
    exact hgap.head? _
  | absent =>
    cases trail with
    | nil =>
      intro s hs
      obtain rfl := hrest.feed s hs
      decide
    | cons s trail => exact IsGap.head? ⟨List.cons_ne_nil s trail, htrail⟩ rest

/-- A line that declares an element is a declaration, whatever lines follow. -/
theorem IsDeclarationLine.isDeclaration {kind : Kind} {d : Declaration}
    (h : IsDeclarationLine kind t d) (hrest : IsLineEnd rest) :
    ∃ trail, IsBlanks trail ∧ trail <:+ t ∧
      IsDeclaration (keyword kind).1 (keyword kind).2 (t ++ rest) d (trail ++ rest) := by
  obtain @⟨lead, gap, id, gap', name, ending, trail, technology, hlead, hgap, hid, hgap', hname,
    hending, hkind, htrail⟩ := h
  refine ⟨trail, htrail, List.suffix_append _ _, ?_⟩
  have htechnology :
      TechnologyIfAny (keyword kind).2 (ending ++ (trail ++ rest)) technology (trail ++ rest) := by
    unfold TechnologyIfAny
    split
    · exact hending.quotedIfAny htrail hrest
    next hnone =>
      obtain rfl := hkind (Bool.eq_false_iff.mpr hnone)
      cases hending
      exact ⟨rfl, rfl⟩
  have hstatement : IsDeclaration (keyword kind).1 _ _ ⟨id, name, technology⟩ _ :=
    .mk hlead hgap hid hgap' hname htechnology
  simpa only [List.append_assoc] using hstatement

/-- A line that relates two elements is a relation, whatever lines follow. -/
theorem IsArrowLine.isArrow {a : Arrow} (h : IsArrowLine t a) (hrest : IsLineEnd rest) :
    ∃ trail, IsBlanks trail ∧ trail <:+ t ∧ IsArrow (t ++ rest) a (trail ++ rest) := by
  obtain @⟨lead, source, space, space', target, ending, trail, label, hlead, hsource, hspace,
    hspace', htarget, hending, htrail⟩ := h
  refine ⟨trail, htrail, List.suffix_append _ _, ?_⟩
  have hstatement := IsArrow.mk hlead hsource hspace hspace' htarget (hending.head? htrail hrest)
    (hending.quotedIfAny htrail hrest)
  simpa only [List.append_assoc] using hstatement

/-- No declaration begins in a line that says nothing, unless the line is blank. -/
theorem IsJunk.not_isDeclaration (h : IsJunk t) (hblank : ¬IsBlanks t) (hrest : IsLineEnd rest)
    {kind : Kind} {withTechnology : Bool} {d : Declaration} {rest' : Text} :
    ¬IsDeclaration (keyword kind).1 withTechnology (t ++ rest) d rest' := by
  intro hd
  have hskip : (keyword kind).1 <+: skipBlanks (t ++ rest) := by
    generalize t ++ rest = t at hd
    obtain @⟨lead, gap, id, gap', name, t, rest, technology, hlead, -, -, -, -, -⟩ := hd
    simp only [List.append_assoc]
    rw [skipBlanks_append hlead ((isWord_keyword kind).head? _)]
    exact List.prefix_append _ _
  rw [(skipBlanks_of_not_isBlanks hblank rest).1] at hskip
  have hfeed : .char '\n' ∉ (keyword kind).1 := by cases kind <;> decide
  exact h.noKeyword kind (prefix_of_prefix_append hfeed hrest.feed hskip)

/-- No relation begins in a line that says nothing, unless the line is blank. -/
theorem IsJunk.not_isArrow (h : IsJunk t) (hblank : ¬IsBlanks t)
    (hrest : IsLineEnd rest) {a : Arrow} {rest' : Text} : ¬IsArrow (t ++ rest) a rest' := by
  intro ha
  obtain ⟨hskip, hne⟩ := skipBlanks_of_not_isBlanks hblank rest
  -- The source lies within the line, so that the arrow stands behind it or begins a later line.
  obtain ⟨source, space, tail, hsource, hspace, heq⟩ : ∃ source space tail, IsWord source ∧
      IsBlanks space ∧ skipBlanks t ++ rest = source ++ (space ++ (("->" : Text) ++ tail)) := by
    rw [← hskip]
    generalize t ++ rest = t at ha
    obtain @⟨lead, source, space, space', target, t, rest, label, hlead, hsource, hspace, -, -, -,
      -⟩ := ha
    refine ⟨source, space, space' ++ (target ++ t), hsource, hspace, ?_⟩
    simp only [List.append_assoc]
    exact skipBlanks_append hlead (hsource.head? _)
  have hwordFeed : .char '\n' ∉ source := fun hmem => absurd (hsource.2 _ hmem) (by decide)
  obtain ⟨line, hline⟩ := prefix_of_prefix_append hwordFeed hrest.feed
    (heq ▸ List.prefix_append source _)
  rw [← hline, List.append_assoc, List.append_cancel_left_eq] at heq
  have harrow : ("->" : Text) <+: skipBlanks (line ++ rest) := by
    rw [heq, skipBlanks_append hspace fun s hs => (head?_arrow _ s hs).1]
    exact List.prefix_append _ _
  by_cases hlineBlank : IsBlanks line
  · rw [skipBlanks_of_isBlanks hlineBlank] at harrow
    exact hrest.noArrow harrow
  · rw [(skipBlanks_of_not_isBlanks hlineBlank rest).1] at harrow
    have hstart := prefix_of_prefix_append (by decide) hrest.feed harrow
    have hsuffix : line <:+ skipBlanks t := ⟨source, hline⟩
    exact h.noArrow (hstart.isInfix.trans
      ((List.dropWhile_suffix _).isInfix.trans
        (hsuffix.isInfix.trans (List.dropWhile_suffix _).isInfix)))

end Landscape.Description
