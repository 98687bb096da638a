import Landscape.Proofs.Description.Lexeme

/-!
# Statements are read as the grammar has them

The reader of a statement takes what the grammar allows and nothing else. There is one way only to
put a given text together as the grammar says, for each run of blanks or of word characters stops at
something that cannot belong to it. A statement ends within a line.
-/

namespace Landscape.Description

open Landscape.Text

/-- A part of a text ends within a line: its last symbol is no line feed. -/
def EndsInLine (t rest : Text) : Prop :=
  ∃ used last, t = used ++ last :: rest ∧ last ≠ .char '\n'

/-- A reader takes the statements of a grammar, which end within a line. -/
structure Reads {α : Type} (statement? : Text → Option (α × Text))
    (Statement : Text → α → Text → Prop) : Prop where
  eq_some_iff : ∀ {t a rest}, statement? t = some (a, rest) ↔ Statement t a rest
  endsInLine : ∀ {t a rest}, Statement t a rest → EndsInLine t rest

theorem EndsInLine.append {t rest : Text} (h : EndsInLine t rest) (lead : Text) :
    EndsInLine (lead ++ t) rest := by
  obtain ⟨used, last, rfl, hlast⟩ := h
  exact ⟨lead ++ used, last, by simp, hlast⟩

theorem endsInLine_inQuotes (inside rest : Text) : EndsInLine (inQuotes inside ++ rest) rest :=
  ⟨.char '"' :: inside, .char '"', by simp [inQuotes], by decide⟩

theorem IsWord.endsInLine {word : Text} (h : IsWord word) (rest : Text) :
    EndsInLine (word ++ rest) rest := by
  obtain ⟨hne, hword⟩ := h
  refine ⟨word.dropLast, word.getLast hne, ?_, ?_⟩
  · rw [← List.singleton_append, ← List.append_assoc, List.dropLast_concat_getLast hne]
  · intro hlast
    have hlastWord := hword _ (List.getLast_mem hne)
    rw [hlast] at hlastWord
    exact absurd hlastWord (by decide)

theorem QuotedNext.endsInLine {t inside rest : Text} (h : QuotedNext t inside rest) :
    EndsInLine t rest := by
  obtain ⟨hgap, hinside⟩ := h
  rw [List.append_assoc]
  exact (endsInLine_inQuotes inside rest).append _

theorem QuotedIfAny.endsInLine {lead t rest : Text} {q : Option Text} (h : QuotedIfAny t q rest)
    (hlead : EndsInLine (lead ++ t) t) : EndsInLine (lead ++ t) rest := by
  cases h with
  | present h => exact h.endsInLine.append lead
  | absent h => exact hlead

theorem quotedNext_iff {t inside rest : Text} :
    (blanks? t).bind quoted? = some (inside, rest) ↔ QuotedNext t inside rest := by
  rw [Option.bind_eq_some_iff]
  constructor
  · rintro ⟨t', hblanks, hquoted⟩
    obtain ⟨⟨gap, hgap, rfl⟩, _⟩ := blanks?_eq_some_iff.mp hblanks
    obtain ⟨rfl, hinside⟩ := quoted?_eq_some_iff.mp hquoted
    rw [← List.append_assoc]
    exact ⟨hgap, hinside⟩
  · rintro ⟨hgap, hinside⟩
    refine ⟨inQuotes inside ++ rest, ?_, quoted?_eq_some_iff.mpr ⟨rfl, hinside⟩⟩
    rw [List.append_assoc, blanks?_eq_some_iff]
    exact ⟨⟨_, hgap, rfl⟩, head?_inQuotes inside rest⟩

theorem optionalQuoted_eq_iff {t rest : Text} {q : Option Text} :
    optionalQuoted t = (q, rest) ↔ QuotedIfAny t q rest := by
  unfold optionalQuoted
  cases h : (blanks? t).bind quoted? with
  | none =>
    have hnone : ∀ inside rest, ¬QuotedNext t inside rest := by
      intro inside rest hnext
      rw [quotedNext_iff.mpr hnext] at h
      cases h
    constructor
    · intro heq
      obtain ⟨rfl, rfl⟩ := Prod.mk.inj heq
      exact .absent hnone
    · intro hq
      cases hq with
      | present hnext => exact absurd hnext (hnone _ _)
      | absent _ => rfl
  | some found =>
    obtain ⟨inside, tail⟩ := found
    have hnext := quotedNext_iff.mp h
    constructor
    · intro heq
      obtain ⟨rfl, rfl⟩ := Prod.mk.inj heq
      exact .present hnext
    · intro hq
      cases hq with
      | present hnext' =>
        rw [quotedNext_iff.mpr hnext', Option.some.injEq] at h
        obtain ⟨rfl, rfl⟩ := Prod.mk.inj h
        rfl
      | absent hnone => exact absurd hnext (hnone _ _)

theorem technologyIfAny_iff {withTechnology : Bool} {t rest : Text} {technology : Option Text} :
    (if withTechnology then optionalQuoted t else (none, t)) = (technology, rest) ↔
      TechnologyIfAny withTechnology t technology rest := by
  cases withTechnology with
  | true => exact optionalQuoted_eq_iff
  | false =>
    change (none, t) = (technology, rest) ↔ technology = none ∧ rest = t
    rw [Prod.mk.injEq, eq_comm, eq_comm (a := t)]

/-- A declaration is read as the grammar has it. -/
theorem declaration?_eq_some_iff {keyword : Text} (hkeyword : IsWord keyword)
    {withTechnology : Bool} {t rest : Text} {d : Declaration} :
    declaration? keyword withTechnology t = some (d, rest) ↔
      IsDeclaration keyword withTechnology t d rest := by
  constructor
  · intro h
    simp only [declaration?, Option.bind_eq_bind, Option.bind_eq_some_iff, Option.pure_def,
      Prod.exists, Option.some.injEq, Prod.mk.injEq] at h
    obtain ⟨t₁, hkey, t₂, hblanks, id, t₃, hword, t₄, hblanks', name, t₅, hquoted, hd, hrest⟩ := h
    obtain ⟨lead, hlead, ht⟩ := exists_skipBlanks t
    rw [literal?_eq_some_iff.mp hkey] at ht
    obtain ⟨⟨gap, hgap, rfl⟩, _⟩ := blanks?_eq_some_iff.mp hblanks
    obtain ⟨rfl, hid, _⟩ := word?_eq_some_iff.mp hword
    obtain ⟨⟨gap', hgap', rfl⟩, _⟩ := blanks?_eq_some_iff.mp hblanks'
    obtain ⟨rfl, hname⟩ := quoted?_eq_some_iff.mp hquoted
    subst hd hrest
    have hassoc : t = lead ++ keyword ++ gap ++ id ++ gap' ++ inQuotes name ++ t₅ := by
      simp only [ht, List.append_assoc]
    rw [hassoc]
    exact ⟨hlead, hgap, hid, hgap', hname, technologyIfAny_iff.mp rfl⟩
  · intro h
    obtain ⟨hlead, hgap, hid, hgap', hname, htechnology⟩ := h
    rename_i lead gap id gap' name t technology
    simp only [List.append_assoc]
    have hskip := skipBlanks_append hlead
      (hkeyword.head? (gap ++ (id ++ (gap' ++ (inQuotes name ++ t)))))
    have hkey : literal? keyword (keyword ++ (gap ++ (id ++ (gap' ++ (inQuotes name ++ t))))) =
        some (gap ++ (id ++ (gap' ++ (inQuotes name ++ t)))) := literal?_eq_some_iff.mpr rfl
    have hblanks : blanks? (gap ++ (id ++ (gap' ++ (inQuotes name ++ t)))) =
        some (id ++ (gap' ++ (inQuotes name ++ t))) :=
      blanks?_eq_some_iff.mpr ⟨⟨gap, hgap, rfl⟩, hid.head? _⟩
    have hword : word? (id ++ (gap' ++ (inQuotes name ++ t))) =
        some (id, gap' ++ (inQuotes name ++ t)) :=
      word?_eq_some_iff.mpr ⟨rfl, hid, hgap'.head? _⟩
    have hblanks' : blanks? (gap' ++ (inQuotes name ++ t)) = some (inQuotes name ++ t) :=
      blanks?_eq_some_iff.mpr ⟨⟨gap', hgap', rfl⟩, head?_inQuotes name t⟩
    have hquoted : quoted? (inQuotes name ++ t) = some (name, t) :=
      quoted?_eq_some_iff.mpr ⟨rfl, hname⟩
    have htech := technologyIfAny_iff.mpr htechnology
    simp only [declaration?, hskip, hkey, hblanks, hword, hblanks', hquoted, htech,
      Option.bind_eq_bind, Option.bind_some, Option.pure_def]

/-- Declarations are read as the grammar has them, and end within a line. -/
theorem reads_declaration {keyword : Text} (hkeyword : IsWord keyword) (withTechnology : Bool) :
    Reads (declaration? keyword withTechnology) (IsDeclaration keyword withTechnology) where
  eq_some_iff := declaration?_eq_some_iff hkeyword
  endsInLine := by
    intro t d rest h
    cases h with
    | @mk lead gap id gap' name t _ technology _ _ _ _ _ htechnology =>
      have hname := (endsInLine_inQuotes name t).append (lead ++ keyword ++ gap ++ id ++ gap')
      rw [← List.append_assoc] at hname
      cases withTechnology with
      | true => exact QuotedIfAny.endsInLine htechnology hname
      | false =>
        obtain ⟨_, rfl⟩ := htechnology
        exact hname

/-- The arrow of a relation begins with nothing that could belong to what stands before it. -/
theorem head?_arrow (rest : Text) : ∀ s ∈ (("->" : Text) ++ rest).head?,
    s.isA isBlank = false ∧ s.isA Text.isWord = false := by
  intro s hs
  obtain rfl : .char '-' = s := by simpa [ofString, ofChars] using hs
  decide

/-- The word before an arrow ends at blanks or at the arrow. -/
theorem head?_spaceArrow {space : Text} (hspace : IsBlanks space) (rest : Text) :
    ∀ s ∈ (space ++ (("->" : Text) ++ rest)).head?, s.isA Text.isWord = false := by
  cases space with
  | nil => exact fun s hs => (head?_arrow rest s hs).2
  | cons s space => exact IsGap.head? ⟨List.cons_ne_nil s space, hspace⟩ _

/-- A relation is read as the grammar has it. -/
theorem arrow?_eq_some_iff {t rest : Text} {a : Arrow} :
    arrow? t = some (a, rest) ↔ IsArrow t a rest := by
  constructor
  · intro h
    simp only [arrow?, Option.bind_eq_bind, Option.bind_eq_some_iff, Option.pure_def,
      Prod.exists, Option.some.injEq, Prod.mk.injEq] at h
    obtain ⟨source, t₁, hsource, t₂, harrow, target, t₃, htarget, ha, hrest⟩ := h
    obtain ⟨lead, hlead, ht⟩ := exists_skipBlanks t
    obtain ⟨hsource', hsource, _⟩ := word?_eq_some_iff.mp hsource
    obtain ⟨space, hspace, ht₁⟩ := exists_skipBlanks t₁
    rw [literal?_eq_some_iff.mp harrow] at ht₁
    obtain ⟨space', hspace', ht₂⟩ := exists_skipBlanks t₂
    obtain ⟨htarget', htarget, hwhole⟩ := word?_eq_some_iff.mp htarget
    subst ha hrest
    have hassoc : t = lead ++ source ++ space ++ "->" ++ space' ++ target ++ t₃ := by
      rw [ht, hsource', ht₁, ht₂, htarget']
      simp only [List.append_assoc]
    rw [hassoc]
    exact ⟨hlead, hsource, hspace, hspace', htarget, hwhole, optionalQuoted_eq_iff.mp rfl⟩
  · intro h
    obtain ⟨hlead, hsource, hspace, hspace', htarget, hwhole, hlabel⟩ := h
    rename_i lead source space space' target t label
    simp only [List.append_assoc]
    have hskip := skipBlanks_append hlead
      (hsource.head? (space ++ ("->" ++ (space' ++ (target ++ t)))))
    have hword : word? (source ++ (space ++ ("->" ++ (space' ++ (target ++ t))))) =
        some (source, space ++ ("->" ++ (space' ++ (target ++ t)))) :=
      word?_eq_some_iff.mpr ⟨rfl, hsource, head?_spaceArrow hspace _⟩
    have hskip' : skipBlanks (space ++ ("->" ++ (space' ++ (target ++ t)))) =
        "->" ++ (space' ++ (target ++ t)) :=
      skipBlanks_append hspace fun s hs => (head?_arrow _ s hs).1
    have harrow : literal? "->" ("->" ++ (space' ++ (target ++ t))) =
        some (space' ++ (target ++ t)) := literal?_eq_some_iff.mpr rfl
    have hskip'' : skipBlanks (space' ++ (target ++ t)) = target ++ t :=
      skipBlanks_append hspace' (htarget.head? t)
    have hword' : word? (target ++ t) = some (target, t) :=
      word?_eq_some_iff.mpr ⟨rfl, htarget, hwhole⟩
    have hquoted := optionalQuoted_eq_iff.mpr hlabel
    simp only [arrow?, hskip, hword, hskip', harrow, hskip'', hword', hquoted,
      Option.bind_eq_bind, Option.bind_some, Option.pure_def]

/-- Relations are read as the grammar has them, and end within a line. -/
theorem reads_arrow : Reads arrow? IsArrow where
  eq_some_iff := arrow?_eq_some_iff
  endsInLine := by
    intro t a rest h
    cases h with
    | @mk lead source space space' target t _ label _ _ _ _ htarget _ hlabel =>
      have hword := (htarget.endsInLine t).append (lead ++ source ++ space ++ "->" ++ space')
      rw [← List.append_assoc] at hword
      exact hlabel.endsInLine hword

end Landscape.Description
