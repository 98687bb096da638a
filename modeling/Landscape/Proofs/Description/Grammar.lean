import Landscape.Description

/-!
# The grammar of descriptions

What a statement is, said by how a text is put together and not by how it is read: blanks, keywords,
words and quoted parts in a row, with nothing said about where one of them has to stop, except for
the word that may end a statement. A scan takes the first place at the beginning of a line where a
statement stands, and goes on behind that statement.
-/

namespace Landscape.Description

open Landscape.Text

/-- A text of blanks only, perhaps none. -/
def IsBlanks (t : Text) : Prop := ∀ s ∈ t, s.isA isBlank = true

/-- At least one blank and nothing else. -/
def IsGap (t : Text) : Prop := t ≠ [] ∧ IsBlanks t

/-- At least one word character and nothing else. -/
def IsWord (t : Text) : Prop := t ≠ [] ∧ ∀ s ∈ t, s.isA isWord = true

/-- What may stand between double quotes: anything but nothing and the double quote. -/
def IsQuotable (t : Text) : Prop := t ≠ [] ∧ .char '"' ∉ t

/-- A text in double quotes. -/
def inQuotes (t : Text) : Text := .char '"' :: (t ++ [.char '"'])

/-- A gap and a quoted text, before a given rest. -/
inductive QuotedNext : Text → Text → Text → Prop
  | mk {gap inside rest : Text} (hgap : IsGap gap) (hinside : IsQuotable inside) :
    QuotedNext (gap ++ inQuotes inside ++ rest) inside rest

/-- A quoted text that is taken wherever it stands, and may be absent. -/
inductive QuotedIfAny : Text → Option Text → Text → Prop
  | present {t inside rest : Text} (h : QuotedNext t inside rest) : QuotedIfAny t (some inside) rest
  | absent {t : Text} (h : ∀ inside rest, ¬QuotedNext t inside rest) : QuotedIfAny t none t

/-- What may follow the name in a declaration. -/
def TechnologyIfAny (withTechnology : Bool) (t : Text) (technology : Option Text) (rest : Text) :
    Prop :=
  if withTechnology then QuotedIfAny t technology rest else technology = none ∧ rest = t

/-- A declaration with a keyword at the beginning of a text, before a given rest. -/
inductive IsDeclaration (keyword : Text) (withTechnology : Bool) : Text → Declaration → Text → Prop
  | mk {lead gap id gap' name t rest : Text} {technology : Option Text} (hlead : IsBlanks lead)
    (hgap : IsGap gap) (hid : IsWord id) (hgap' : IsGap gap') (hname : IsQuotable name)
    (htechnology : TechnologyIfAny withTechnology t technology rest) :
    IsDeclaration keyword withTechnology
      (lead ++ keyword ++ gap ++ id ++ gap' ++ inQuotes name ++ t) ⟨id, name, technology⟩ rest

/-- A relation at the beginning of a text, before a given rest; its second word is a whole one. -/
inductive IsArrow : Text → Arrow → Text → Prop
  | mk {lead source space space' target t rest : Text} {label : Option Text} (hlead : IsBlanks lead)
    (hsource : IsWord source) (hspace : IsBlanks space) (hspace' : IsBlanks space')
    (htarget : IsWord target) (hwhole : ∀ s ∈ t.head?, s.isA Text.isWord = false)
    (hlabel : QuotedIfAny t label rest) :
    IsArrow (lead ++ source ++ space ++ "->" ++ space' ++ target ++ t) ⟨source, target, label⟩ rest

/-- A place at the beginning of a line. -/
def AtLineStart (t : Text) (place : Nat) : Prop :=
  place = 0 ∨ t[place - 1]? = some (.char '\n')

/-- No statement stands at a place. -/
def NoneAt {α : Type} (Statement : Text → α → Text → Prop) (t : Text) (place : Nat) : Prop :=
  AtLineStart t place → ∀ a rest, ¬Statement (t.drop place) a rest

/-- The statements that a scan takes from a place on, each one the first at the beginning of a line,
the next one from where it ends. -/
inductive Scans {α : Type} (Statement : Text → α → Text → Prop) (t : Text) : Nat → List α → Prop
  | done {cursor : Nat} (h : ∀ place, cursor ≤ place → NoneAt Statement t place) :
    Scans Statement t cursor []
  | next {cursor place : Nat} {a : α} {rest : Text} {found : List α} (hle : cursor ≤ place)
    (hstart : AtLineStart t place) (ha : Statement (t.drop place) a rest)
    (hfirst : ∀ earlier, cursor ≤ earlier → earlier < place → NoneAt Statement t earlier)
    (hfound : Scans Statement t (t.length - rest.length) found) :
    Scans Statement t cursor (a :: found)

end Landscape.Description
