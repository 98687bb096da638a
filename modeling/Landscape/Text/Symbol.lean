/-!
# Texts

A text is a list of symbols. Nearly all symbols are characters; a document may also hold one half of
a surrogate pair without its partner, which is no character and is kept as what it is. Symbols are
ordered by code point, the halves among them. Main statements: a string is a text of its characters
and of nothing else.
-/

namespace Landscape

/-- A symbol: a character, or half of a surrogate pair that stands alone. -/
inductive Symbol where
  | char (c : Char)
  | half (n : Fin 0x800)
  deriving DecidableEq, Repr

namespace Symbol

instance : Coe Char Symbol := ⟨.char⟩

instance : Inhabited Symbol := ⟨.char ' '⟩

/-- The code point of a symbol. -/
def code : Symbol → Nat
  | .char c => c.toNat
  | .half n => 0xd800 + n

instance : LT Symbol := ⟨fun a b => a.code < b.code⟩

instance : DecidableLT Symbol := fun a b => inferInstanceAs (Decidable (a.code < b.code))

/-- The symbol of a code point, if there is one. -/
def ofCode? (n : Nat) : Option Symbol :=
  if n.isValidChar then some (.char (Char.ofNat n))
  else if h : n - 0xd800 < 0x800 then some (.half ⟨n - 0xd800, h⟩)
  else none

/-- Whether a symbol is a character with a property. -/
def isA (p : Char → Bool) : Symbol → Bool
  | .char c => p c
  | .half _ => false

end Symbol

/-- A text. -/
abbrev Text := List Symbol

namespace Text

/-- The text of some characters. -/
def ofChars (cs : List Char) : Text := cs.map .char

/-- The text of a string. -/
def ofString (s : String) : Text := ofChars s.toList

instance : Coe String Text := ⟨ofString⟩

/-- The characters of a text, if it has no other symbols. -/
def chars? : Text → Option (List Char)
  | [] => some []
  | .char c :: rest => (chars? rest).map (c :: ·)
  | .half _ :: _ => none

/-- Texts with a separator between each two. -/
def joinWith (separator : Text) (texts : List Text) : Text := separator.intercalate texts

/-- Whether a text ends with another one. -/
def endsWith (t ending : Text) : Bool := ending.isSuffixOf t

/-- A string has no symbols but characters. -/
@[simp] theorem chars?_ofChars (cs : List Char) : chars? (ofChars cs) = some cs := by
  induction cs with
  | nil => rfl
  | cons c rest ih => simpa [ofChars, chars?] using ih

/-- The characters of a text make it up. -/
theorem ofChars_of_chars? {t : Text} {cs : List Char} (h : chars? t = some cs) : ofChars cs = t := by
  induction t generalizing cs with
  | nil => simp_all [chars?, ofChars]
  | cons s rest ih =>
    cases s with
    | half n => simp [chars?] at h
    | char c =>
      obtain ⟨ds, hd, rfl⟩ := Option.map_eq_some_iff.1 h
      exact congrArg (Symbol.char c :: ·) (ih hd)

/-- Different strings are different texts. -/
theorem ofString_inj {s t : String} : ofString s = ofString t ↔ s = t := by
  constructor
  · intro h
    have hc := congrArg chars? h
    simp only [ofString, chars?_ofChars, Option.some.injEq] at hc
    exact String.toList_inj.1 hc
  · rintro rfl
    rfl

end Text

end Landscape
