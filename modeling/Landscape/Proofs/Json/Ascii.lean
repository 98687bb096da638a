import Landscape.Proofs.Json.Numbers
import Landscape.Proofs.Json.Strings

/-!
# Printed text is ASCII

Whatever value is printed, its text consists of the printing characters of ASCII and of line feeds.
So no line end has to be unified when it is read from a file, and every character is one byte.
-/

namespace Landscape.Json

open Landscape.Text Number

/-- The characters of printed text: those of ASCII that print, and the line feed. -/
def IsPrinted (c : Char) : Prop := c = '\n' ∨ 0x20 ≤ c.toNat ∧ c.toNat < 0x7f

instance (c : Char) : Decidable (IsPrinted c) := inferInstanceAs (Decidable (_ ∨ _))

/-- Text that has no other characters. -/
def AllPrinted (cs : List Char) : Prop := ∀ c ∈ cs, IsPrinted c

instance (cs : List Char) : Decidable (AllPrinted cs) := List.decidableBAll IsPrinted cs

@[simp] theorem allPrinted_append {cs ds : List Char} :
    AllPrinted (cs ++ ds) ↔ AllPrinted cs ∧ AllPrinted ds := List.forall_mem_append

@[simp] theorem allPrinted_cons {c : Char} {cs : List Char} :
    AllPrinted (c :: cs) ↔ IsPrinted c ∧ AllPrinted cs := List.forall_mem_cons

@[simp] theorem allPrinted_nil : AllPrinted [] := List.forall_mem_nil _

/-- Digits are printed. -/
theorem allPrinted_of_isDigit {cs : List Char} (h : ∀ c ∈ cs, c.isDigit = true) :
    AllPrinted cs := by
  intro c hc
  have hdigit := h c hc
  simp only [Char.isDigit, Bool.and_eq_true, decide_eq_true_eq] at hdigit
  obtain ⟨hlow, hhigh⟩ := hdigit
  have hlow' : '0'.toNat ≤ c.toNat := hlow
  have hhigh' : c.toNat ≤ '9'.toNat := hhigh
  exact .inr ⟨Nat.le_trans (by decide) hlow', Nat.lt_of_le_of_lt hhigh' (by decide)⟩

/-- The escape of a unit is printed. -/
theorem allPrinted_unitEscape {n : Nat} (hn : n < 0x10000) : AllPrinted (unitEscape n) := by
  have hdigit : ∀ d < 0x10, IsPrinted d.digitChar := by decide
  rw [unitEscape, hexDigits_four hn]
  simp only [allPrinted_cons, allPrinted_nil, and_true]
  exact ⟨by decide, by decide, hdigit _ (by omega), hdigit _ (by omega), hdigit _ (by omega),
    hdigit _ (by omega)⟩

/-- The escapes of a pair are printed. -/
theorem allPrinted_pair {n : Nat} (hn : n < 0x100000) :
    AllPrinted (unitEscape (0xd800 + n / 0x400) ++ unitEscape (0xdc00 + n % 0x400)) := by
  have hhigh : 0xd800 + n / 0x400 < 0x10000 := by omega
  have hlow : 0xdc00 + n % 0x400 < 0x10000 := by omega
  generalize 0xd800 + n / 0x400 = high at *
  generalize 0xdc00 + n % 0x400 = low at *
  exact allPrinted_append.mpr ⟨allPrinted_unitEscape hhigh, allPrinted_unitEscape hlow⟩

/-- An escaped character is printed. -/
theorem allPrinted_escapeChar (c : Char) : AllPrinted (escapeChar c) := by
  by_cases hplain : isPlain c = true
  · rcases escapeChar_of_plain hplain with ⟨d, h, -, hd⟩ | ⟨h, hlow, hhigh, -⟩
    · rw [h]
      exact allPrinted_cons.mpr ⟨by decide, allPrinted_cons.mpr ⟨.inr hd, allPrinted_nil⟩⟩
    · rw [h]
      exact allPrinted_cons.mpr ⟨.inr ⟨hlow, hhigh⟩, allPrinted_nil⟩
  · rw [escapeChar_of_not_plain (Bool.eq_false_iff.mpr hplain)]
    split
    next hsmall => exact allPrinted_unitEscape hsmall
    next hgreat =>
      have hoffset : c.toNat - 0x10000 < 0x100000 := by
        have hlast := toNat_lt c
        omega
      exact allPrinted_pair hoffset

/-- A printed string is printed throughout. -/
theorem allPrinted_stringText (t : Text) : AllPrinted (stringText t).toList := by
  have hsymbol (s : Symbol) : AllPrinted (escapeSymbol s) := by
    cases s with
    | char c => exact allPrinted_escapeChar c
    | half n => exact allPrinted_unitEscape (code_half_lt n)
  have hbody : AllPrinted (t.flatMap escapeSymbol) := by
    intro c hc
    obtain ⟨s, -, hs⟩ := List.mem_flatMap.mp hc
    exact hsymbol s c hs
  rw [toList_stringText]
  exact allPrinted_cons.mpr ⟨by decide, allPrinted_append.mpr ⟨hbody, by decide⟩⟩

/-- A minus sign is printed. -/
theorem allPrinted_minus (negative : Bool) : AllPrinted (Numeral.minus negative) := by
  cases negative with
  | true => decide
  | false => decide

/-- A numeral is printed throughout. -/
theorem allPrinted_numeral {n : Numeral} (hn : n.Valid) : AllPrinted n.chars := by
  have hfraction : AllPrinted n.fractionChars := by
    unfold Numeral.fractionChars
    split
    · exact allPrinted_nil
    · exact allPrinted_cons.mpr ⟨by decide, allPrinted_of_isDigit hn.fraction_digits⟩
  have hexponent : AllPrinted n.exponentChars := by
    unfold Numeral.exponentChars
    split
    · exact allPrinted_nil
    next negative digits h =>
      have hsign : IsPrinted (if negative then '-' else '+') := by
        cases negative with
        | true => decide
        | false => decide
      have hdigits := allPrinted_of_isDigit (hn.exponent_digits _ h).2
      exact allPrinted_cons.mpr ⟨by decide, allPrinted_cons.mpr ⟨hsign, hdigits⟩⟩
  exact allPrinted_append.mpr ⟨allPrinted_of_isDigit hn.whole_digits,
    allPrinted_append.mpr ⟨hfraction, hexponent⟩⟩

/-- A printed scalar is printed throughout. -/
theorem allPrinted_scalarText (s : Scalar) : AllPrinted (scalarText s).toList := by
  cases s with
  | null => decide
  | bool b =>
    cases b with
    | true => decide
    | false => decide
  | int n =>
    change AllPrinted (toString n : String).toList
    rw [toList_toString_int]
    exact allPrinted_append.mpr ⟨allPrinted_minus _, allPrinted_of_isDigit isDigit_toDigits⟩
  | float x =>
    change AllPrinted (numberText x).toList
    unfold numberText
    cases h : Binary.ofFloat x with
    | nan => exact (by decide : AllPrinted "NaN".toList)
    | infinite negative =>
      cases negative with
      | true => exact (by decide : AllPrinted "-Infinity".toList)
      | false => exact (by decide : AllPrinted "Infinity".toList)
    | finite negative significand exponent =>
      obtain ⟨n, hn, htext, -⟩ := text_eq_numeral h
      change AllPrinted (Number.text x).toList
      rw [htext]
      exact allPrinted_append.mpr ⟨allPrinted_minus negative, allPrinted_numeral hn⟩
  | text t => exact allPrinted_stringText t

/-- A line break with its indentation is printed. -/
theorem allPrinted_line (layout : Layout) (depth : Nat) :
    AllPrinted (layout.line depth).toList := by
  cases layout with
  | oneLine => exact (by decide : AllPrinted "".toList)
  | indented width =>
    have hspace : AllPrinted (List.replicate (width * depth) ' ') := by
      intro c hc
      rw [(List.mem_replicate.mp hc).2]
      decide
    simp only [Layout.line, String.toList_append, String.toList_ofList, allPrinted_append, hspace,
      and_true]
    decide

/-- A separator is printed. -/
theorem allPrinted_separator (layout : Layout) (depth : Nat) :
    AllPrinted (layout.separator depth).toList := by
  cases layout with
  | oneLine => exact (by decide : AllPrinted ", ".toList)
  | indented width =>
    simp only [Layout.separator, String.toList_append, allPrinted_append, allPrinted_line, and_true]
    decide

mutual

/-- Printed values are printed throughout. -/
theorem allPrinted_printAt (layout : Layout) (depth : Nat) :
    (d : Json) → AllPrinted (printAt layout depth d).toList
  | .scalar s => by
    rw [printAt]
    exact allPrinted_scalarText s
  | .list [] => by
    rw [printAt]
    decide
  | .list (x :: xs) => by
    simp only [printAt, String.toList_append, allPrinted_append, allPrinted_line,
      allPrinted_printAt layout (depth + 1) x, allPrinted_printItems layout (depth + 1) xs]
    decide
  | .record [] => by
    rw [printAt]
    decide
  | .record ((k, x) :: fs) => by
    simp only [printAt, String.toList_append, allPrinted_append, allPrinted_line,
      allPrinted_stringText, allPrinted_printAt layout (depth + 1) x,
      allPrinted_printFields layout (depth + 1) fs]
    decide

/-- Printed items are printed throughout. -/
theorem allPrinted_printItems (layout : Layout) (depth : Nat) :
    (xs : List Json) → AllPrinted (printItems layout depth xs).toList
  | [] => by
    rw [printItems]
    decide
  | x :: xs => by
    simp only [printItems, String.toList_append, allPrinted_append, allPrinted_separator,
      allPrinted_printAt layout depth x, allPrinted_printItems layout depth xs, and_true]

/-- Printed fields are printed throughout. -/
theorem allPrinted_printFields (layout : Layout) (depth : Nat) :
    (fs : List (Text × Json)) → AllPrinted (printFields layout depth fs).toList
  | [] => by
    rw [printFields]
    decide
  | (k, x) :: fs => by
    simp only [printFields, String.toList_append, allPrinted_append, allPrinted_separator,
      allPrinted_stringText, allPrinted_printAt layout depth x,
      allPrinted_printFields layout depth fs, and_true, true_and]
    decide

end

end Landscape.Json
