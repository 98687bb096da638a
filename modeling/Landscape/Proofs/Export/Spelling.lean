import Landscape.Json.Shown
import Landscape.Proofs.Export.Tokens
import Landscape.Proofs.Number.Numeral

/-!
# How numbers and lists are spelled in graphs

A number that stands as an attribute is one word: it has no symbol that is a token, and a minus sign
only before a digit or a letter. Numbers and lists that stand in comments hold no line feed, since a
list shows its texts in quotes.
-/

namespace Landscape

/-- The texts of two strings make up the text of both. -/
theorem Text.ofString_append (s t : String) :
    Text.ofString (s ++ t) = Text.ofString s ++ Text.ofString t := by
  simp [Text.ofString, Text.ofChars]

/-- A character is in the text of a string when it is in the string. -/
theorem Text.char_mem_ofString {c : Char} {s : String} :
    .char c ∈ Text.ofString s ↔ c ∈ s.toList := by
  simp [Text.ofString, Text.ofChars]

namespace Number

open Dot (IsPlain)

/-- The characters of written numbers. -/
def IsNumeric (c : Char) : Prop := IsPlain c ∨ c = '-'

instance (c : Char) : Decidable (IsNumeric c) := inferInstanceAs (Decidable (_ ∨ _))

/-- Characters that are written in no number. -/
theorem IsNumeric.ne {c d : Char} (h : IsNumeric c) (hd : ¬IsNumeric d) : c ≠ d :=
  fun heq => hd (heq ▸ h)

theorem isPlain_of_isDigit {c : Char} (h : c.isDigit = true) : IsPlain c :=
  .inl (by simp [Char.isAlphanum, h])

/-- The digits of a natural are plain. -/
theorem isPlain_toString (n : Nat) : ∀ c ∈ (toString n : String).toList, IsPlain c := by
  rw [Nat.toString_eq_ofList_toDigits, String.toList_ofList]
  exact fun c hc => isPlain_of_isDigit (isDigit_toDigits c hc)

theorem toString_ne_nil (n : Nat) : (toString n : String).toList ≠ [] := by
  rw [Nat.toString_eq_ofList_toDigits, String.toList_ofList]
  exact Nat.toDigits_ne_nil

theorem isPlain_zeros (n : Nat) : ∀ c ∈ (zeros n).toList, IsPlain c := by
  rw [zeros, String.toList_ofList]
  exact fun c hc => isPlain_of_isDigit (isDigit_replicate c hc)

/-- A sign in front of plain characters. -/
theorem isNumeric_withSign {t : String} (h : ∀ c ∈ t.toList, IsPlain c) (negative : Bool) :
    ∀ c ∈ (withSign negative t).toList, IsNumeric c := by
  intro c hc
  cases negative with
  | false => exact .inl (h c hc)
  | true =>
    have hminus : (withSign true t).toList = '-' :: t.toList := by simp [withSign]
    rw [hminus, List.mem_cons] at hc
    exact hc.elim .inr fun hc => .inl (h c hc)

/-- A count of decimal places is plain. -/
theorem isPlain_placed (places count : Nat) : ∀ c ∈ (placed places count).toList, IsPlain c := by
  have hpadded : ∀ c ∈ (zeros (places + 1 - (toString count : String).length)
      ++ toString count).toList, IsPlain c := by
    rw [String.toList_append]
    exact List.forall_mem_append.mpr ⟨isPlain_zeros _, isPlain_toString count⟩
  unfold placed
  dsimp only
  generalize zeros (places + 1 - (toString count : String).length) ++ toString count = padded at *
  split
  · exact hpadded
  · simp only [String.toList_append, List.forall_mem_append]
    refine ⟨⟨fun c hc => hpadded c ?_, Dot.forall_mem_of_all (by decide)⟩, fun c hc => hpadded c ?_⟩
    · exact List.mem_of_mem_take (by simpa using hc)
    · exact List.mem_of_mem_drop (by simpa using hc)

/-- A number with a fixed count of decimal places has the characters of numbers only. -/
theorem isNumeric_fixed (places : Nat) (x : Float) :
    ∀ c ∈ (fixed places x).toList, IsNumeric c := by
  unfold fixed
  split
  · exact Dot.forall_mem_of_all (by decide)
  next negative _ => exact isNumeric_withSign (Dot.forall_mem_of_all (by decide)) negative
  next negative _ _ _ => exact isNumeric_withSign (isPlain_placed _ _) negative

/-- What is written in no number is not in one with a fixed count of decimal places. -/
theorem char_notMem_fixed {c : Char} (h : ¬IsNumeric c) (places : Nat) (x : Float) :
    .char c ∉ (fixed places x : Text) := by
  rw [Text.char_mem_ofString]
  exact fun hmem => h (isNumeric_fixed places x c hmem)

/-- A text of characters that begins a word or goes on with it. -/
def BeginsWord (cs : List Char) : Prop :=
  ∃ c rest, cs = c :: rest ∧ IsPlain c ∧ Dot.Continues (Text.ofChars rest)

/-- Plain characters begin a word. -/
theorem beginsWord_of_isPlain {cs : List Char} (hne : cs ≠ []) (h : ∀ c ∈ cs, IsPlain c) :
    BeginsWord cs := by
  cases cs with
  | nil => exact absurd rfl hne
  | cons c cs =>
    rw [List.forall_mem_cons] at h
    exact ⟨c, cs, rfl, h.1, Dot.continues_of_isPlain h.2⟩

/-- A word goes on behind what begins it. -/
theorem BeginsWord.append {cs ds : List Char} (hc : BeginsWord cs)
    (hd : Dot.Continues (Text.ofChars ds)) : BeginsWord (cs ++ ds) := by
  obtain ⟨c, rest, rfl, hplain, hrest⟩ := hc
  refine ⟨c, rest ++ ds, rfl, hplain, ?_⟩
  have happend : Text.ofChars (rest ++ ds) = Text.ofChars rest ++ Text.ofChars ds := by
    simp [Text.ofChars]
  rw [happend]
  exact hrest.append hd

/-- With a sign or without one, what begins a word is one. -/
theorem BeginsWord.continues_withSign {t : String} (h : BeginsWord t.toList) (negative : Bool) :
    Dot.Continues (withSign negative t) ∧ (withSign negative t : Text) ≠ [] := by
  obtain ⟨c, rest, heq, hplain, hrest⟩ := h
  cases negative with
  | false =>
    have ht : (withSign false t : Text) = Text.ofChars [c] ++ Text.ofChars rest := by
      simp [withSign, Text.ofString, Text.ofChars, heq]
    rw [ht]
    exact ⟨(Dot.continues_of_isPlain (by simpa using hplain)).append hrest, List.cons_ne_nil _ _⟩
  | true =>
    have ht : (withSign true t : Text) = [.char '-', .char c] ++ Text.ofChars rest := by
      simp [withSign, Text.ofString, Text.ofChars, heq]
    rw [ht]
    exact ⟨(Dot.continues_minus hplain).append hrest, List.cons_ne_nil _ _⟩

/-- Digits with a point begin a word. -/
theorem beginsWord_positional {t : String} (hne : t.toList ≠ [])
    (ht : ∀ c ∈ t.toList, IsPlain c) (point : Int) : BeginsWord (positional t point "").toList := by
  unfold positional
  split
  · have hzero : ∀ c ∈ "0.".toList, IsPlain c := Dot.forall_mem_of_all (by decide)
    simp only [String.toList_append]
    apply beginsWord_of_isPlain
    · simp
    · simp only [List.forall_mem_append]
      exact ⟨⟨hzero, isPlain_zeros _⟩, ht⟩
  split
  · have hnone : ∀ c ∈ "".toList, IsPlain c := Dot.forall_mem_of_all (by decide)
    simp only [String.toList_append]
    apply beginsWord_of_isPlain
    · simp [hne]
    · simp only [List.forall_mem_append]
      exact ⟨⟨ht, isPlain_zeros _⟩, hnone⟩
  · have hsplit : ((t.take point.toNat).toString ++ "." ++ (t.drop point.toNat).toString).toList =
        t.toList.take point.toNat ++ '.' :: t.toList.drop point.toNat := by
      simp
    rw [hsplit]
    exact beginsWord_of_isPlain (by simp) (List.forall_mem_append.mpr
      ⟨fun c hc => ht c (List.mem_of_mem_take hc),
        List.forall_mem_cons.mpr ⟨by decide, fun c hc => ht c (List.mem_of_mem_drop hc)⟩⟩)

/-- An exponent goes on with a word. -/
theorem continues_exponentText (e : Int) :
    Dot.Continues (Text.ofChars (exponentText e).toList) := by
  obtain ⟨ds, heq, hne, hdigits, -⟩ := toList_exponentText e
  have hplain : ∀ c ∈ ds, IsPlain c := fun c hc => isPlain_of_isDigit (hdigits c hc)
  rw [heq]
  split
  · cases ds with
    | nil => exact absurd rfl hne
    | cons d ds =>
      rw [List.forall_mem_cons] at hplain
      have hletter : Dot.Continues (Text.ofChars ['e']) :=
        Dot.continues_of_isPlain (List.forall_mem_singleton.mpr (by decide))
      exact hletter.append ((Dot.continues_minus hplain.1).append
        (Dot.continues_of_isPlain hplain.2))
  · exact Dot.continues_of_isPlain
      (List.forall_mem_cons.mpr ⟨by decide, List.forall_mem_cons.mpr ⟨by decide, hplain⟩⟩)

/-- Digits in scientific form begin a word. -/
theorem beginsWord_scientific {t : String} (hne : t.toList ≠ [])
    (ht : ∀ c ∈ t.toList, IsPlain c) (e : Int) : BeginsWord (scientific t e).toList := by
  have hfirst : BeginsWord (t.take 1).toString.toList := by
    refine beginsWord_of_isPlain ?_ fun c hc => ht c (List.mem_of_mem_take (by simpa using hc))
    simpa using hne
  have htail : ∀ c ∈ (if (t.drop 1).toString.isEmpty then ""
      else "." ++ (t.drop 1).toString).toList, IsPlain c := by
    split
    · exact Dot.forall_mem_of_all (by decide)
    · have hpoint : ∀ c ∈ ".".toList, IsPlain c := Dot.forall_mem_of_all (by decide)
      rw [String.toList_append, List.forall_mem_append]
      exact ⟨hpoint, fun c hc => ht c (List.mem_of_mem_tail (by simpa using hc))⟩
  simp only [scientific, String.toList_append]
  exact (hfirst.append (Dot.continues_of_isPlain htail)).append (continues_exponentText e)

/-- A number with at most six digits is a word. -/
theorem continues_general (x : Float) :
    Dot.Continues (general x) ∧ (general x : Text) ≠ [] := by
  have hinfinity : BeginsWord "inf".toList :=
    beginsWord_of_isPlain (by decide) (Dot.forall_mem_of_all (by decide))
  have hzero : BeginsWord "0".toList :=
    beginsWord_of_isPlain (by decide) (Dot.forall_mem_of_all (by decide))
  unfold general
  split
  · exact ⟨Dot.continues_of_isPlain (Dot.forall_mem_of_all (by decide)), by decide⟩
  next negative _ => exact hinfinity.continues_withSign negative
  next negative _ _ => exact hzero.continues_withSign negative
  next negative significand exponent _ _ =>
    dsimp only
    split
    · exact (beginsWord_positional (toString_ne_nil _) (isPlain_toString _) _).continues_withSign _
    · exact (beginsWord_scientific (toString_ne_nil _) (isPlain_toString _) _).continues_withSign _

end Number

namespace Text

/-- Hexadecimal digits keep to their line. -/
theorem not_feed_hexDigits (width n : Nat) : '\n' ∉ hexDigits width n := by
  have hdigits : '\n' ∉ Nat.toDigits 16 n := by
    induction n using Nat.strongRecOn with
    | ind n ih =>
      have hdigit : ∀ d < 16, '\n' ≠ d.digitChar := by decide
      rcases Nat.lt_or_ge n 16 with hlt | hge
      · rw [Nat.toDigits_of_lt_base hlt, List.mem_singleton]
        exact hdigit n hlt
      · rw [Nat.toDigits_of_base_le (by decide) hge, List.mem_append, List.mem_singleton, not_or]
        exact ⟨ih (n / 16) (by omega), hdigit (n % 16) (by omega)⟩
  have hzeros : '\n' ∉ List.replicate (width - (Nat.toDigits 16 n).length) '0' := by
    simp
  exact fun h => (List.mem_append.mp h).elim hzeros hdigits

/-- A shown code point keeps to its line. -/
theorem not_feed_showCode (n : Nat) : '\n' ∉ showCode n := by
  have hback (c : Char) (hc : '\n' ≠ c) (width : Nat) : '\n' ∉ '\\' :: c :: hexDigits width n := by
    simp [hc, not_feed_hexDigits]
  unfold showCode
  split
  · exact hback 'x' (by decide) 2
  split
  · exact hback 'u' (by decide) 4
  · exact hback 'U' (by decide) 8

/-- A symbol between quotes keeps to its line. -/
theorem not_feed_showSymbol {quote : Char} (hquote : '\n' ≠ quote) (s : Symbol) :
    '\n' ∉ showSymbol quote s := by
  cases s with
  | half n => exact not_feed_showCode _
  | char c =>
    change '\n' ∉ showChar quote c
    unfold showChar
    split
    next hsame =>
      have hne : '\n' ≠ c := by
        rintro rfl
        exact hquote (by simpa using hsame)
      simp [hne]
    split
    · decide
    next hfeed =>
      have hne : '\n' ≠ c := fun heq => hfeed (beq_iff_eq.mpr heq.symm)
      split
      · decide
      split
      · decide
      split
      · simp [hne]
      · exact not_feed_showCode _

/-- A quoted text keeps to its line. -/
theorem not_feed_quoted (t : Text) : '\n' ∉ (quoted t).toList := by
  have hquote : '\n' ≠ quoteFor t := by
    unfold quoteFor
    split <;> decide
  have hinside : '\n' ∉ t.flatMap (showSymbol (quoteFor t)) := by
    rw [List.mem_flatMap]
    rintro ⟨s, -, hs⟩
    exact not_feed_showSymbol hquote s hs
  simp [quoted, hquote, hinside]

end Text

/-- What is in no part and not between them is not in the whole. -/
theorem not_mem_intercalate {α : Type} {a : α} {separator : List α} {parts : List (List α)}
    (hseparator : a ∉ separator) (hparts : ∀ part ∈ parts, a ∉ part) :
    a ∉ separator.intercalate parts := by
  induction parts with
  | nil => simp
  | cons part parts ih =>
    rw [List.forall_mem_cons] at hparts
    cases parts with
    | nil => simpa using hparts.1
    | cons next parts =>
      rw [List.intercalate_cons_cons, List.mem_append, List.mem_append, not_or, not_or]
      exact ⟨⟨hparts.1, hseparator⟩, ih hparts.2⟩

/-- A list of texts keeps to its line when it is shown. -/
theorem Json.not_feed_shown (ts : List Text) :
    '\n' ∉ (Json.list (ts.map .text)).shown.toList := by
  have hitems : shownItems (ts.map .text) = ts.map Text.quoted := by
    induction ts with
    | nil => rfl
    | cons t ts ih =>
      rw [List.map_cons, shownItems, ih]
      rfl
  have hjoined : '\n' ∉ (", ".intercalate (ts.map Text.quoted)).toList := by
    rw [String.toList_intercalate]
    refine not_mem_intercalate (by decide) fun part hpart => ?_
    obtain ⟨t, ht, rfl⟩ := List.mem_map.mp hpart
    obtain ⟨t, -, rfl⟩ := List.mem_map.mp ht
    exact Text.not_feed_quoted t
  rw [shown, hitems, String.toList_append, String.toList_append, List.mem_append, List.mem_append,
    not_or, not_or]
  exact ⟨⟨by decide, hjoined⟩, by decide⟩

end Landscape
