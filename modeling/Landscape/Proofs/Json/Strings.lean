import Landscape.Json.Printer
import Landscape.Json.Reader
import Mathlib.Data.List.Chain

/-!
# Reading back strings

A printed string is read piece by piece: what was escaped as one or two 16-bit units comes back as
those units, and joining them gives the symbols that were written. The only texts that change are
those in which the two halves of a character stand side by side, since they come back as that
character.
-/

namespace Landscape.Json

open Landscape.Text

theorem hexDigits_four {n : Nat} (hn : n < 0x10000) :
    hexDigits 4 n = [(n / 0x1000).digitChar, (n / 0x100 % 0x10).digitChar,
      (n / 0x10 % 0x10).digitChar, (n % 0x10).digitChar] := by
  have hbase {m : Nat} (h : 0x10 ≤ m) := Nat.toDigits_of_base_le (b := 16) (by decide) h
  have hdigit {m : Nat} (h : m < 0x10) := Nat.toDigits_of_lt_base (b := 16) h
  unfold hexDigits
  rcases Nat.lt_or_ge n 0x10 with h | h
  · have h3 : n / 0x1000 = 0 := by omega
    have h2 : n / 0x100 % 0x10 = 0 := by omega
    have h1 : n / 0x10 % 0x10 = 0 := by omega
    rw [hdigit h, h1, h2, h3, Nat.mod_eq_of_lt h]
    rfl
  rcases Nat.lt_or_ge n 0x100 with h' | h'
  · have h3 : n / 0x1000 = 0 := by omega
    have h2 : n / 0x100 % 0x10 = 0 := by omega
    have h1 : n / 0x10 % 0x10 = n / 0x10 := by omega
    rw [hbase h, hdigit (by omega), h1, h2, h3]
    rfl
  rcases Nat.lt_or_ge n 0x1000 with h'' | h''
  · have h3 : n / 0x1000 = 0 := by omega
    have h2 : n / 0x100 % 0x10 = n / 0x10 / 0x10 := by omega
    rw [hbase h, hbase (by omega), hdigit (by omega), h2, h3]
    rfl
  · have h3 : n / 0x1000 = n / 0x10 / 0x10 / 0x10 := by omega
    have h2 : n / 0x100 % 0x10 = n / 0x10 / 0x10 % 0x10 := by omega
    rw [hbase h, hbase (by omega), hbase (by omega), hdigit (by omega), h2, h3]
    rfl

theorem hexValue?_digitChar : ∀ d < 0x10, hexValue? d.digitChar = some d := by decide

theorem hexValue4?_digits {n : Nat} (hn : n < 0x10000) :
    hexValue4? (n / 0x1000).digitChar (n / 0x100 % 0x10).digitChar (n / 0x10 % 0x10).digitChar
      (n % 0x10).digitChar = some n := by
  rw [hexValue4?, hexValue?_digitChar _ (by omega), hexValue?_digitChar _ (by omega),
    hexValue?_digitChar _ (by omega), hexValue?_digitChar _ (by omega)]
  simp only [Option.bind_eq_bind, Option.bind_some, Option.pure_def, Option.some.injEq]
  omega

/-- An escape is read as its unit, wherever the string goes on. -/
theorem stringBody_unitEscape (opened : List Char) {n : Nat} (hn : n < 0x10000) {rest : List Char}
    (hrest : rest ≠ []) :
    stringBody opened (unitEscape n ++ rest) = .cons (.unit n) (stringBody opened rest) := by
  rw [unitEscape, hexDigits_four hn]
  simp only [List.cons_append, List.nil_append]
  rw [stringBody, hexValue4?_digits hn]
  simp [hrest]

/-- Whether a character is written as itself, or by an escape of one letter. -/
def isPlain (c : Char) : Bool :=
  c == '"' || c == '\\' || c == '\n' || c == '\r' || c == '\t' || c.toNat == 8 || c.toNat == 12 ||
    (0x20 ≤ c.toNat && c.toNat < 0x7f)

/-- The units of the character that stands `n` after the first plane. -/
def pairPieces (n : Nat) : List Piece :=
  [.unit (0xd800 + n / 0x400), .unit (0xdc00 + n % 0x400)]

/-- The pieces as which a symbol is written. -/
def symbolPieces : Symbol → List Piece
  | .char c =>
    if isPlain c then [.char c]
    else if c.toNat < 0x10000 then [.unit c.toNat]
    else pairPieces (c.toNat - 0x10000)
  | .half n => [.unit (Symbol.half n).code]

/-- Pieces in front of those that have been read. -/
def consAll (ps : List Piece) (read : Step (List Piece)) : Step (List Piece) :=
  ps.foldr Step.cons read

/-- A printable character that needs no escape is written as itself. -/
theorem escapeChar_eq {c : Char} (hlow : 0x20 ≤ c.toNat) (hhigh : c.toNat < 0x7f) (hquote : c ≠ '"')
    (hslash : c ≠ '\\') : escapeChar c = [c] := by
  have hne {d : Char} (hd : d.toNat < 0x20) : c ≠ d := by
    rintro rfl
    exact absurd hlow (Nat.not_le.mpr hd)
  have hfeed : c ≠ '\n' := hne (by decide)
  have hreturn : c ≠ '\r' := hne (by decide)
  have htab : c ≠ '\t' := hne (by decide)
  have height : c.toNat ≠ 8 := by omega
  have htwelve : c.toNat ≠ 12 := by omega
  simp [escapeChar, hquote, hslash, hfeed, hreturn, htab, height, htwelve, hlow, hhigh]

/-- A character that is written as itself is read as itself. -/
theorem stringBody_cons (opened : List Char) {c : Char} (hlow : 0x20 ≤ c.toNat) (hquote : c ≠ '"')
    (hslash : c ≠ '\\') (rest : List Char) :
    stringBody opened (c :: rest) = .cons (.char c) (stringBody opened rest) := by
  rw [stringBody, if_neg (Nat.not_lt.mpr hlow)]
  all_goals simp [hquote, hslash]

/-- A character that needs no escape of a unit is written as itself or by a letter. -/
theorem escapeChar_of_plain {c : Char} (hc : isPlain c = true) :
    (∃ d, escapeChar c = ['\\', d] ∧ escaped? d = some c ∧ 0x20 ≤ d.toNat ∧ d.toNat < 0x7f) ∨
      escapeChar c = [c] ∧ 0x20 ≤ c.toNat ∧ c.toNat < 0x7f ∧ c ≠ '"' ∧ c ≠ '\\' := by
  simp only [isPlain, Bool.or_eq_true, beq_iff_eq, Bool.and_eq_true, decide_eq_true_eq] at hc
  rcases hc with ((((((rfl | rfl) | rfl) | rfl) | rfl) | h) | h) | ⟨hlow, hhigh⟩
  · exact .inl ⟨'"', rfl, by decide⟩
  · exact .inl ⟨'\\', rfl, by decide⟩
  · exact .inl ⟨'n', rfl, by decide⟩
  · exact .inl ⟨'r', rfl, by decide⟩
  · exact .inl ⟨'t', rfl, by decide⟩
  · obtain rfl : c = Char.ofNat 8 := by rw [← h, Char.ofNat_toNat]
    exact .inl ⟨'b', rfl, by decide⟩
  · obtain rfl : c = Char.ofNat 12 := by rw [← h, Char.ofNat_toNat]
    exact .inl ⟨'f', rfl, by decide⟩
  · by_cases hquote : c = '"'
    · exact .inl ⟨'"', by rw [hquote]; rfl, by rw [hquote]; decide⟩
    · by_cases hslash : c = '\\'
      · exact .inl ⟨'\\', by rw [hslash]; rfl, by rw [hslash]; decide⟩
      · exact .inr ⟨escapeChar_eq hlow hhigh hquote hslash, hlow, hhigh, hquote, hslash⟩

/-- A character that needs no escape of a unit is read back. -/
theorem stringBody_plain (opened : List Char) {c : Char} (hc : isPlain c = true)
    (rest : List Char) :
    stringBody opened (escapeChar c ++ rest) = .cons (.char c) (stringBody opened rest) := by
  rcases escapeChar_of_plain hc with ⟨d, h, hd, -⟩ | ⟨h, hlow, -, hquote, hslash⟩
  · have hu : d ≠ 'u' := by
      rintro rfl
      cases hd
    rw [h, List.cons_append, List.singleton_append, stringBody]
    · simp [hu, hd]
    all_goals simp [hu]
  · rw [h]
    exact stringBody_cons opened hlow hquote hslash rest

/-- What is written as escapes of units. -/
theorem escapeChar_of_not_plain {c : Char} (hc : isPlain c = false) :
    escapeChar c =
      if c.toNat < 0x10000 then unitEscape c.toNat
      else unitEscape (0xd800 + (c.toNat - 0x10000) / 0x400) ++
        unitEscape (0xdc00 + (c.toNat - 0x10000) % 0x400) := by
  simp only [isPlain, Bool.or_eq_false_iff] at hc
  simp [escapeChar, hc]

/-- Code points end at the last plane. -/
theorem toNat_lt (c : Char) : c.toNat < 0x110000 := by
  rcases c.valid with h | ⟨-, h⟩
  · exact Nat.lt_trans h (by decide)
  · exact h

/-- A half is one unit. -/
theorem code_half_lt (n : Fin 0x800) : (Symbol.half n).code < 0x10000 :=
  Nat.lt_of_lt_of_le (Nat.add_lt_add_left n.isLt 0xd800) (by decide)

/-- The escapes of a pair are read as its units. -/
theorem stringBody_pair (opened : List Char) {n : Nat} (hn : n < 0x100000) {rest : List Char}
    (hrest : rest ≠ []) :
    stringBody opened
        (unitEscape (0xd800 + n / 0x400) ++ unitEscape (0xdc00 + n % 0x400) ++ rest) =
      consAll (pairPieces n) (stringBody opened rest) := by
  have hhigh : 0xd800 + n / 0x400 < 0x10000 := by omega
  have hlow : 0xdc00 + n % 0x400 < 0x10000 := by omega
  rw [pairPieces]
  generalize 0xd800 + n / 0x400 = high at *
  generalize 0xdc00 + n % 0x400 = low at *
  rw [List.append_assoc, stringBody_unitEscape opened hhigh (by simp [unitEscape]),
    stringBody_unitEscape opened hlow hrest]
  rfl

/-- A symbol is read as its pieces, wherever the string goes on. -/
theorem stringBody_escapeSymbol (opened : List Char) (s : Symbol) {rest : List Char}
    (hrest : rest ≠ []) :
    stringBody opened (escapeSymbol s ++ rest) =
      consAll (symbolPieces s) (stringBody opened rest) := by
  cases s with
  | half n => exact stringBody_unitEscape opened (code_half_lt n) hrest
  | char c =>
    simp only [escapeSymbol, symbolPieces]
    split
    next hplain => exact stringBody_plain opened hplain rest
    next hplain =>
      rw [escapeChar_of_not_plain (Bool.eq_false_iff.mpr hplain)]
      split
      next hsmall => exact stringBody_unitEscape opened hsmall hrest
      next hgreat =>
        have hoffset : c.toNat - 0x10000 < 0x100000 := by
          have hlast := toNat_lt c
          omega
        exact stringBody_pair opened hoffset hrest

/-- A text up to its closing quote is read as its pieces. -/
theorem stringBody_text (opened : List Char) (t : Text) (rest : List Char) :
    stringBody opened (t.flatMap escapeSymbol ++ '"' :: rest) =
      .ok (t.flatMap symbolPieces, rest) := by
  have hcons (ps qs : List Piece) : consAll ps (.ok (qs, rest)) = .ok (ps ++ qs, rest) := by
    induction ps with
    | nil => rfl
    | cons p ps ih =>
      change Step.cons p (consAll ps _) = _
      rw [ih]
      rfl
  induction t with
  | nil => rfl
  | cons s t ih =>
    rw [List.flatMap_cons, List.append_assoc, stringBody_escapeSymbol opened s (by simp), ih,
      List.flatMap_cons, hcons]

/-- No two halves of a text stand side by side that would be read as one character. -/
def IsJoined (t : Text) : Prop :=
  t.IsChain fun a b => ¬(isHighHalf a.code = true ∧ isLowHalf b.code = true)

instance (t : Text) : Decidable (IsJoined t) := inferInstanceAs (Decidable (List.IsChain _ t))

/-- A character is no half. -/
theorem isHighHalf_toNat (c : Char) : ¬isHighHalf c.toNat = true := by
  have hc : c.toNat < 0xd800 ∨ 0xdfff < c.toNat := c.valid.imp id And.left
  simp only [isHighHalf, Bool.and_eq_true, decide_eq_true_eq]
  omega

/-- Texts of characters have no halves to join. -/
theorem isJoined_ofChars (cs : List Char) : IsJoined (Text.ofChars cs) := by
  rw [IsJoined, Text.ofChars, List.isChain_map]
  exact List.Pairwise.isChain (List.pairwise_of_forall fun c _ h => isHighHalf_toNat c h.1)

/-- The unit of a symbol stands for it. -/
theorem unitSymbol_code (s : Symbol) : unitSymbol s.code = s := by
  cases s with
  | char c =>
    have hvalid : c.toNat.isValidChar := c.valid
    simp [unitSymbol, Symbol.code, Symbol.ofCode?, hvalid]
  | half n =>
    have hvalid : ¬(Symbol.half n).code.isValidChar := by
      have hn := n.isLt
      simp only [Symbol.code, Nat.isValidChar]
      omega
    rw [unitSymbol, Symbol.ofCode?, if_neg hvalid]
    simp [Symbol.code]

/-- A unit that is not joined with what follows stands for a symbol of its own. -/
theorem joinPieces_unit {n : Nat} {rest : List Piece}
    (h : ∀ m, rest.head? = some (.unit m) → ¬(isHighHalf n = true ∧ isLowHalf m = true)) :
    joinPieces (.unit n :: rest) = unitSymbol n :: joinPieces rest := by
  match rest with
  | [] => rfl
  | .char c :: rest => rfl
  | .unit m :: rest =>
    rw [joinPieces, if_neg]
    simpa using h m rfl

/-- The units of a character are joined to it. -/
theorem joinPieces_pair {c : Char} (hc : ¬c.toNat < 0x10000) (rest : List Piece) :
    joinPieces (pairPieces (c.toNat - 0x10000) ++ rest) = .char c :: joinPieces rest := by
  have hlast := toNat_lt c
  generalize hn : c.toNat - 0x10000 = n
  have hhigh : isHighHalf (0xd800 + n / 0x400) = true := by
    simp only [isHighHalf, Bool.and_eq_true, decide_eq_true_eq]
    omega
  have hlow : isLowHalf (0xdc00 + n % 0x400) = true := by
    simp only [isLowHalf, Bool.and_eq_true, decide_eq_true_eq]
    omega
  have hjoin : joinHalves (0xd800 + n / 0x400) (0xdc00 + n % 0x400) = c := by
    have hcode : 0x10000 + (0xd800 + n / 0x400 - 0xd800) * 0x400 + (0xdc00 + n % 0x400 - 0xdc00) =
        c.toNat := by omega
    rw [joinHalves, hcode, Char.ofNat_toNat]
  rw [pairPieces]
  generalize 0xd800 + n / 0x400 = high at *
  generalize 0xdc00 + n % 0x400 = low at *
  change joinPieces (.unit high :: .unit low :: rest) = _
  rw [joinPieces, hhigh, hlow, hjoin]
  rfl

/-- The pieces of a symbol begin with a low half only if it is one. -/
theorem isLowHalf_of_head? {s : Symbol} {rest : List Piece} {m : Nat}
    (hhead : (symbolPieces s ++ rest).head? = some (.unit m)) (hlow : isLowHalf m = true) :
    isLowHalf s.code = true := by
  cases s with
  | half n =>
    simp only [symbolPieces, List.cons_append, List.head?_cons, Option.some.injEq,
      Piece.unit.injEq] at hhead
    exact hhead ▸ hlow
  | char c =>
    simp only [symbolPieces] at hhead
    split at hhead
    next => simp at hhead
    split at hhead
    next =>
      simp only [List.cons_append, List.head?_cons, Option.some.injEq, Piece.unit.injEq] at hhead
      rw [← hhead] at hlow
      exact hlow
    next =>
      simp only [pairPieces, List.cons_append, List.head?_cons, Option.some.injEq,
        Piece.unit.injEq] at hhead
      have hlast := toNat_lt c
      simp only [isLowHalf, Bool.and_eq_true, decide_eq_true_eq] at hlow
      omega

/-- The pieces of a text are joined to it. -/
theorem joinPieces_text {t : Text} (ht : IsJoined t) :
    joinPieces (t.flatMap symbolPieces) = t := by
  induction t with
  | nil => rfl
  | cons s t ih =>
    have hjoined := ih ht.tail
    rw [List.flatMap_cons]
    cases s with
    | char c =>
      simp only [symbolPieces]
      split
      next => exact congrArg (_ :: ·) hjoined
      split
      next =>
        rw [List.singleton_append, joinPieces_unit fun _ _ h => isHighHalf_toNat c h.1, hjoined]
        exact congrArg (· :: t) (unitSymbol_code (.char c))
      next hgreat => rw [joinPieces_pair hgreat, hjoined]
    | half n =>
      rw [symbolPieces, List.singleton_append, joinPieces_unit, hjoined, unitSymbol_code]
      intro m hhead hhalves
      cases t with
      | nil => simp at hhead
      | cons s' t =>
        rw [List.flatMap_cons] at hhead
        exact (List.isChain_cons_cons.mp ht).1 ⟨hhalves.1, isLowHalf_of_head? hhead hhalves.2⟩

/-- A printed string is read back, whatever follows it. -/
theorem string_text {t : Text} (ht : IsJoined t) (opened rest : List Char) :
    string opened (t.flatMap escapeSymbol ++ '"' :: rest) = .ok (t, rest) := by
  rw [string, stringBody_text]
  simp only [joinPieces_text ht]

/-- The characters of a printed string. -/
theorem toList_stringText (t : Text) :
    (stringText t).toList = '"' :: (t.flatMap escapeSymbol ++ ['"']) := by
  simp [stringText]

end Landscape.Json
