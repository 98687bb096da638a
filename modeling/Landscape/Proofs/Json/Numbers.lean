import Landscape.Json.Printer
import Landscape.Json.Reader
import Landscape.Proofs.Number.Numeral

/-!
# Numbers are read back

A number ends where something follows that could not belong to it. Up to there the text of a finite
double is read as the double, and the text of an integer as the integer.
-/

namespace Landscape

namespace Json

open Number

/-- A number ends here: nothing follows that could belong to it. -/
def Delimited (rest : List Char) : Prop :=
  ∀ c ∈ rest.head?, c.isDigit = false ∧ c ≠ '.' ∧ c ≠ 'e' ∧ c ≠ 'E'

/-- A digit is no character that is none. -/
theorem ne_of_isDigit {d c : Char} (hd : d.isDigit = true) (hc : c.isDigit = false) : d ≠ c := by
  rintro rfl
  rw [hd] at hc
  cases hc

/-- Digits are taken as long as there are any. -/
theorem asciiDigits_append {ds rest : List Char} (hds : ∀ c ∈ ds, c.isDigit = true)
    (hrest : ∀ c ∈ rest.head?, c.isDigit = false) :
    asciiDigits (ds ++ rest) = (digitsOf ds, rest) := by
  induction ds with
  | nil =>
    cases rest with
    | nil => rfl
    | cons c rest => simp [asciiDigits, hrest c rfl, digitsOf]
  | cons d ds ih =>
    obtain ⟨hd, hds⟩ := List.forall_mem_cons.mp hds
    rw [List.cons_append, asciiDigits, if_pos hd, ih hds]
    rfl

/-- Whole digits are taken, a leading zero alone. -/
theorem wholeDigits_append {ds rest : List Char} (hds : ∀ c ∈ ds, c.isDigit = true)
    (hzero : ds = ['0'] ∨ ds.head? ≠ some '0')
    (hrest : ∀ c ∈ rest.head?, c.isDigit = false) (hne : ds ≠ []) :
    wholeDigits (ds ++ rest) = (digitsOf ds, rest) := by
  rcases hzero with rfl | hzero
  · rfl
  · rw [← asciiDigits_append hds hrest]
    unfold wholeDigits
    split
    next h =>
      cases ds with
      | nil => exact absurd rfl hne
      | cons d ds =>
        obtain ⟨rfl, _⟩ := List.cons.inj h
        exact absurd rfl hzero
    · rfl

/-- Without a point there is no fraction. -/
theorem fractionDigits?_eq_none {rest : List Char} (h : ∀ c ∈ rest.head?, c ≠ '.') :
    fractionDigits? rest = none := by
  cases rest with
  | nil => rfl
  | cons c rest =>
    rw [fractionDigits?]
    rintro rest' ⟨⟩
    exact h '.' rfl rfl

/-- Without its letter there is no exponent. -/
theorem exponentDigits?_eq_none {rest : List Char} (h : ∀ c ∈ rest.head?, c ≠ 'e' ∧ c ≠ 'E') :
    exponentDigits? rest = none := by
  cases rest with
  | nil => rfl
  | cons c rest =>
    obtain ⟨he, hE⟩ := h c rfl
    simp [exponentDigits?, he, hE]

/-- The fraction of a number is read back. -/
theorem fractionDigits?_append {n : Numeral} (hn : n.Valid) {rest : List Char}
    (hrest : ∀ c ∈ rest.head?, c.isDigit = false ∧ c ≠ '.') :
    fractionDigits? (n.fractionChars ++ rest) =
      if n.fraction = [] then none else some (digitsOf n.fraction, rest) := by
  unfold Numeral.fractionChars
  split
  · exact fractionDigits?_eq_none fun c hc => (hrest c hc).2
  next hne =>
    rw [List.cons_append, fractionDigits?,
      asciiDigits_append hn.fraction_digits fun c hc => (hrest c hc).1]
    cases hfraction : n.fraction with
    | nil => exact absurd hfraction hne
    | cons d ds => rfl

/-- The exponent of a number is read back. -/
theorem exponentDigits?_append {n : Numeral} (hn : n.Valid) {rest : List Char}
    (hrest : Delimited rest) :
    exponentDigits? (n.exponentChars ++ rest) =
      if n.exponent = none then none else some (n.power, rest) := by
  unfold Numeral.exponentChars Numeral.power
  cases hexponent : n.exponent with
  | none =>
    rw [if_pos rfl]
    exact exponentDigits?_eq_none fun c hc => (hrest c hc).2.2
  | some e =>
    obtain ⟨negative, digits⟩ := e
    obtain ⟨hne, hdigits⟩ := hn.exponent_digits _ hexponent
    have hread := asciiDigits_append hdigits fun c hc => (hrest c hc).1
    have hsign : splitSign ((if negative then '-' else '+') :: (digits ++ rest)) =
        (negative, digits ++ rest) := by
      cases negative <;> rfl
    rw [if_neg (Option.some_ne_none _), List.cons_append, List.cons_append, exponentDigits?]
    simp only [beq_self_eq_true, Bool.true_or, if_true, hsign, hread]
    cases digits with
    | nil => exact absurd rfl hne
    | cons d ds => rfl

/-- Neither a digit nor a point stands behind the fraction. -/
theorem head?_exponentChars (n : Numeral) {rest : List Char} (hrest : Delimited rest) :
    ∀ c ∈ (n.exponentChars ++ rest).head?, c.isDigit = false ∧ c ≠ '.' := by
  intro c hc
  unfold Numeral.exponentChars at hc
  split at hc
  · exact ⟨(hrest c hc).1, (hrest c hc).2.1⟩
  · obtain rfl : 'e' = c := by simpa using hc
    decide

/-- No digit stands behind the whole digits. -/
theorem head?_fractionChars (n : Numeral) {rest : List Char} (hrest : Delimited rest) :
    ∀ c ∈ (n.fractionChars ++ (n.exponentChars ++ rest)).head?, c.isDigit = false := by
  intro c hc
  unfold Numeral.fractionChars at hc
  split at hc
  · exact (head?_exponentChars n hrest c hc).1
  · obtain rfl : '.' = c := by simpa using hc
    decide

/-- A minus sign is read as such. -/
theorem splitMinus_append (negative : Bool) {cs : List Char} (hcs : cs.head? ≠ some '-') :
    splitMinus (Numeral.minus negative ++ cs) = (negative, cs) := by
  cases negative with
  | true => rfl
  | false =>
    change splitMinus cs = (false, cs)
    unfold splitMinus
    split
    · exact absurd rfl hcs
    · rfl

/-- No digit is a minus sign. -/
theorem head?_ne_minus {ds : List Char} (rest : List Char) (hne : ds ≠ [])
    (hds : ∀ c ∈ ds, c.isDigit = true) :
    (ds ++ rest).head? ≠ some '-' := by
  cases ds with
  | nil => exact absurd rfl hne
  | cons d ds =>
    rw [List.cons_append, List.head?_cons]
    intro h
    exact ne_of_isDigit (hds d List.mem_cons_self) (by decide) (Option.some.inj h)

/-- A number that is no integer is read as a double. -/
theorem number_numeral {n : Numeral} (hn : n.Valid) (negative : Bool) {rest : List Char}
    (hrest : Delimited rest) :
    number (Numeral.minus negative ++ (n.chars ++ rest)) =
      .ok (.float (signed negative
        (ofDecimal (digitsOf n.whole ++ digitsOf n.fraction) (n.power - n.fraction.length))),
        rest) := by
  have hexponent := exponentDigits?_append hn hrest
  have hfraction := fractionDigits?_append hn (head?_exponentChars n hrest)
  have hwhole := wholeDigits_append hn.whole_digits hn.whole_zero (head?_fractionChars n hrest)
    hn.whole_ne
  have hsign := splitMinus_append negative
    (head?_ne_minus (n.fractionChars ++ (n.exponentChars ++ rest)) hn.whole_ne hn.whole_digits)
  have hne : digitsOf n.whole ≠ [] := mt List.map_eq_nil_iff.mp hn.whole_ne
  rw [Numeral.chars, List.append_assoc, List.append_assoc, number, hsign]
  dsimp only
  rw [hwhole]
  cases hds : digitsOf n.whole with
  | nil => exact absurd hds hne
  | cons d ds =>
    dsimp only
    rw [hfraction]
    by_cases hnone : n.fraction = []
    · have hsome : n.exponent ≠ none := hn.not_integer.resolve_left (not_not.mpr hnone)
      rw [if_pos hnone]
      simp only [Option.getD_none, Numeral.fractionChars, hnone, if_true, List.nil_append,
        hexponent, if_neg hsome, Option.getD_some, digitsOf, List.map_nil]
      rfl
    · rw [if_neg hnone]
      simp only [Option.getD_some, hexponent]
      by_cases hnone' : n.exponent = none
      · simp [hnone', Numeral.power, Numeral.exponentChars, digitsOf]
      · simp [hnone', digitsOf]

/-- A delimited number that is written from a finite double is read as it. -/
theorem number_text {x : Float} {negative : Bool} {significand : Nat} {exponent : Int}
    (h : Binary.ofFloat x = .finite negative significand exponent) {rest : List Char}
    (hrest : Delimited rest) :
    number ((Number.text x).toList ++ rest) = .ok (.float x, rest) := by
  obtain ⟨n, hn, htext, hvalue⟩ := text_eq_numeral h
  rw [htext, List.append_assoc, number_numeral hn negative hrest, hvalue, ← (ofFloat_eq_finite h).2]

/-- The text of an integer is a minus sign, where there is one, and the digits of its magnitude. -/
theorem toList_toString_int (n : Int) :
    (toString n : String).toList = Numeral.minus (n < 0) ++ Nat.toDigits 10 n.natAbs := by
  cases n with
  | ofNat n =>
    change n.repr.toList = _
    rw [Nat.toList_repr]
    simp [Numeral.minus]
  | negSucc n =>
    change ("-" ++ (n + 1).repr : String).toList = _
    rw [String.toList_append, Nat.toList_repr]
    simp [Numeral.minus]

/-- A delimited integer that has not too many digits is read back. -/
theorem number_int {n : Int} (hn : n.natAbs < 10 ^ maxDigits) {rest : List Char}
    (hrest : Delimited rest) :
    number ((toString n : String).toList ++ rest) = .ok (.int n, rest) := by
  have hne : Nat.toDigits 10 n.natAbs ≠ [] := Nat.toDigits_ne_nil
  have hlength : (digitsOf (Nat.toDigits 10 n.natAbs)).length ≤ maxDigits := by
    rw [length_digitsOf]
    exact (Nat.length_toDigits_le_iff (by decide) (by decide)).mpr hn
  have hzero : Nat.toDigits 10 n.natAbs = ['0'] ∨ (Nat.toDigits 10 n.natAbs).head? ≠ some '0' := by
    rcases Nat.eq_zero_or_pos n.natAbs with h | h
    · rw [h]
      exact .inl rfl
    · exact .inr (head?_toDigits h)
  have hwhole := wholeDigits_append isDigit_toDigits hzero (fun c hc => (hrest c hc).1) hne
  have hfraction := fractionDigits?_eq_none fun c hc => (hrest c hc).2.1
  have hexponent := exponentDigits?_eq_none fun c hc => (hrest c hc).2.2
  have hvalue := ofDigits_toDigits n.natAbs
  have hsign := splitMinus_append (decide (n < 0)) (head?_ne_minus rest hne isDigit_toDigits)
  rw [toList_toString_int, List.append_assoc, number, hsign]
  dsimp only
  rw [hwhole]
  cases hds : digitsOf (Nat.toDigits 10 n.natAbs) with
  | nil => exact absurd (List.map_eq_nil_iff.mp hds) hne
  | cons d ds =>
    rw [hds] at hlength hvalue
    simp only [hfraction, Option.getD_none, hexponent]
    rw [if_neg (Nat.not_lt.mpr hlength), hvalue, signed_natAbs]

end Json

end Landscape
