import Landscape.Number.Written
import Landscape.Proofs.Number.Decimal

/-!
# Written doubles are numerals

The text of a finite double is a minus sign, where there is one, and a numeral: whole digits, digits
behind a point, an exponent. What the numeral spells is the shortest decimal of the double, and so
its digits are read as the double. Any other double is a word, and few characters are in any of
these texts.
-/

namespace Landscape

namespace Number

/-- The parts of a written number: whole digits, the digits after the point if there are any, and
the exponent if there is one. -/
structure Numeral where
  whole : List Char
  fraction : List Char := []
  exponent : Option (Bool × List Char) := none

namespace Numeral

/-- A minus sign where there is one. -/
def minus (negative : Bool) : List Char := if negative then ['-'] else []

/-- The point and the digits after it. -/
def fractionChars (n : Numeral) : List Char := if n.fraction = [] then [] else '.' :: n.fraction

/-- The exponent with its letter and its sign. -/
def exponentChars (n : Numeral) : List Char :=
  match n.exponent with
  | none => []
  | some (negative, digits) => 'e' :: (if negative then '-' else '+') :: digits

/-- The characters of a number. -/
def chars (n : Numeral) : List Char := n.whole ++ (n.fractionChars ++ n.exponentChars)

/-- The power of ten that the exponent asks for. -/
def power (n : Numeral) : Int :=
  match n.exponent with
  | none => 0
  | some (negative, digits) =>
    if negative then -(ofDigits (digitsOf digits) : Int) else ofDigits (digitsOf digits)

/-- The value of a number. -/
def value (n : Numeral) : ℚ :=
  ofDigits (digitsOf n.whole ++ digitsOf n.fraction) * 10 ^ (n.power - n.fraction.length)

/-- Digits stand where they should, and the number is no integer. -/
structure Valid (n : Numeral) : Prop where
  whole_ne : n.whole ≠ []
  whole_digits : ∀ c ∈ n.whole, c.isDigit = true
  whole_zero : n.whole = ['0'] ∨ n.whole.head? ≠ some '0'
  fraction_digits : ∀ c ∈ n.fraction, c.isDigit = true
  exponent_digits : ∀ e ∈ n.exponent, e.2 ≠ [] ∧ ∀ c ∈ e.2, c.isDigit = true
  not_integer : n.fraction ≠ [] ∨ n.exponent ≠ none

end Numeral

theorem digitsOf_append (cs ds : List Char) : digitsOf (cs ++ ds) = digitsOf cs ++ digitsOf ds :=
  List.map_append

/-- The values of digits are less than ten. -/
theorem digitsOf_lt {cs : List Char} (h : ∀ c ∈ cs, c.isDigit = true) :
    ∀ d ∈ digitsOf cs, d < 10 := by
  intro d hd
  obtain ⟨c, hc, rfl⟩ := List.mem_map.mp hd
  have hdigit := h c hc
  have hnine : c.toNat ≤ 57 := (Char.isDigit_iff_toNat.mp hdigit).2
  change c.toNat - 48 < 10
  omega

/-- Zeros are worth nothing. -/
theorem ofDigits_replicate (k : Nat) : ofDigits (digitsOf (List.replicate k '0')) = 0 := by
  rw [ofDigits_digitsOf, Nat.ofDigitChars_replicate_zero, Nat.mul_zero]

/-- The digits of a natural spell it. -/
theorem ofDigits_toDigits (n : Nat) : ofDigits (digitsOf (Nat.toDigits 10 n)) = n := by
  rw [ofDigits_digitsOf, Nat.ofDigitChars_ten_toDigits]

theorem isDigit_toDigits {n : Nat} : ∀ c ∈ Nat.toDigits 10 n, c.isDigit = true := fun _ hc =>
  Nat.isDigit_of_mem_toDigits (by decide) (by decide) hc

theorem isDigit_zero : ∀ c ∈ ['0'], c.isDigit = true := List.forall_mem_singleton.mpr rfl

theorem isDigit_replicate {k : Nat} : ∀ c ∈ List.replicate k '0', c.isDigit = true := by
  intro c hc
  rw [List.eq_of_mem_replicate hc]
  decide

/-- The digits of a positive natural do not begin with zero. -/
theorem head?_toDigits {n : Nat} (hn : 0 < n) : (Nat.toDigits 10 n).head? ≠ some '0' := by
  induction n using Nat.strongRecOn with
  | ind n ih =>
    rcases Nat.lt_or_ge n 10 with hlt | hge
    · rw [Nat.toDigits_of_lt_base hlt]
      have hall : ∀ n < 10, 0 < n → [n.digitChar].head? ≠ some '0' := by decide
      exact hall n hlt hn
    · rw [Nat.toDigits_of_base_le (by decide) hge]
      have hhead := ih (n / 10) (by omega) (by omega)
      cases hds : Nat.toDigits 10 (n / 10) with
      | nil => exact absurd hds Nat.toDigits_ne_nil
      | cons d ds =>
        rw [hds] at hhead
        exact hhead

/-- The digits of a positive natural. -/
structure Writes (ds : List Char) (n : Nat) : Prop where
  ne_nil : ds ≠ []
  digits : ∀ c ∈ ds, c.isDigit = true
  head : ds.head? ≠ some '0'
  value : ofDigits (digitsOf ds) = n

/-- The text of a positive natural consists of its digits. -/
theorem writes_toString {n : Nat} (hn : 0 < n) : Writes (toString n : String).toList n := by
  rw [Nat.toString_eq_ofList_toDigits, String.toList_ofList]
  exact ⟨Nat.toDigits_ne_nil, isDigit_toDigits, head?_toDigits hn, ofDigits_toDigits n⟩

/-- A written number spells a value: its characters are those of a number that has it. -/
def Spells (cs : List Char) (q : ℚ) : Prop := ∃ n : Numeral, n.Valid ∧ cs = n.chars ∧ n.value = q

/-- Every digit has a value. -/
theorem length_digitsOf (cs : List Char) : (digitsOf cs).length = cs.length := List.length_map _

/-- Zeros behind digits move them up. -/
theorem ofDigits_zeros (ds : List Char) (k : Nat) :
    ofDigits (digitsOf (ds ++ List.replicate k '0')) = ofDigits (digitsOf ds) * 10 ^ k := by
  rw [digitsOf_append, ofDigits_append, ofDigits_replicate, length_digitsOf, List.length_replicate,
    Nat.add_zero]

/-- Zeros before digits make no difference. -/
theorem ofDigits_leading (ds : List Char) (k : Nat) :
    ofDigits (digitsOf (List.replicate k '0' ++ ds)) = ofDigits (digitsOf ds) := by
  rw [digitsOf_append, ofDigits_append, ofDigits_replicate, Nat.zero_mul, Nat.zero_add]

/-- Digits with a point among them spell the digits moved down. -/
theorem spells_point {whole fraction : List Char} {q : ℚ} (hne : whole ≠ [])
    (hwhole : ∀ c ∈ whole, c.isDigit = true) (hzero : whole = ['0'] ∨ whole.head? ≠ some '0')
    (hne' : fraction ≠ []) (hfraction : ∀ c ∈ fraction, c.isDigit = true)
    (hq : (ofDigits (digitsOf (whole ++ fraction)) : ℚ) * 10 ^ (-(fraction.length : Int)) = q) :
    Spells (whole ++ '.' :: fraction) q := by
  refine ⟨⟨whole, fraction, none⟩, ⟨hne, hwhole, hzero, hfraction, ?_, .inl hne'⟩, ?_, ?_⟩
  · exact fun e he => nomatch he
  · simp [Numeral.chars, Numeral.fractionChars, Numeral.exponentChars, hne']
  · rw [Numeral.value, ← digitsOf_append, Numeral.power, Int.zero_sub, hq]

variable {ds : List Char} {n : Nat}

/-- Digits behind a point and zeros. -/
theorem Writes.spells_behind (h : Writes ds n) (k : Nat) :
    Spells (List.replicate 1 '0' ++ '.' :: (List.replicate k '0' ++ ds))
      (n * 10 ^ (-((k + ds.length : Nat) : Int))) := by
  refine spells_point (by decide) isDigit_zero (.inl rfl) (by simp [h.ne_nil])
    (List.forall_mem_append.mpr ⟨isDigit_replicate, h.digits⟩) ?_
  rw [ofDigits_leading, ofDigits_leading, h.value, List.length_append, List.length_replicate]

/-- Digits before zeros and a point. -/
theorem Writes.spells_before (h : Writes ds n) (k : Nat) :
    Spells ((ds ++ List.replicate k '0') ++ '.' :: List.replicate 1 '0') (n * 10 ^ (k : Int)) := by
  refine spells_point (by simp [h.ne_nil]) (List.forall_mem_append.mpr ⟨h.digits, isDigit_replicate⟩)
    (.inr ?_) (by decide) isDigit_zero ?_
  · rw [List.head?_append_of_ne_nil _ h.ne_nil]
    exact h.head
  · rw [ofDigits_zeros, ofDigits_zeros, h.value, zpow_natCast]
    push_cast
    simp

/-- Digits with a point among them. -/
theorem Writes.spells_among (h : Writes ds n) {k : Nat} (hpos : 0 < k) (hlt : k < ds.length) :
    Spells (ds.take k ++ '.' :: ds.drop k) (n * 10 ^ (-((ds.length - k : Nat) : Int))) := by
  refine spells_point ?_ (fun c hc => h.digits c (List.mem_of_mem_take hc)) (.inr ?_) ?_
    (fun c hc => h.digits c (List.mem_of_mem_drop hc)) ?_
  · rw [← List.length_pos_iff, List.length_take]
    omega
  · rw [List.head?_take, if_neg (by omega)]
    exact h.head
  · rw [← List.length_pos_iff, List.length_drop]
    omega
  · rw [List.take_append_drop, h.value, List.length_drop]

/-- Digits with a point spell the digits moved to the place of the point. -/
theorem spells_positional {t : String} {d : Decimal} (ht : Writes t.toList d.digits) :
    Spells (positional t (t.length + d.place) ".0").toList d.value := by
  obtain ⟨digits, place⟩ := d
  have hlength : 0 < t.toList.length := List.length_pos_iff.mpr ht.ne_nil
  simp only [positional, ← String.length_toList, Decimal.value]
  generalize hpoint : (t.toList.length : Int) + place = point
  split
  next hle =>
    have hchars : ("0." ++ zeros (-point).toNat ++ t).toList = List.replicate 1 '0' ++ '.' ::
        (List.replicate (-point).toNat '0' ++ t.toList) := by
      simp [zeros]
    have hplace : place = -(((-point).toNat + t.toList.length : Nat) : Int) := by omega
    rw [hchars, hplace]
    exact ht.spells_behind _
  next hpos =>
    split
    next hle =>
      have hchars : (t ++ zeros (point.toNat - t.toList.length) ++ ".0").toList =
          (t.toList ++ List.replicate (point.toNat - t.toList.length) '0') ++ '.' ::
            List.replicate 1 '0' := by
        simp [zeros]
      have hplace : place = (point.toNat - t.toList.length : Nat) := by omega
      rw [hchars, hplace]
      exact ht.spells_before _
    next hlt =>
      have hchars : ((t.take point.toNat).toString ++ "." ++ (t.drop point.toNat).toString).toList =
          t.toList.take point.toNat ++ '.' :: t.toList.drop point.toNat := by
        simp
      have hplace : place = -((t.toList.length - point.toNat : Nat) : Int) := by omega
      rw [hchars, hplace]
      exact ht.spells_among (by omega) (by omega)

/-- The exponent is written with its sign and with digits that spell it. -/
theorem toList_exponentText (e : Int) :
    ∃ ds : List Char, (exponentText e).toList = 'e' :: (if e < 0 then '-' else '+') :: ds ∧
      ds ≠ [] ∧ (∀ c ∈ ds, c.isDigit = true) ∧ ofDigits (digitsOf ds) = e.natAbs := by
  refine ⟨List.replicate (2 - (Nat.toDigits 10 e.natAbs).length) '0' ++ Nat.toDigits 10 e.natAbs,
    ?_, by simp [Nat.toDigits_ne_nil],
    List.forall_mem_append.mpr ⟨isDigit_replicate, isDigit_toDigits⟩,
    (ofDigits_leading _ _).trans (ofDigits_toDigits _)⟩
  have hlength : (toString e.natAbs : String).length = (Nat.toDigits 10 e.natAbs).length := by
    rw [← String.length_toList, Nat.toString_eq_ofList_toDigits, String.toList_ofList]
  unfold exponentText
  dsimp only
  rw [hlength]
  split <;> simp [zeros]

/-- An integer is its magnitude with its sign. -/
theorem signed_natAbs (n : Int) :
    (if decide (n < 0) then -(n.natAbs : Int) else (n.natAbs : Int)) = n := by
  split
  next h =>
    rw [decide_eq_true_eq] at h
    omega
  next h =>
    rw [decide_eq_true_eq] at h
    omega

/-- Digits in scientific form spell the digits moved to the place of the point. -/
theorem spells_scientific {t : String} {d : Decimal} (ht : Writes t.toList d.digits) :
    Spells (scientific t (t.length + d.place - 1)).toList d.value := by
  obtain ⟨digits, place⟩ := d
  obtain ⟨hne, hdigits, hhead, hvalue⟩ := ht
  dsimp only at hvalue
  have hlength : 0 < t.toList.length := List.length_pos_iff.mpr hne
  simp only [scientific, ← String.length_toList, Decimal.value]
  generalize he : (t.toList.length : Int) + place - 1 = e
  obtain ⟨es, hes, hes_ne, hes_digits, hes_value⟩ := toList_exponentText e
  have hchars : ((t.take 1).toString ++
      (if (t.drop 1).toString.isEmpty then "" else "." ++ (t.drop 1).toString) ++
        exponentText e).toList =
      (⟨t.toList.take 1, t.toList.drop 1, some (e < 0, es)⟩ : Numeral).chars := by
    have htail : (t.drop 1).toString.isEmpty = true ↔ t.toList.drop 1 = [] := by
      rw [String.isEmpty_iff, ← String.toList_eq_nil_iff]
      simp
    simp only [Numeral.chars, Numeral.fractionChars, Numeral.exponentChars, ← htail,
      decide_eq_true_eq, ← hes]
    split <;> simp
  rw [hchars]
  generalize t.toList = ds at *
  refine ⟨_, ⟨?_, fun c hc => hdigits c (List.mem_of_mem_take hc), .inr ?_,
    fun c hc => hdigits c (List.mem_of_mem_drop hc), ?_, .inr (Option.some_ne_none _)⟩, rfl, ?_⟩
  · rw [← List.length_pos_iff, List.length_take]
    omega
  · rwa [List.head?_take, if_neg (by decide)]
  · rintro _ ⟨⟩
    exact ⟨hes_ne, hes_digits⟩
  · have hpower := signed_natAbs e
    have hplace : e - ((ds.length - 1 : Nat) : Int) = place := by omega
    simp only [Numeral.value, Numeral.power, ← digitsOf_append, List.take_append_drop, hvalue,
      hes_value, hpower, List.length_drop, hplace]

/-- The text of a double that is neither zero nor infinite. -/
theorem text_of_finite {x : Float} {negative : Bool} {significand : Nat} {exponent : Int}
    (h : Binary.ofFloat x = .finite negative significand exponent) (hpos : 0 < significand) :
    ∃ t : String, text x = withSign negative t ∧
      Spells t.toList (shortest significand exponent).value := by
  have hrounds := shortest_roundsTo (ofFloat_eq_finite h).1 hpos
  have hdigits : 0 < (shortest significand exponent).digits := by
    rw [Nat.pos_iff_ne_zero]
    intro hzero
    have hlow := (hrounds.bounds (ofFloat_eq_finite h).1 hpos).1
    rw [Decimal.value, hzero, Nat.cast_zero, zero_mul] at hlow
    exact absurd hlow (not_le.mpr (zpow_pos two_pos _))
  unfold text
  rw [h]
  cases significand with
  | zero => exact absurd hpos (Nat.lt_irrefl 0)
  | succ significand =>
    refine ⟨_, rfl, ?_⟩
    split
    · exact spells_positional (writes_toString hdigits)
    · exact spells_scientific (writes_toString hdigits)

/-- A finite double is written as a number that has the sign of the double and is read as it. -/
theorem text_eq_numeral {x : Float} {negative : Bool} {significand : Nat} {exponent : Int}
    (h : Binary.ofFloat x = .finite negative significand exponent) :
    ∃ n : Numeral, n.Valid ∧ (text x).toList = Numeral.minus negative ++ n.chars ∧
      ofDecimal (digitsOf n.whole ++ digitsOf n.fraction) (n.power - n.fraction.length) =
        double significand exponent := by
  obtain ⟨hdouble, _⟩ := ofFloat_eq_finite h
  have hsign (t : String) : (withSign negative t).toList = Numeral.minus negative ++ t.toList := by
    cases negative with
    | true => simp [withSign, Numeral.minus]
    | false => simp [withSign, Numeral.minus]
  rcases Nat.eq_zero_or_pos significand with rfl | hpos
  · have hexponent : exponent = -1074 := hdouble.normal.resolve_left (by decide)
    refine ⟨⟨['0'], ['0'], none⟩, ⟨by decide, isDigit_zero, .inl rfl, isDigit_zero, by simp,
      .inl (by decide)⟩, ?_, ?_⟩
    · have htext : text x = withSign negative "0.0" := by
        unfold text
        rw [h]
        rfl
      rw [htext, hsign]
      rfl
    · rw [hexponent]
      rfl
  · obtain ⟨t, ht, n, hn, hchars, hvalue⟩ := text_of_finite h hpos
    refine ⟨n, hn, by rw [ht, hsign, hchars], ?_⟩
    refine ofDecimal_eq ?_ hdouble hpos ?_
    · rw [← digitsOf_append]
      exact digitsOf_lt (List.forall_mem_append.mpr ⟨hn.whole_digits, hn.fraction_digits⟩)
    · have hrounds := shortest_roundsTo hdouble hpos
      rw [← hvalue] at hrounds
      exact hrounds

/-- The characters of numbers: digits, signs, a point, a letter. -/
theorem Numeral.mem_chars {n : Numeral} (hn : n.Valid) {c : Char} (hc : c ∈ n.chars) :
    c.isDigit = true ∨ c ∈ ['.', 'e', '-', '+'] := by
  rcases List.mem_append.mp hc with hc | hc
  · exact .inl (hn.whole_digits c hc)
  rcases List.mem_append.mp hc with hc | hc
  · unfold fractionChars at hc
    split at hc
    · cases hc
    · rcases List.mem_cons.mp hc with rfl | hc
      · exact .inr (by decide)
      · exact .inl (hn.fraction_digits c hc)
  · unfold exponentChars at hc
    split at hc
    · cases hc
    next negative digits h =>
      rcases List.mem_cons.mp hc with rfl | hc
      · exact .inr (by decide)
      rcases List.mem_cons.mp hc with rfl | hc
      · cases negative <;> exact .inr (by decide)
      · exact .inl ((hn.exponent_digits _ h).2 c hc)

variable {x y : Float} {negative : Bool} {significand : Nat} {exponent : Int}

/-- The characters of finite doubles. -/
theorem mem_text_of_finite (h : Binary.ofFloat x = .finite negative significand exponent) {c : Char}
    (hc : c ∈ (text x).toList) : c.isDigit = true ∨ c ∈ ['.', 'e', '-', '+'] := by
  obtain ⟨n, hn, htext, -⟩ := text_eq_numeral h
  rw [htext] at hc
  rcases List.mem_append.mp hc with hc | hc
  · cases negative with
    | false => cases hc
    | true =>
      obtain rfl := List.mem_singleton.mp hc
      exact .inr (by decide)
  · exact Numeral.mem_chars hn hc

/-- A double is finite or a word stands for it. -/
theorem text_cases (x : Float) :
    (∃ negative significand exponent, Binary.ofFloat x = .finite negative significand exponent) ∨
      x = notANumber ∧ text x = "nan" ∨
      ∃ negative, x = signed negative infinity ∧ text x = withSign negative "inf" := by
  cases h : Binary.ofFloat x with
  | nan => exact .inr (.inl ⟨ofFloat_eq_nan h, by simp only [text, h]⟩)
  | infinite negative =>
    exact .inr (.inr ⟨negative, ofFloat_eq_infinite h, by simp only [text, h]⟩)
  | finite negative significand exponent => exact .inl ⟨negative, significand, exponent, rfl⟩

/-- A double is finite if its text lacks the letter that all words for doubles have. -/
theorem finite_iff_notMem_text :
    (∃ negative significand exponent, Binary.ofFloat x = .finite negative significand exponent) ↔
      'n' ∉ (text x).toList := by
  constructor
  · rintro ⟨negative, significand, exponent, h⟩ hmem
    exact absurd (mem_text_of_finite h hmem) (by decide)
  · intro hnot
    rcases text_cases x with h | ⟨-, htext⟩ | ⟨negative, -, htext⟩
    · exact h
    · exact absurd (by decide) (htext ▸ hnot)
    · cases negative with
      | true => exact absurd (by decide) (htext ▸ hnot)
      | false => exact absurd (by decide) (htext ▸ hnot)

/-- What is no digit and in no other part of a number is not in its text. -/
theorem notMem_text {c : Char} (hdigit : c.isDigit = false) (hc : c ∉ ".e-+naif".toList)
    (x : Float) : c ∉ (text x).toList := by
  have hword {word : String} (hsub : word.toList ⊆ ".e-+naif".toList) : c ∉ word.toList :=
    fun hmem => hc (hsub hmem)
  rcases text_cases x with ⟨negative, significand, exponent, h⟩ | ⟨-, htext⟩ | ⟨negative, -, htext⟩
  · intro hmem
    have hsigns : c ∉ ".e-+".toList := hword (by decide)
    rcases mem_text_of_finite h hmem with hd | hsign
    · exact absurd hd (Bool.eq_false_iff.mp hdigit)
    · exact hsigns hsign
  · rw [htext]
    exact hword (by decide)
  · rw [htext]
    cases negative with
    | true => exact hword (by decide)
    | false => exact hword (by decide)

end Number

end Landscape
