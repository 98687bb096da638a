import Landscape.Proofs.Json.Ascii

/-!
# Reading back values

A legible value is one that a text can say: its integers have not too many digits, its texts hold no
halves that would be joined, and the fields of its records have names of their own. Whatever the
layout, a printed legible value is read back, unless it is nested too deeply for the reader, which
then says so.
-/

namespace Landscape

open Number

/-- A scalar that is read back as it is. -/
def Scalar.Legible : Scalar → Prop
  | .int n => n.natAbs < 10 ^ maxDigits
  | .text t => Json.IsJoined t
  | .null | .bool _ | .float _ => True

namespace Json

/-- A value whose parts can all be read back. -/
inductive Legible : Json → Prop
  | scalar {s : Scalar} (hs : s.Legible) : Legible (.scalar s)
  | list {xs : List Json} (hxs : ∀ x ∈ xs, Legible x) : Legible (.list xs)
  | record {fs : List (Text × Json)} (hkeys : (Entries.keys fs).Nodup)
      (hnames : ∀ f ∈ fs, IsJoined f.1) (hfs : ∀ f ∈ fs, Legible f.2) : Legible (.record fs)

mutual

/-- How many lists and records are nested in each other. -/
def nesting : Json → Nat
  | .scalar _ => 0
  | .list xs => nestingItems xs + 1
  | .record fs => nestingFields fs + 1

/-- How deeply the deepest of some items is nested. -/
def nestingItems : List Json → Nat
  | [] => 0
  | x :: xs => max (nesting x) (nestingItems xs)

/-- How deeply the deepest of some fields is nested. -/
def nestingFields : List (Text × Json) → Nat
  | [] => 0
  | (_, x) :: fs => max (nesting x) (nestingFields fs)

end

/-- A number starts with a digit, perhaps behind a minus sign. -/
def NumberStart (cs : List Char) : Prop :=
  ∃ negative d rest, d.isDigit = true ∧ cs = Numeral.minus negative ++ d :: rest

/-- What starts like a number is read as one. -/
theorem value_number {cs : List Char} (h : NumberStart cs) (fuel depth : Nat) :
    value (fuel + 1) depth cs = number cs := by
  obtain ⟨negative, d, rest, hd, rfl⟩ := h
  cases negative with
  | true =>
    have hword : d ≠ 'I' := ne_of_isDigit hd (by decide)
    change value (fuel + 1) depth ('-' :: d :: rest) = number ('-' :: d :: rest)
    rw [value]
    all_goals simp [hword]
  | false =>
    change value (fuel + 1) depth (d :: rest) = number (d :: rest)
    rw [value]
    all_goals
      rintro _ h
      obtain ⟨h, -⟩ := List.cons.inj h
      exact ne_of_isDigit hd (by decide) h

/-- The text of an integer starts like a number. -/
theorem numberStart_int (n : Int) (rest : List Char) :
    NumberStart ((toString n : String).toList ++ rest) := by
  rw [toList_toString_int]
  have hdigits := isDigit_toDigits (n := n.natAbs)
  cases hds : Nat.toDigits 10 n.natAbs with
  | nil => exact absurd hds Nat.toDigits_ne_nil
  | cons d ds =>
    rw [hds] at hdigits
    refine ⟨n < 0, d, ds ++ rest, hdigits d List.mem_cons_self, ?_⟩
    rw [List.append_assoc, List.cons_append]

/-- The text of a finite double starts like a number. -/
theorem numberStart_float {x : Float} {negative : Bool} {significand : Nat} {exponent : Int}
    (h : Binary.ofFloat x = .finite negative significand exponent) (rest : List Char) :
    NumberStart ((Number.text x).toList ++ rest) := by
  obtain ⟨n, hn, htext, -⟩ := text_eq_numeral h
  have hdigits := hn.whole_digits
  rw [htext, Numeral.chars]
  cases hds : n.whole with
  | nil => exact absurd hds hn.whole_ne
  | cons d ds =>
    rw [hds] at hdigits
    refine ⟨negative, d, ds ++ (n.fractionChars ++ n.exponentChars ++ rest),
      hdigits d List.mem_cons_self, ?_⟩
    simp only [List.append_assoc, List.cons_append]

/-- A scalar is read back, whatever delimits it. -/
theorem value_scalar {s : Scalar} (hs : s.Legible) (fuel depth : Nat) {rest : List Char}
    (hrest : Delimited rest) :
    value (fuel + 1) depth ((scalarText s).toList ++ rest) = .ok (.scalar s, rest) := by
  cases s with
  | null => rfl
  | bool b =>
    cases b with
    | true => rfl
    | false => rfl
  | int n =>
    change value _ _ ((toString n : String).toList ++ rest) = _
    rw [value_number (numberStart_int n rest), number_int hs hrest]
  | float x =>
    change value _ _ ((numberText x).toList ++ rest) = _
    unfold numberText
    cases h : Binary.ofFloat x with
    | nan =>
      rw [ofFloat_eq_nan h]
      rfl
    | infinite negative =>
      rw [ofFloat_eq_infinite h]
      cases negative with
      | true => rfl
      | false => rfl
    | finite negative significand exponent =>
      exact (value_number (numberStart_float h rest) fuel depth).trans (number_text h hrest)
  | text t =>
    change value _ _ ((stringText t).toList ++ rest) = _
    rw [toList_stringText]
    change value (fuel + 1) depth ('"' :: (t.flatMap escapeSymbol ++ ['"'] ++ rest)) = _
    rw [List.append_assoc, List.singleton_append, value, string_text hs]

/-- Text that starts with neither white space nor a closing bracket. -/
def Opens (cs : List Char) : Prop :=
  ∃ c rest, cs = c :: rest ∧ isSpace c = false ∧ c ≠ ']' ∧ c ≠ '\x7d'

/-- No white space is passed over before a value. -/
theorem Opens.skipSpace_append {cs : List Char} (h : Opens cs) (rest : List Char) :
    skipSpace (cs ++ rest) = cs ++ rest := by
  obtain ⟨c, cs, rfl, hc, -⟩ := h
  rw [skipSpace, List.cons_append, List.dropWhile_cons_of_neg (Bool.eq_false_iff.mp hc)]

/-- What opens a text does so whatever follows. -/
theorem Opens.append {cs : List Char} (h : Opens cs) (rest : List Char) : Opens (cs ++ rest) := by
  obtain ⟨c, cs, rfl, hc⟩ := h
  exact ⟨c, cs ++ rest, rfl, hc⟩

/-- A printed string opens its text. -/
theorem opens_stringText (t : Text) : Opens (stringText t).toList := by
  rw [toList_stringText]
  exact ⟨'"', _, rfl, by decide⟩

/-- A number opens a text. -/
theorem NumberStart.opens {cs : List Char} (h : NumberStart cs) : Opens cs := by
  obtain ⟨negative, d, rest, hd, rfl⟩ := h
  cases negative with
  | true => exact ⟨'-', d :: rest, rfl, by decide⟩
  | false =>
    have hne {c : Char} (hc : c.isDigit = false) := ne_of_isDigit hd hc
    refine ⟨d, rest, rfl, ?_, hne (by decide), hne (by decide)⟩
    simp only [isSpace, Bool.or_eq_false_iff, beq_eq_false_iff_ne]
    exact ⟨⟨⟨hne (by decide), hne (by decide)⟩, hne (by decide)⟩, hne (by decide)⟩

/-- Every printed value opens its text. -/
theorem opens_printAt (layout : Layout) (depth : Nat) (d : Json) :
    Opens (printAt layout depth d).toList := by
  cases d with
  | scalar s =>
    rw [printAt]
    cases s with
    | null => exact ⟨'n', _, rfl, by decide⟩
    | bool b =>
      cases b with
      | true => exact ⟨'t', _, rfl, by decide⟩
      | false => exact ⟨'f', _, rfl, by decide⟩
    | int n =>
      have h := numberStart_int n []
      rw [List.append_nil] at h
      exact h.opens
    | float x =>
      change Opens (numberText x).toList
      unfold numberText
      cases h : Binary.ofFloat x with
      | nan => exact ⟨'N', "aN".toList, by simp, by decide⟩
      | infinite negative =>
        cases negative with
        | true => exact ⟨'-', "Infinity".toList, by simp, by decide⟩
        | false => exact ⟨'I', "nfinity".toList, by simp, by decide⟩
      | finite negative significand exponent =>
        have hstart := numberStart_float h []
        rw [List.append_nil] at hstart
        exact hstart.opens
    | text t => exact opens_stringText t
  | list xs =>
    cases xs with
    | nil => exact ⟨'[', [']'], by simp [printAt], by decide⟩
    | cons x xs =>
      simp only [printAt, String.toList_append]
      exact ⟨'[', _, rfl, by decide⟩
  | record fs =>
    cases fs with
    | nil => exact ⟨'\x7b', ['\x7d'], by simp [printAt], by decide⟩
    | cons f fs =>
      simp only [printAt, String.toList_append]
      exact ⟨'\x7b', _, rfl, by decide⟩

/-- No value is printed as nothing. -/
theorem length_printAt_pos (layout : Layout) (depth : Nat) (d : Json) :
    0 < (printAt layout depth d).toList.length := by
  obtain ⟨c, cs, hcs, -⟩ := opens_printAt layout depth d
  rw [hcs]
  exact Nat.succ_pos _

/-- A line break and its indentation are passed over. -/
theorem skipSpace_line (layout : Layout) (depth : Nat) (cs : List Char) :
    skipSpace ((layout.line depth).toList ++ cs) = skipSpace cs := by
  cases layout with
  | oneLine => rfl
  | indented width =>
    refine List.dropWhile_append_of_pos fun c hc => ?_
    simp only [Layout.line, String.toList_append, String.toList_ofList, List.mem_append,
      List.mem_replicate] at hc
    rcases hc with hc | ⟨-, rfl⟩
    · obtain rfl : c = '\n' := by simpa using hc
      rfl
    · rfl

/-- What separates two items is a comma and white space. -/
theorem toList_separator (layout : Layout) (depth : Nat) :
    ∃ gap, (layout.separator depth).toList = ',' :: gap ∧
      ∀ cs, skipSpace (gap ++ cs) = skipSpace cs := by
  cases layout with
  | oneLine => exact ⟨[' '], by simp [Layout.separator], fun cs => rfl⟩
  | indented width =>
    refine ⟨((Layout.indented width).line depth).toList, ?_, skipSpace_line _ depth⟩
    rw [Layout.separator, String.toList_append]
    rfl

/-- A delimiter delimits. -/
theorem delimited_cons {c : Char} (hc : c.isDigit = false ∧ c ≠ '.' ∧ c ≠ 'e' ∧ c ≠ 'E')
    (rest : List Char) : Delimited (c :: rest) := by
  rintro _ ⟨⟩
  exact hc

/-- A line break delimits, and so does what follows if there is none. -/
theorem delimited_line (layout : Layout) (depth : Nat) {cs : List Char} (hcs : Delimited cs) :
    Delimited ((layout.line depth).toList ++ cs) := by
  cases layout with
  | oneLine => exact hcs
  | indented width =>
    simp only [Layout.line, String.toList_append, List.append_assoc]
    exact delimited_cons (by decide) _

/-- What a reading should come to: the value, unless it needs more nesting than is allowed. -/
def ReadsOrRefuses (allowed needed : Nat) (d : Json) (rest : List Char) (read : Step Json) : Prop :=
  needed ≤ allowed ∧ read = .ok (d, rest) ∨
    allowed < needed ∧ ∃ kind, read = .error (.refusal (.tooDeep kind))

/-- What is not nested too deeply itself leaves the outcome to the rest. -/
theorem ReadsOrRefuses.max_left {allowed needed needed' : Nat} {d : Json} {rest : List Char}
    {read : Step Json} (h : ReadsOrRefuses allowed needed' d rest read) (hle : needed ≤ allowed) :
    ReadsOrRefuses allowed (max needed needed') d rest read :=
  h.imp (fun h => ⟨Nat.max_le.mpr ⟨hle, h.1⟩, h.2⟩) fun h => ⟨lt_max_of_lt_right h.1, h.2⟩

/-- One more level of nesting is allowed and needed. -/
theorem ReadsOrRefuses.succ {allowed needed : Nat} {d : Json} {rest : List Char}
    {read : Step Json} (h : ReadsOrRefuses allowed needed d rest read) :
    ReadsOrRefuses (allowed + 1) (needed + 1) d rest read :=
  h.imp (fun h => ⟨Nat.succ_le_succ h.1, h.2⟩) fun h => ⟨Nat.succ_lt_succ h.1, h.2⟩

/-- A printed value is read back or refused, whatever delimits it; twice the characters are enough
fuel. -/
def Answers (layout : Layout) (allowed : Nat) (d : Json) : Prop :=
  ∀ (depth fuel : Nat) {rest : List Char}, Delimited rest →
    2 * (printAt layout depth d).toList.length ≤ fuel + 1 →
    ReadsOrRefuses allowed d.nesting d rest
      (value fuel allowed ((printAt layout depth d).toList ++ rest))

variable {layout : Layout} {allowed : Nat}

/-- The items of a list are read back up to its closing bracket. -/
theorem items_printItems {depth : Nat} {below rest : List Char}
    (hdelimited : Delimited (below ++ ']' :: rest))
    (hbelow : skipSpace (below ++ ']' :: rest) = ']' :: rest) {x : Json} {xs : List Json}
    (hx : Answers layout allowed x) (hxs : ∀ y ∈ xs, Answers layout allowed y) (found : List Json)
    (fuel : Nat) (hfuel : 2 * ((printAt layout depth x).toList.length +
      (printItems layout depth xs).toList.length) ≤ fuel) :
    ReadsOrRefuses allowed (nestingItems (x :: xs)) (.list (found.reverse ++ x :: xs)) rest
      (items fuel allowed found ((printAt layout depth x).toList ++
        ((printItems layout depth xs).toList ++ (below ++ ']' :: rest)))) := by
  induction xs generalizing x found fuel with
  | nil =>
    have hpos := length_printAt_pos layout depth x
    obtain ⟨fuel, rfl⟩ := Nat.exists_eq_add_of_le' (show 1 ≤ fuel by omega)
    have hempty : (printItems layout depth []).toList = [] := by simp [printItems]
    rw [hempty, List.nil_append, nestingItems, nestingItems, Nat.max_zero, items]
    rcases hx depth fuel hdelimited (by omega) with ⟨hle, hread⟩ | ⟨hlt, kind, hread⟩
    · rw [hread]
      exact .inl ⟨hle, by simp [hbelow]⟩
    · rw [hread]
      exact .inr ⟨hlt, kind, rfl⟩
  | cons y ys ih =>
    have hpos := length_printAt_pos layout depth x
    obtain ⟨fuel, rfl⟩ := Nat.exists_eq_add_of_le' (show 1 ≤ fuel by omega)
    obtain ⟨gap, hseparator, hgap⟩ := toList_separator layout depth
    obtain ⟨hy, hys⟩ := List.forall_mem_cons.mp hxs
    simp only [printItems, String.toList_append, hseparator, List.append_assoc, List.cons_append,
      List.length_append, List.length_cons] at hfuel ⊢
    have hrest := ih hy hys (x :: found) fuel (by omega)
    rw [nestingItems, items]
    rcases hx depth fuel (delimited_cons (c := ',') (by decide) _) (by omega) with
      ⟨hle, hread⟩ | ⟨hlt, kind, hread⟩
    · rw [hread]
      change ReadsOrRefuses _ _ _ _ (items fuel allowed (x :: found) (skipSpace (gap ++ _)))
      rw [hgap, (opens_printAt layout depth y).skipSpace_append]
      rw [List.reverse_cons, List.append_assoc, List.singleton_append] at hrest
      exact hrest.max_left hle
    · rw [hread]
      exact .inr ⟨lt_max_of_lt_left hlt, kind, rfl⟩

/-- A name is new if the names of the fields with it are distinct. -/
theorem notMem_keys {found fs : List (Text × Json)} {f : Text × Json}
    (h : (Entries.keys (found ++ f :: fs)).Nodup) : f.1 ∉ Entries.keys found := by
  simp only [Entries.keys, List.map_append, List.map_cons, List.nodup_append] at h
  exact fun hmem => h.2.2 f.1 hmem f.1 List.mem_cons_self rfl

/-- What is done when the value of a field has been read. -/
def fieldRead (fuel depth : Nat) (found : List (Text × Json)) (k : Text) : Step Json → Step Json
  | .error e => .error e
  | .ok (x, rest) =>
    match skipSpace rest with
    | '\x7d' :: rest => .ok (.record (Entries.put found k x), rest)
    | ',' :: rest => fields fuel depth (Entries.put found k x) (skipSpace rest)
    | rest => .error (.problem .comma rest.length)

/-- The name of a field is read back, and its value is read next. -/
theorem fields_field {depth fuel : Nat} {k : Text} {x : Json} {found : List (Text × Json)}
    (hk : IsJoined k) {rest : List Char} :
    fields (fuel + 1) allowed found ((stringText k).toList ++
      (':' :: ' ' :: ((printAt layout depth x).toList ++ rest))) =
      fieldRead fuel allowed found k
        (value fuel allowed ((printAt layout depth x).toList ++ rest)) := by
  have hvalue : skipSpace (' ' :: ((printAt layout depth x).toList ++ rest)) =
      (printAt layout depth x).toList ++ rest :=
    (opens_printAt layout depth x).skipSpace_append rest
  have hcolon (cs : List Char) : skipSpace (':' :: cs) = ':' :: cs := rfl
  rw [toList_stringText, List.cons_append, List.append_assoc, List.singleton_append, fields,
    string_text hk]
  simp only [hcolon]
  rw [hvalue]
  rfl

/-- The fields of a record are read back up to its closing brace. -/
theorem fields_printFields {depth : Nat} {below rest : List Char}
    (hdelimited : Delimited (below ++ '\x7d' :: rest))
    (hbelow : skipSpace (below ++ '\x7d' :: rest) = '\x7d' :: rest) {k : Text} {x : Json}
    {fs : List (Text × Json)} (hk : IsJoined k) (hx : Answers layout allowed x)
    (hnames : ∀ f ∈ fs, IsJoined f.1) (hfs : ∀ f ∈ fs, Answers layout allowed f.2)
    {found : List (Text × Json)} (hkeys : (Entries.keys (found ++ (k, x) :: fs)).Nodup)
    (fuel : Nat) (hfuel : 2 * ((printAt layout depth x).toList.length +
      (printFields layout depth fs).toList.length) ≤ fuel) :
    ReadsOrRefuses allowed (nestingFields ((k, x) :: fs)) (.record (found ++ (k, x) :: fs)) rest
      (fields fuel allowed found ((stringText k).toList ++ (':' :: ' ' ::
        ((printAt layout depth x).toList ++
          ((printFields layout depth fs).toList ++ (below ++ '\x7d' :: rest)))))) := by
  induction fs generalizing k x found fuel with
  | nil =>
    have hpos := length_printAt_pos layout depth x
    obtain ⟨fuel, rfl⟩ := Nat.exists_eq_add_of_le' (show 1 ≤ fuel by omega)
    have hempty : (printFields layout depth []).toList = [] := by simp [printFields]
    rw [hempty, List.nil_append, nestingFields, nestingFields, Nat.max_zero, fields_field hk]
    rcases hx depth fuel hdelimited (by omega) with ⟨hle, hread⟩ | ⟨hlt, kind, hread⟩
    · rw [hread]
      exact .inl ⟨hle, by simp [fieldRead, hbelow, Entries.put_of_notMem (notMem_keys hkeys)]⟩
    · rw [hread]
      exact .inr ⟨hlt, kind, rfl⟩
  | cons f fs ih =>
    obtain ⟨l, y⟩ := f
    have hpos := length_printAt_pos layout depth x
    obtain ⟨fuel, rfl⟩ := Nat.exists_eq_add_of_le' (show 1 ≤ fuel by omega)
    obtain ⟨gap, hseparator, hgap⟩ := toList_separator layout depth
    obtain ⟨hl, hnames⟩ := List.forall_mem_cons.mp hnames
    obtain ⟨hy, hfs⟩ := List.forall_mem_cons.mp hfs
    dsimp only at hl hy
    have hfound : found ++ (k, x) :: (l, y) :: fs = found ++ [(k, x)] ++ (l, y) :: fs :=
      List.append_cons found (k, x) ((l, y) :: fs)
    have hcolon : (": " : String).toList = [':', ' '] := by simp
    simp only [printFields, String.toList_append, hseparator, hcolon, List.append_assoc,
      List.cons_append, List.nil_append, List.length_append, List.length_cons] at hfuel ⊢
    have hput := Entries.put_of_notMem (notMem_keys hkeys) x
    rw [hfound] at hkeys
    have hrest := ih hl hy hnames hfs hkeys fuel (by omega)
    rw [nestingFields, fields_field hk]
    rcases hx depth fuel (delimited_cons (c := ',') (by decide) _) (by omega) with
      ⟨hle, hread⟩ | ⟨hlt, kind, hread⟩
    · rw [hread]
      change ReadsOrRefuses _ _ _ _
        (fields fuel allowed (Entries.put found k x) (skipSpace (gap ++ _)))
      rw [hput, hgap, (opens_stringText l).skipSpace_append, hfound]
      exact hrest.max_left hle
    · rw [hread]
      exact .inr ⟨lt_max_of_lt_left hlt, kind, rfl⟩

/-- A bracket opens a list, whose items start behind white space. -/
theorem value_bracket (fuel allowed : Nat) {cs item : List Char} (hcs : skipSpace cs = item)
    (hitem : Opens item) :
    value (fuel + 1) (allowed + 1) ('[' :: cs) = items fuel allowed [] item := by
  obtain ⟨c, rest, rfl, -, hne, -⟩ := hitem
  rw [value, if_neg (by simp), hcs]
  split
  next heq => exact absurd (List.cons.inj heq).1 hne
  · rfl

/-- A brace opens a record, whose fields start behind white space. -/
theorem value_brace (fuel allowed : Nat) {cs field : List Char} (hcs : skipSpace cs = field)
    (hfield : Opens field) :
    value (fuel + 1) (allowed + 1) ('\x7b' :: cs) = fields fuel allowed [] field := by
  obtain ⟨c, rest, rfl, -, -, hne⟩ := hfield
  rw [value, if_neg (by simp), hcs]
  split
  next heq => exact absurd (List.cons.inj heq).1 hne
  · rfl

/-- The printed parts of a list that is not empty. -/
theorem toList_printAt_list (layout : Layout) (depth : Nat) (x : Json) (xs : List Json)
    (rest : List Char) :
    (printAt layout depth (.list (x :: xs))).toList ++ rest =
      '[' :: ((layout.line (depth + 1)).toList ++ ((printAt layout (depth + 1) x).toList ++
        ((printItems layout (depth + 1) xs).toList ++
          ((layout.line depth).toList ++ ']' :: rest)))) := by
  simp [printAt]

/-- The printed parts of a record that is not empty. -/
theorem toList_printAt_record (layout : Layout) (depth : Nat) (k : Text) (x : Json)
    (fs : List (Text × Json)) (rest : List Char) :
    (printAt layout depth (.record ((k, x) :: fs))).toList ++ rest =
      '\x7b' :: ((layout.line (depth + 1)).toList ++ ((stringText k).toList ++ (':' :: ' ' ::
        ((printAt layout (depth + 1) x).toList ++ ((printFields layout (depth + 1) fs).toList ++
          ((layout.line depth).toList ++ '\x7d' :: rest)))))) := by
  simp [printAt]

/-- A list answers when its items do. -/
theorem answers_list {xs : List Json} (h : ∀ allowed, ∀ x ∈ xs, Answers layout allowed x)
    (allowed : Nat) : Answers layout allowed (.list xs) := by
  intro depth fuel rest hrest hfuel
  have hpos := length_printAt_pos layout depth (.list xs)
  obtain ⟨fuel, rfl⟩ := Nat.exists_eq_add_of_le' (show 1 ≤ fuel by omega)
  rw [nesting]
  cases xs with
  | nil =>
    have htext : (printAt layout depth (.list [])).toList = ['[', ']'] := by simp [printAt]
    rw [htext]
    cases allowed with
    | zero => exact .inr ⟨Nat.succ_pos _, .list, rfl⟩
    | succ allowed => exact .inl ⟨Nat.succ_le_succ (Nat.zero_le _), rfl⟩
  | cons x xs =>
    have hlength := congrArg List.length (toList_printAt_list layout depth x xs rest)
    simp only [List.length_append, List.length_cons] at hlength
    rw [toList_printAt_list]
    cases allowed with
    | zero => exact .inr ⟨Nat.succ_pos _, .list, rfl⟩
    | succ allowed =>
      obtain ⟨hx, hxs⟩ := List.forall_mem_cons.mp (h allowed)
      have hopens := opens_printAt layout (depth + 1) x
      rw [value_bracket fuel allowed
        ((skipSpace_line _ _ _).trans (hopens.skipSpace_append _)) (hopens.append _)]
      exact (items_printItems (delimited_line layout depth (delimited_cons (by decide) rest))
        (skipSpace_line layout depth (']' :: rest)) hx hxs [] fuel (by omega)).succ

/-- A record with distinct names that are read back answers when its fields do. -/
theorem answers_record {fs : List (Text × Json)} (hkeys : (Entries.keys fs).Nodup)
    (hnames : ∀ f ∈ fs, IsJoined f.1) (h : ∀ allowed, ∀ f ∈ fs, Answers layout allowed f.2)
    (allowed : Nat) : Answers layout allowed (.record fs) := by
  intro depth fuel rest hrest hfuel
  have hpos := length_printAt_pos layout depth (.record fs)
  obtain ⟨fuel, rfl⟩ := Nat.exists_eq_add_of_le' (show 1 ≤ fuel by omega)
  rw [nesting]
  cases fs with
  | nil =>
    have htext : (printAt layout depth (.record [])).toList = ['\x7b', '\x7d'] := by
      simp [printAt]
    rw [htext]
    cases allowed with
    | zero => exact .inr ⟨Nat.succ_pos _, .record, rfl⟩
    | succ allowed => exact .inl ⟨Nat.succ_le_succ (Nat.zero_le _), rfl⟩
  | cons f fs =>
    obtain ⟨k, x⟩ := f
    have hlength := congrArg List.length (toList_printAt_record layout depth k x fs rest)
    simp only [List.length_append, List.length_cons] at hlength
    rw [toList_printAt_record]
    cases allowed with
    | zero => exact .inr ⟨Nat.succ_pos _, .record, rfl⟩
    | succ allowed =>
      obtain ⟨hk, hnames⟩ := List.forall_mem_cons.mp hnames
      obtain ⟨hx, hfs⟩ := List.forall_mem_cons.mp (h allowed)
      dsimp only at hk hx
      have hopens := opens_stringText k
      rw [value_brace fuel allowed
        ((skipSpace_line _ _ _).trans (hopens.skipSpace_append _)) (hopens.append _)]
      exact (fields_printFields (delimited_line layout depth (delimited_cons (by decide) rest))
        (skipSpace_line layout depth ('\x7d' :: rest)) hk hx hnames hfs hkeys fuel (by omega)).succ

/-- Every legible value is read back from what is printed for it, or nested too deeply. -/
theorem Legible.answers {d : Json} (h : d.Legible) (layout : Layout) (allowed : Nat) :
    Answers layout allowed d := by
  induction h generalizing allowed with
  | @scalar s hs =>
    intro depth fuel rest hrest hfuel
    have hpos := length_printAt_pos layout depth (.scalar s)
    obtain ⟨fuel, rfl⟩ := Nat.exists_eq_add_of_le' (show 1 ≤ fuel by omega)
    rw [printAt, nesting]
    exact .inl ⟨Nat.zero_le _, value_scalar hs fuel _ hrest⟩
  | list _ ih => exact answers_list (fun allowed x hx => ih x hx allowed) allowed
  | record hkeys hnames _ ih =>
    exact answers_record hkeys hnames (fun allowed f hf => ih f hf allowed) allowed

/-- The whole text of a legible value is read as the value, unless it is nested too deeply. -/
theorem document_print (layout : Layout) {d : Json} (h : d.Legible) :
    d.nesting ≤ maxDepth ∧ document (print layout d).toList = .ok d ∨
      maxDepth < d.nesting ∧
        ∃ kind, document (print layout d).toList = .error (.refusal (.tooDeep kind)) := by
  have hopens := opens_printAt layout 0 d
  have hprinted := allPrinted_printAt layout 0 d
  have hskip := hopens.skipSpace_append []
  have hend : Delimited [] := fun c hc => nomatch hc
  have hread := h.answers layout maxDepth 0 (2 * (printAt layout 0 d).toList.length + 2) hend
    (by omega)
  rw [List.append_nil] at hskip hread
  rw [print]
  obtain ⟨c, cs, hcs, -⟩ := hopens
  have hmark : (c.toNat == 0xfeff) = false := by
    have hc : c.toNat < 0x7f := by
      rcases hprinted c (hcs ▸ List.mem_cons_self) with rfl | hc
      · decide
      · exact hc.2
    exact beq_eq_false_iff_ne.mpr (by omega)
  rw [hcs] at hskip hread ⊢
  simp only [document, hmark, hskip]
  rcases hread with ⟨hle, hread⟩ | ⟨hlt, kind, hread⟩
  · rw [hread]
    exact .inl ⟨hle, rfl⟩
  · rw [hread]
    exact .inr ⟨hlt, kind, rfl⟩

end Json

end Landscape
