import Landscape.Json.Reader

/-!
# Which texts are refused

A text may be refused though nothing in it is wrong: for an integer with too many digits, or for
lists and records that are nested too deeply. Both are seen in the text itself. Outside of strings
it has a run of more digits than an integer may have, or a place where more brackets are open than
the reader follows. For this it is enough to know of strings where they end.
-/

namespace Landscape.Json

open Number

variable {α : Type} {cs used rest : List Char} {k depth : Nat}

/-- Where a place in a text is: outside of strings, in one, or there behind a backslash. -/
inductive Region where
  | outside
  | string
  | escape
  deriving DecidableEq, Repr

/-- Pass a character; the region behind it, and how many brackets are open there. -/
def pass : Region × Nat → Char → Region × Nat
  | (.outside, n), c =>
    if c = '"' then (.string, n)
    else if c = '[' ∨ c = '\x7b' then (.outside, n + 1)
    else if c = ']' ∨ c = '\x7d' then (.outside, n - 1)
    else (.outside, n)
  | (.string, n), c =>
    if c = '"' then (.outside, n) else if c = '\\' then (.escape, n) else (.string, n)
  | (.escape, n), _ => (.string, n)

/-- A part that begins and ends outside of strings and leaves so many more brackets open. -/
def LeavesOpen (used : List Char) (k : Nat) : Prop :=
  ∀ n, used.foldl pass (.outside, n) = (.outside, n + k)

/-- A part that begins and ends outside of strings and closes one bracket. -/
def Closes (used : List Char) : Prop :=
  ∀ n, used.foldl pass (.outside, n + 1) = (.outside, n)

/-- A part that ends the string in which it begins. -/
def EndsString (used : List Char) : Prop :=
  ∀ n, used.foldl pass (.string, n) = (.outside, n)

/-- The characters that matter outside of strings. -/
def brackets : List Char := ['"', '[', ']', '\x7b', '\x7d']

theorem leavesOpen_nil : LeavesOpen [] 0 := fun _ => rfl

theorem LeavesOpen.append {used' : List Char} {k' : Nat} (h : LeavesOpen used k)
    (h' : LeavesOpen used' k') :
    LeavesOpen (used ++ used') (k + k') := by
  intro n
  rw [List.foldl_append, h, h', Nat.add_assoc]

/-- A character that is no bracket changes nothing. -/
theorem leavesOpen_cons {c : Char} (hc : c ∉ brackets) (h : LeavesOpen used k) :
    LeavesOpen (c :: used) k := by
  intro n
  simp only [brackets, List.mem_cons, List.not_mem_nil, or_false, not_or] at hc
  rw [List.foldl_cons, pass, if_neg hc.1, if_neg (not_or.mpr ⟨hc.2.1, hc.2.2.2.1⟩),
    if_neg (not_or.mpr ⟨hc.2.2.1, hc.2.2.2.2⟩)]
  exact h n

/-- Characters that are no brackets change nothing. -/
theorem leavesOpen_of_forall (h : ∀ c ∈ used, c ∉ brackets) : LeavesOpen used 0 := by
  induction used with
  | nil => exact leavesOpen_nil
  | cons c used ih =>
    rw [List.forall_mem_cons] at h
    exact leavesOpen_cons h.1 (ih h.2)

/-- What closes a bracket closes it behind anything that opens and closes its own. -/
theorem LeavesOpen.closes {used' : List Char} (h : LeavesOpen used 0) (h' : Closes used') :
    Closes (used ++ used') := by
  intro n
  rw [List.foldl_append, h, h']

/-- White space opens nothing. -/
theorem exists_skipSpace (cs : List Char) :
    ∃ spaces, cs = spaces ++ skipSpace cs ∧ LeavesOpen spaces 0 := by
  refine ⟨cs.takeWhile isSpace, List.takeWhile_append_dropWhile.symm, leavesOpen_of_forall ?_⟩
  intro c hc hmem
  have hspace : isSpace c = true := List.all_eq_true.mp List.all_takeWhile c hc
  have hbrackets : ∀ c ∈ brackets, isSpace c = false := by simp [brackets, isSpace]
  rw [hbrackets c hmem] at hspace
  cases hspace

/-- What a text has that is refused where lists and records may be nested so deep. -/
inductive Refused (depth : Nat) (cs : List Char) : Error → Prop
  | tooDeep {before after : List Char} (kind : Nesting) (hcs : cs = before ++ after)
    (hopen : LeavesOpen before (depth + 1)) : Refused depth cs (.tooDeep kind)
  | tooLong {before digits after : List Char} {k : Nat} (hcs : cs = before ++ (digits ++ after))
    (hopen : LeavesOpen before k) (hdigits : ∀ c ∈ digits, c.isDigit = true)
    (hlength : maxDigits < digits.length) : Refused depth cs (.numeral (.tooLong digits.length))

/-- What is refused behind something else is refused with it. -/
theorem Refused.prepend {e : Error} (h : Refused depth cs e) (hopen : LeavesOpen used k) :
    Refused (depth + k) (used ++ cs) e := by
  cases h with
  | tooDeep kind hcs hbefore =>
    refine .tooDeep kind (by rw [hcs, List.append_assoc]) ?_
    have h := hopen.append hbefore
    rwa [show k + (depth + 1) = depth + k + 1 by omega] at h
  | tooLong hcs hbefore hdigits hlength =>
    exact .tooLong (by rw [hcs, List.append_assoc]) (hopen.append hbefore) hdigits hlength

/-- A reading that takes a part of a certain form from a text, or refuses it for what it has. -/
structure Accounts (Part : List Char → Prop) (depth : Nat) (cs : List Char) (read : Step α) :
    Prop where
  taken : ∀ {a rest}, read = .ok (a, rest) → ∃ used, cs = used ++ rest ∧ Part used
  refused : ∀ {e}, read = .error (.refusal e) → Refused depth cs e

variable {Part Part' : List Char → Prop} {read : Step α}

/-- A reading that takes a part. -/
theorem accounts_ok {a : α} (used : List Char) (hcs : cs = used ++ rest) (hpart : Part used) :
    Accounts Part depth cs (.ok (a, rest) : Step α) := by
  refine ⟨fun h => ?_, nofun⟩
  obtain ⟨rfl, rfl⟩ := Prod.mk.inj (Except.ok.inj h)
  exact ⟨used, hcs, hpart⟩

/-- A text in which something is wrong is not refused. -/
theorem accounts_problem (kind : Problem) (left : Nat) :
    Accounts Part depth cs (.error (.problem kind left) : Step α) :=
  ⟨nofun, nofun⟩

/-- A reading that goes on behind something else. -/
theorem Accounts.prepend (h : Accounts Part depth cs read) (hopen : LeavesOpen used k)
    (hpart : ∀ more, Part more → Part' (used ++ more)) :
    Accounts Part' (depth + k) (used ++ cs) read := by
  refine ⟨fun hread => ?_, fun hread => (h.refused hread).prepend hopen⟩
  obtain ⟨more, hcs, hmore⟩ := h.taken hread
  exact ⟨used ++ more, by rw [hcs, List.append_assoc], hpart more hmore⟩

/-- An ordinary character of a string. -/
theorem pass_string {c : Char} (h : c ≠ '"' ∧ c ≠ '\\') (n : Nat) :
    pass (.string, n) c = (.string, n) := by
  rw [pass, if_neg h.1, if_neg h.2]

/-- A hexadecimal digit is an ordinary character. -/
theorem ne_of_hexValue? {c : Char} {n : Nat} (h : hexValue? c = some n) : c ≠ '"' ∧ c ≠ '\\' := by
  constructor
  · rintro rfl
    cases h
  · rintro rfl
    cases h

/-- Four hexadecimal digits are ordinary characters. -/
theorem ne_of_hexValue4? {a b c d : Char} {n : Nat} (h : hexValue4? a b c d = some n) :
    ∀ x ∈ [a, b, c, d], x ≠ '"' ∧ x ≠ '\\' := by
  simp only [hexValue4?, Option.bind_eq_bind, Option.bind_eq_some_iff] at h
  obtain ⟨_, ha, _, hb, _, hc, _, hd, -⟩ := h
  simp [ne_of_hexValue? ha, ne_of_hexValue? hb, ne_of_hexValue? hc, ne_of_hexValue? hd]

/-- Ordinary characters leave a string as it is. -/
theorem foldl_pass_string {cs : List Char} (h : ∀ c ∈ cs, c ≠ '"' ∧ c ≠ '\\') (n : Nat) :
    cs.foldl pass (.string, n) = (.string, n) := by
  induction cs with
  | nil => rfl
  | cons c cs ih =>
    rw [List.forall_mem_cons] at h
    rw [List.foldl_cons, pass_string h.1, ih h.2]

/-- A string goes on behind a part that leaves it as it is. -/
theorem EndsString.prepend {start : List Char} (h : EndsString used)
    (hstart : ∀ n, start.foldl pass (.string, n) = (.string, n)) : EndsString (start ++ used) := by
  intro n
  rw [List.foldl_append, hstart, h]

/-- Behind its part, a reading gives what comes then. -/
theorem Step.cons_eq_ok {p : Piece} {read : Step (List Piece)} {pieces : List Piece}
    (h : read.cons p = .ok (pieces, rest)) : ∃ more, read = .ok (more, rest) := by
  cases read with
  | error e => cases h
  | ok found =>
    obtain ⟨-, rfl⟩ := Prod.mk.inj (Except.ok.inj h)
    exact ⟨found.1, rfl⟩

/-- A string that goes on behind a part that leaves it as it is ends where it would have ended. -/
theorem exists_endsString (start : List Char) {p : Piece} {read : Step (List Piece)}
    {pieces : List Piece} (hstart : ∀ n, start.foldl pass (.string, n) = (.string, n))
    (hread : read.cons p = .ok (pieces, rest))
    (ih : ∀ more, read = .ok (more, rest) → ∃ used, cs = used ++ rest ∧ EndsString used) :
    ∃ used, start ++ cs = used ++ rest ∧ EndsString used := by
  obtain ⟨more, hmore⟩ := Step.cons_eq_ok hread
  obtain ⟨used, rfl, hused⟩ := ih more hmore
  exact ⟨start ++ used, (List.append_assoc ..).symm, hused.prepend hstart⟩

/-- The inside of a string is taken up to where it ends. -/
theorem stringBody_ends {opened : List Char} {pieces : List Piece}
    (h : stringBody opened cs = .ok (pieces, rest)) :
    ∃ used, cs = used ++ rest ∧ EndsString used := by
  fun_induction stringBody opened cs generalizing pieces with
  | case1 => cases h
  | case2 tail =>
    obtain ⟨-, rfl⟩ := Prod.mk.inj (Except.ok.inj h)
    exact ⟨['"'], rfl, fun n => rfl⟩
  | case3 => cases h
  | case4 a b c d tail n hvalue _ ih =>
    refine exists_endsString ['\\', 'u', a, b, c, d] (fun n => ?_) h fun _ => ih
    exact foldl_pass_string (ne_of_hexValue4? hvalue) n
  | case5 => cases h
  | case6 => cases h
  | case7 => cases h
  | case8 c tail _ _ d _ ih =>
    exact exists_endsString ['\\', c] (fun n => rfl) h fun _ => ih
  | case9 => cases h
  | case10 => cases h
  | case11 c tail hquote _ hnil hcons _ ih =>
    have hslash : c ≠ '\\' := by
      rintro rfl
      cases tail with
      | nil => exact hnil rfl rfl
      | cons c tail => exact hcons c tail rfl rfl
    exact exists_endsString [c] (pass_string ⟨hquote, hslash⟩) h fun _ => ih

/-- Nothing in a string is refused. -/
theorem stringBody_ne_refusal (opened cs : List Char) (e : Error) :
    stringBody opened cs ≠ .error (.refusal e) := by
  have hgoes {p : Piece} {read : Step (List Piece)} (ih : read ≠ .error (.refusal e)) :
      read.cons p ≠ .error (.refusal e) := by
    intro h
    cases read with
    | error fault => exact ih h
    | ok found => cases h
  fun_induction stringBody opened cs with
  | case4 _ _ _ _ _ _ _ _ ih => exact hgoes ih
  | case8 _ _ _ _ _ _ ih => exact hgoes ih
  | case11 _ _ _ _ _ _ _ ih => exact hgoes ih
  | _ => nofun

/-- A string with both its quotes is taken as a whole, and nothing in it is refused. -/
theorem accounts_string (depth : Nat) (opened cs : List Char) :
    Accounts (LeavesOpen · 0) depth ('"' :: cs) (string opened cs) := by
  unfold string
  split
  next pieces rest hbody =>
    obtain ⟨used, rfl, hused⟩ := stringBody_ends hbody
    exact accounts_ok ('"' :: used) rfl hused
  next fault hbody =>
    refine ⟨nofun, fun {e} h => absurd hbody ?_⟩
    rw [Except.error.inj h]
    exact stringBody_ne_refusal opened cs e

/-- A part without brackets has been taken. -/
def TakesPlain (cs rest : List Char) : Prop :=
  ∃ used, cs = used ++ rest ∧ ∀ c ∈ used, c ∉ brackets

/-- Nothing may be taken. -/
theorem TakesPlain.refl (cs : List Char) : TakesPlain cs cs :=
  ⟨[], rfl, List.forall_mem_nil _⟩

/-- A character that is no bracket may be taken. -/
theorem TakesPlain.cons {c : Char} (hc : c ∉ brackets) (h : TakesPlain cs rest) :
    TakesPlain (c :: cs) rest := by
  obtain ⟨used, rfl, hused⟩ := h
  exact ⟨c :: used, rfl, List.forall_mem_cons.mpr ⟨hc, hused⟩⟩

/-- One part may be taken after another. -/
theorem TakesPlain.trans {rest' : List Char} (h : TakesPlain cs rest) (h' : TakesPlain rest rest') :
    TakesPlain cs rest' := by
  obtain ⟨used, rfl, hused⟩ := h
  obtain ⟨used', rfl, hused'⟩ := h'
  exact ⟨used ++ used', (List.append_assoc ..).symm, List.forall_mem_append.mpr ⟨hused, hused'⟩⟩

/-- A digit is no bracket. -/
theorem not_mem_brackets_of_isDigit {c : Char} (h : c.isDigit = true) : c ∉ brackets := by
  have hbrackets : ∀ c ∈ brackets, c.isDigit = false := by simp [brackets]
  intro hmem
  rw [hbrackets c hmem] at h
  cases h

/-- The leading digits are a run of digits, one for each value. -/
theorem exists_asciiDigits (cs : List Char) :
    ∃ digits, cs = digits ++ (asciiDigits cs).2 ∧ (∀ c ∈ digits, c.isDigit = true) ∧
      digits.length = (asciiDigits cs).1.length := by
  induction cs with
  | nil => exact ⟨[], rfl, List.forall_mem_nil _, rfl⟩
  | cons c cs ih =>
    rw [asciiDigits]
    split
    next hc =>
      obtain ⟨digits, hcs, hdigits, hlength⟩ := ih
      exact ⟨c :: digits, congrArg (c :: ·) hcs, List.forall_mem_cons.mpr ⟨hc, hdigits⟩,
        congrArg (· + 1) hlength⟩
    · exact ⟨[], rfl, List.forall_mem_nil _, rfl⟩

/-- Whole digits are a run of digits, one for each value. -/
theorem exists_wholeDigits (cs : List Char) :
    ∃ digits, cs = digits ++ (wholeDigits cs).2 ∧ (∀ c ∈ digits, c.isDigit = true) ∧
      digits.length = (wholeDigits cs).1.length := by
  unfold wholeDigits
  split
  · exact ⟨['0'], rfl, by simp, rfl⟩
  · exact exists_asciiDigits cs

/-- Digits are taken without brackets. -/
theorem takesPlain_asciiDigits (cs : List Char) : TakesPlain cs (asciiDigits cs).2 := by
  obtain ⟨digits, hcs, hdigits, -⟩ := exists_asciiDigits cs
  exact ⟨digits, hcs, fun c hc => not_mem_brackets_of_isDigit (hdigits c hc)⟩

/-- A sign is no bracket. -/
theorem takesPlain_splitSign (cs : List Char) : TakesPlain cs (splitSign cs).2 := by
  unfold splitSign
  split
  · exact (TakesPlain.refl _).cons (by decide)
  · exact (TakesPlain.refl _).cons (by decide)
  · exact .refl _

/-- Nor is a minus. -/
theorem takesPlain_splitMinus (cs : List Char) : TakesPlain cs (splitMinus cs).2 := by
  unfold splitMinus
  split
  · exact (TakesPlain.refl _).cons (by decide)
  · exact .refl _

/-- A fraction has no brackets. -/
theorem takesPlain_fractionDigits? {ds : List Nat} (h : fractionDigits? cs = some (ds, rest)) :
    TakesPlain cs rest := by
  unfold fractionDigits? at h
  split at h
  next tail =>
    have htail := takesPlain_asciiDigits tail
    split at h
    · cases h
    · rw [Option.some.inj h] at htail
      exact htail.cons (by decide)
  · cases h

/-- An exponent has no brackets. -/
theorem takesPlain_exponentDigits? {e : Int} (h : exponentDigits? cs = some (e, rest)) :
    TakesPlain cs rest := by
  unfold exponentDigits? at h
  split at h
  next c tail =>
    split at h
    next hc =>
      have hletter : c ∉ brackets := by
        rw [Bool.or_eq_true, beq_iff_eq, beq_iff_eq] at hc
        rcases hc with rfl | rfl
        · decide
        · decide
      have htail := (takesPlain_splitSign tail).trans (takesPlain_asciiDigits _)
      dsimp only at h
      split at h
      · cases h
      next found =>
        rw [found] at htail
        obtain ⟨-, rfl⟩ := Prod.mk.inj (Option.some.inj h)
        exact htail.cons hletter
    · cases h
  · cases h

/-- What may be missing has no brackets. -/
theorem takesPlain_getD {found? : Option (α × List Char)} (a : α)
    (h : ∀ found, found? = some found → TakesPlain cs found.2) :
    TakesPlain cs (found?.getD (a, cs)).2 := by
  cases found? with
  | none => exact .refl cs
  | some found => exact h found rfl

/-- A reading that takes a part without brackets. -/
theorem TakesPlain.accounts (h : TakesPlain cs rest) (depth : Nat) (a : α) :
    Accounts (LeavesOpen · 0) depth cs (.ok (a, rest) : Step α) := by
  obtain ⟨used, hcs, hused⟩ := h
  exact accounts_ok used hcs (leavesOpen_of_forall hused)

/-- A number has no brackets, and it is refused only for its whole digits. -/
theorem accounts_number (depth : Nat) (cs : List Char) :
    Accounts (LeavesOpen · 0) depth cs (number cs) := by
  unfold number
  dsimp only
  obtain ⟨minus, hcs, hminus⟩ := takesPlain_splitMinus cs
  obtain ⟨digits, htail, hdigits, hlength⟩ := exists_wholeDigits (splitMinus cs).2
  split
  · exact accounts_problem _ _
  next whole rest _ hwhole =>
    rw [hwhole] at htail hlength
    rw [htail] at hcs
    have htakes : TakesPlain cs rest :=
      TakesPlain.trans ⟨minus, hcs, hminus⟩
        ⟨digits, rfl, fun c hc => not_mem_brackets_of_isDigit (hdigits c hc)⟩
    have hfraction := htakes.trans
      (takesPlain_getD (α := List Nat) [] fun found => takesPlain_fractionDigits?)
    split
    · split
      next hlong =>
        rw [← hlength] at hlong ⊢
        refine ⟨nofun, fun h => ?_⟩
        obtain rfl := Fault.refusal.inj (Except.error.inj h)
        exact .tooLong hcs (leavesOpen_of_forall hminus) hdigits hlong
      · exact hfraction.accounts depth _
    · refine TakesPlain.accounts (hfraction.trans ?_) depth _
      exact takesPlain_getD 0 fun found h => takesPlain_exponentDigits? h

/-- A failed reading fails for the same text and whatever was to be read. -/
theorem Accounts.error {β : Type} {fault : Fault} (h : Accounts Part depth cs read)
    (hread : read = .error fault) : Accounts Part' depth cs (.error fault : Step β) := by
  refine ⟨nofun, fun heq => h.refused ?_⟩
  rw [hread, Except.error.inj heq]

/-- Behind a part that closes its own brackets, a bracket is closed as it would have been. -/
theorem Accounts.behind (h : Accounts Closes depth cs read) (hopen : LeavesOpen used 0) :
    Accounts Closes depth (used ++ cs) read :=
  h.prepend hopen fun _ hmore => hopen.closes hmore

/-- So it is behind white space. -/
theorem Accounts.behindSpace (h : Accounts Closes depth (skipSpace cs) read) :
    Accounts Closes depth cs read := by
  obtain ⟨spaces, hcs, hspaces⟩ := exists_skipSpace cs
  rw [hcs]
  exact h.behind hspaces

/-- So it is behind a character that is no bracket. -/
theorem Accounts.behindChar {c : Char} (h : Accounts Closes depth cs read) (hc : c ∉ brackets) :
    Accounts Closes depth (c :: cs) read :=
  h.behind (leavesOpen_cons hc leavesOpen_nil)

/-- A bracket and what closes it. -/
theorem Accounts.inBracket {c : Char} (h : Accounts Closes depth cs read)
    (hopen : LeavesOpen [c] 1) :
    Accounts (LeavesOpen · 0) (depth + 1) (c :: cs) read := by
  refine h.prepend hopen fun more hmore n => ?_
  rw [List.foldl_append, hopen, hmore, Nat.add_zero]

/-- A closing bracket. -/
theorem accounts_closing {c : Char} (hclose : Closes [c]) (a : α) :
    Accounts Closes depth (c :: rest) (.ok (a, rest) : Step α) :=
  accounts_ok [c] rfl hclose

/-- An opening bracket where no more may be open is refused. -/
theorem accounts_tooDeep {c : Char} (hopen : LeavesOpen [c] 1) (kind : Nesting) :
    Accounts Part 0 (c :: cs) (.error (.refusal (.tooDeep kind)) : Step α) := by
  refine ⟨nofun, fun h => ?_⟩
  obtain rfl := Fault.refusal.inj (Except.error.inj h)
  exact .tooDeep kind (List.singleton_append (l := cs)).symm hopen

/-- An opening bracket is one. -/
theorem leavesOpen_bracket : LeavesOpen ['['] 1 := fun _ => rfl

/-- An opening brace is one. -/
theorem leavesOpen_brace : LeavesOpen ['\x7b'] 1 := fun _ => rfl

/-- A closing bracket closes one. -/
theorem closes_bracket : Closes [']'] := fun _ => rfl

/-- So does a closing brace. -/
theorem closes_brace : Closes ['\x7d'] := fun _ => rfl

/-- A value closes its own brackets if what it opens is closed. -/
theorem accounts_value {fuel : Nat}
    (hitems : ∀ depth cs, Accounts Closes depth cs (items fuel depth [] cs))
    (hfields : ∀ depth cs, Accounts Closes depth cs (fields fuel depth [] cs))
    (depth : Nat) (cs : List Char) :
    Accounts (LeavesOpen · 0) depth cs (value (fuel + 1) depth cs) := by
  have hword (word : List Char) {rest : List Char} {d : Json} (hword : ∀ c ∈ word, c ∉ brackets) :
      Accounts (LeavesOpen · 0) depth (word ++ rest) (.ok (d, rest)) :=
    TakesPlain.accounts ⟨word, rfl, hword⟩ depth d
  unfold value
  split
  next rest =>
    have hstring := accounts_string depth ('"' :: rest) rest
    split
    next s rest hs =>
      obtain ⟨used, hcs, hused⟩ := hstring.taken hs
      exact accounts_ok used hcs hused
    next fault hs => exact hstring.error hs
  next rest =>
    cases depth with
    | zero => exact accounts_tooDeep leavesOpen_brace .record
    | succ depth =>
      refine Accounts.inBracket (Accounts.behindSpace ?_) leavesOpen_brace
      rw [if_neg (by simp)]
      split
      next hclose =>
        rw [hclose]
        exact accounts_closing closes_brace _
      · exact hfields depth _
  next rest =>
    cases depth with
    | zero => exact accounts_tooDeep leavesOpen_bracket .list
    | succ depth =>
      refine Accounts.inBracket (Accounts.behindSpace ?_) leavesOpen_bracket
      rw [if_neg (by simp)]
      split
      next hclose =>
        rw [hclose]
        exact accounts_closing closes_bracket _
      · exact hitems depth _
  · exact hword ['n', 'u', 'l', 'l'] (by simp [brackets])
  · exact hword ['t', 'r', 'u', 'e'] (by simp [brackets])
  · exact hword ['f', 'a', 'l', 's', 'e'] (by simp [brackets])
  · exact hword ['N', 'a', 'N'] (by simp [brackets])
  · exact hword ['I', 'n', 'f', 'i', 'n', 'i', 't', 'y'] (by simp [brackets])
  · exact hword ['-', 'I', 'n', 'f', 'i', 'n', 'i', 't', 'y'] (by simp [brackets])
  · exact accounts_number depth cs

/-- A list is closed if its items close their own brackets. -/
theorem accounts_items {fuel depth : Nat}
    (hvalue : ∀ cs, Accounts (LeavesOpen · 0) depth cs (value fuel depth cs))
    (hitems : ∀ found cs, Accounts Closes depth cs (items fuel depth found cs))
    (found : List Json) (cs : List Char) :
    Accounts Closes depth cs (items (fuel + 1) depth found cs) := by
  unfold items
  split
  next fault hx => exact (hvalue cs).error hx
  next x rest hx =>
    obtain ⟨used, rfl, hused⟩ := (hvalue cs).taken hx
    refine Accounts.behind (Accounts.behindSpace ?_) hused
    split
    next hclose =>
      rw [hclose]
      exact accounts_closing closes_bracket _
    next hcomma =>
      rw [hcomma]
      exact (hitems _ _).behindSpace.behindChar (by decide)
    · exact accounts_problem _ _

/-- A record is closed if its values close their own brackets. -/
theorem accounts_fields {fuel depth : Nat}
    (hvalue : ∀ cs, Accounts (LeavesOpen · 0) depth cs (value fuel depth cs))
    (hfields : ∀ found cs, Accounts Closes depth cs (fields fuel depth found cs))
    (found : List (Text × Json)) (cs : List Char) :
    Accounts Closes depth cs (fields (fuel + 1) depth found cs) := by
  unfold fields
  split
  next rest =>
    have hstring := accounts_string depth ('"' :: rest) rest
    split
    next fault hname => exact hstring.error hname
    next name rest' hname =>
      obtain ⟨used, hcs, hused⟩ := hstring.taken hname
      rw [hcs]
      refine Accounts.behind (Accounts.behindSpace ?_) hused
      split
      next rest hcolon =>
        rw [hcolon]
        refine Accounts.behindChar (Accounts.behindSpace ?_) (by decide)
        have hread := hvalue (skipSpace rest)
        split
        next fault hx => exact hread.error hx
        next x rest hx =>
          obtain ⟨used, hcs, hused⟩ := hread.taken hx
          rw [hcs]
          refine Accounts.behind (Accounts.behindSpace ?_) hused
          dsimp only
          split
          next hclose =>
            rw [hclose]
            exact accounts_closing closes_brace _
          next hcomma =>
            rw [hcomma]
            exact (hfields _ _).behindSpace.behindChar (by decide)
          · exact accounts_problem _ _
      · exact accounts_problem _ _
  · exact accounts_problem _ _

/-- Every part of a text is taken with its brackets, or what is refused is seen in it. The induction
is on the fuel, which values, items and fields share. -/
theorem accounts (fuel : Nat) :
    (∀ depth cs, Accounts (LeavesOpen · 0) depth cs (value fuel depth cs)) ∧
      (∀ depth found cs, Accounts Closes depth cs (items fuel depth found cs)) ∧
      ∀ depth found cs, Accounts Closes depth cs (fields fuel depth found cs) := by
  induction fuel with
  | zero =>
    refine ⟨fun depth cs => ?_, fun depth found cs => ?_, fun depth found cs => ?_⟩
    · rw [value]
      exact accounts_problem _ _
    · rw [items]
      exact accounts_problem _ _
    · rw [fields]
      exact accounts_problem _ _
  | succ fuel ih =>
    obtain ⟨hvalue, hitems, hfields⟩ := ih
    refine ⟨?_, fun depth => ?_, fun depth => ?_⟩
    · exact accounts_value (fun depth => hitems depth []) fun depth => hfields depth []
    · exact accounts_items (hvalue depth) (hitems depth)
    · exact accounts_fields (hvalue depth) (hfields depth)

/-- What is refused of a whole text is seen in it. -/
theorem refused_of_document {e : Error} (h : document cs = .error (.refusal e)) :
    Refused maxDepth cs e := by
  unfold document at h
  split at h
  · cases h
  next first rest =>
    split at h
    · cases h
    · split at h
      next fault hread =>
        obtain ⟨spaces, hcs, hspaces⟩ := exists_skipSpace (first :: rest)
        rw [Except.error.inj h] at hread
        have hrefused := (((accounts _).1 _ _).refused hread).prepend hspaces
        rwa [← hcs] at hrefused
      · split at h
        · cases h
        · cases h

end Landscape.Json
