import Landscape.Proofs.Export.Tokens

/-!
# Strings before other texts

A quoted text is read back whatever follows it, and what follows it is left as it is. The reader of
strings is said by itself, and it is the one that reads the strings of graphs. Quoting is two
replacements in a row, of backslashes first and of quotes then.
-/

namespace Landscape.Dot

/-- A text with another one in the place of each occurrence of a symbol. -/
def replaced (old : Symbol) (new t : Text) : Text :=
  t.flatMap fun s => if s = old then new else [s]

/-- A symbol before what is read of a string. -/
def withSymbol (s : Symbol) (read : Text × Text) : Text × Text := (s :: read.1, read.2)

/-- What a string holds behind its opening quote, and what follows the string. Two backslashes stand
for one, a backslash and a quote stand for the quote, and the first other quote ends the string. -/
def stringBody? : Text → Option (Text × Text)
  | [] => none
  | .char '"' :: rest => some ([], rest)
  | .char '\\' :: .char '\\' :: rest => (stringBody? rest).map (withSymbol (.char '\\'))
  | .char '\\' :: .char '"' :: rest => (stringBody? rest).map (withSymbol (.char '"'))
  | s :: rest => (stringBody? rest).map (withSymbol s)

/-- The string that a text begins with, and what follows it. -/
def string? : Text → Option (Text × Text)
  | .char '"' :: rest => stringBody? rest
  | _ => none

variable {t u : Text}

/-- A symbol is escaped by doubling it if it is a backslash, and putting one before it if it is a
quote; the backslashes of the first replacement are none of the symbols of the second one. -/
theorem escapeSymbol_eq_replaced (s : Symbol) :
    escapeSymbol s =
      replaced (.char '"') "\\\"" (if s = .char '\\' then "\\\\" else [s]) := by
  by_cases hback : s = .char '\\'
  · subst hback
    rfl
  by_cases hquote : s = .char '"'
  · subst hquote
    rfl
  simp [replaced, escapeSymbol, hback, hquote]

/-- A text is quoted by doubling its backslashes and then putting one before each of its quotes. -/
theorem quote_eq_replaced (t : Text) :
    quote t =
      .char '"' :: replaced (.char '"') "\\\"" (replaced (.char '\\') "\\\\" t) ++ [.char '"'] := by
  have htwice : replaced (.char '"') "\\\"" (replaced (.char '\\') "\\\\" t) =
      t.flatMap escapeSymbol := by
    rw [replaced, replaced, List.flatMap_assoc]
    exact congrArg (t.flatMap ·) (funext fun s => (escapeSymbol_eq_replaced s).symm)
  rw [htwice, quote]

/-- In the other order the second replacement would double the backslashes of the first one, and a
quote would end its string. -/
example :
    string? (.char '"' :: replaced (.char '\\') "\\\\" (replaced (.char '"') "\\\"" "\"") ++
      [.char '"']) = some (("\\" : Text), ("\"" : Text)) := by decide

/-- An escaped symbol is read as the symbol. -/
theorem stringBody?_escapeSymbol (s : Symbol) (u : Text) :
    stringBody? (escapeSymbol s ++ u) = (stringBody? u).map (withSymbol s) := by
  by_cases hback : s = .char '\\'
  · subst hback
    rfl
  by_cases hquote : s = .char '"'
  · subst hquote
    rfl
  have hescape : escapeSymbol s = [s] := by simp [escapeSymbol, hback, hquote]
  rw [hescape, List.singleton_append, stringBody?]
  all_goals simp_all

/-- An escaped text is read up to the quote behind it. -/
theorem stringBody?_escaped (t r : Text) :
    stringBody? (t.flatMap escapeSymbol ++ .char '"' :: r) = some (t, r) := by
  induction t with
  | nil => rfl
  | cons s t ih =>
    rw [List.flatMap_cons, List.append_assoc, stringBody?_escapeSymbol, ih]
    rfl

/-- A quoted text is read back, and what follows it is left. -/
theorem string?_quote (t r : Text) : string? (quote t ++ r) = some (t, r) := by
  have hopen : quote t ++ r = .char '"' :: (t.flatMap escapeSymbol ++ .char '"' :: r) := by
    simp [quote]
  rw [hopen, string?, stringBody?_escaped]

/-- What is read behind a symbol is what follows it, and the rest is the same. -/
theorem exists_of_map_withSymbol {s : Symbol} {read : Option (Text × Text)} {r : Text}
    (h : read.map (withSymbol s) = some (t, r)) : ∃ t', t = s :: t' ∧ read = some (t', r) := by
  obtain ⟨⟨t', r'⟩, hread, heq⟩ := Option.map_eq_some_iff.mp h
  obtain ⟨rfl, rfl⟩ := Prod.mk.inj heq
  exact ⟨t', rfl, hread⟩

/-- A string that has come to its end is the same before any other text. -/
theorem stringBody?_append {r : Text} (h : stringBody? u = some (t, r)) (v : Text) :
    stringBody? (u ++ v) = some (t, r ++ v) := by
  fun_induction stringBody? u generalizing t r with
  | case1 => cases h
  | case2 rest =>
    cases h
    rfl
  | case3 rest ih =>
    obtain ⟨t, rfl, hread⟩ := exists_of_map_withSymbol h
    exact congrArg (Option.map (withSymbol (.char '\\'))) (ih hread)
  | case4 rest ih =>
    obtain ⟨t, rfl, hread⟩ := exists_of_map_withSymbol h
    exact congrArg (Option.map (withSymbol (.char '"'))) (ih hread)
  | case5 s rest hquote hback hescape ih =>
    obtain ⟨t, rfl, hread⟩ := exists_of_map_withSymbol h
    -- The next symbol is there already, for no string ends where there is none.
    cases rest with
    | nil => cases hread
    | cons c rest =>
      rw [List.cons_append, stringBody?]
      · exact congrArg (Option.map (withSymbol s)) (ih hread)
      all_goals simp_all

/-- So is the string that a text begins with. -/
theorem string?_append {read : Text × Text} (h : string? u = some read) (v : Text) :
    string? (u ++ v) = some (read.1, read.2 ++ v) := by
  unfold string? at h
  split at h
  next rest => exact stringBody?_append h v
  next => cases h

/-- The tokens of a text that is taken from a mode on. -/
def tokensFrom? (mode : Mode) (t : Text) : Option (List Token) :=
  (run mode t).1.atEnd?.map ((run mode t).2 ++ ·)

/-- A text has the tokens that end with its first symbol, and then those of the rest. -/
theorem tokensFrom?_cons (mode : Mode) (s : Symbol) (t : Text) :
    tokensFrom? mode (s :: t) =
      (tokensFrom? (step mode s).1 t).map ((step mode s).2 ++ ·) := by
  simp [tokensFrom?, run, Function.comp_def]

/-- Where no token ends with the first symbol, the rest has all of them. -/
theorem tokensFrom?_of_step {mode next : Mode} {s : Symbol} (h : step mode s = (next, []))
    (t : Text) : tokensFrom? mode (s :: t) = tokensFrom? next t := by
  rw [tokensFrom?_cons, h]
  exact Option.map_id'

/-- A backslash and what it escapes are one symbol of a string. -/
theorem tokensFrom?_escape {s : Symbol} (hs : s = .char '"' ∨ s = .char '\\') (inside t : Text) :
    tokensFrom? (.string inside) (.char '\\' :: s :: t) =
      tokensFrom? (.string (inside ++ [s])) t := by
  have hback : step (.string inside) (.char '\\') = (.escape inside, []) := rfl
  have hescaped : step (.escape inside) s = (.string (inside ++ [s]), []) := if_pos hs
  rw [tokensFrom?_of_step hback, tokensFrom?_of_step hescaped]

/-- A symbol that is read within a string counts as having been read before. -/
theorem bind_map_withSymbol (inside : Text) (s : Symbol) (read : Option (Text × Text)) :
    ((read.map (withSymbol s)).bind fun read =>
        (tokens? read.2).map (.quoted (inside ++ read.1) :: ·)) =
      read.bind fun read => (tokens? read.2).map (.quoted (inside ++ [s] ++ read.1) :: ·) := by
  cases read with
  | none => rfl
  | some read => simp [withSymbol]

/-- Within a string, a text has the token of the string and the tokens of what follows it. -/
theorem tokensFrom?_string (inside u : Text) :
    tokensFrom? (.string inside) u =
      (stringBody? u).bind fun read =>
        (tokens? read.2).map (.quoted (inside ++ read.1) :: ·) := by
  fun_induction stringBody? u generalizing inside with
  | case1 => rfl
  | case2 rest =>
    have hstep : step (.string inside) (.char '"') = (.plain [], [.quoted inside]) := rfl
    rw [tokensFrom?_cons, hstep, Option.bind_some, List.append_nil]
    rfl
  | case3 rest ih => rw [tokensFrom?_escape (.inr rfl), ih, bind_map_withSymbol]
  | case4 rest ih => rw [tokensFrom?_escape (.inl rfl), ih, bind_map_withSymbol]
  | case5 s rest hquote hback hescape ih =>
    rw [bind_map_withSymbol, ← ih]
    by_cases hs : s = .char '\\'
    · -- A backslash that escapes nothing stands for itself, and so does the symbol behind it.
      subst hs
      have hstep : step (.string inside) (.char '\\') = (.escape inside, []) := rfl
      rw [tokensFrom?_of_step hstep]
      cases rest with
      | nil => rfl
      | cons c rest =>
        have hc : c ≠ .char '\\' ∧ c ≠ .char '"' := by simp_all
        have hnext : step (.escape inside) c = step (.string (inside ++ [.char '\\'])) c := by
          simp [step, hc]
        rw [tokensFrom?_cons, tokensFrom?_cons, hnext]
    · have hstep : step (.string inside) s = (.string (inside ++ [s]), []) := by
        simp_all [step]
      exact tokensFrom?_of_step hstep rest

/-- In a graph a string is one token, and what follows it has its own. -/
theorem tokens?_of_string? {r : Text} (h : string? u = some (t, r)) :
    tokens? u = (tokens? r).map (.quoted t :: ·) := by
  unfold string? at h
  split at h
  next rest =>
    have hopen : step (.plain []) (.char '"') = (.string [], []) := rfl
    change tokensFrom? (.plain []) (.char '"' :: rest) = _
    rw [tokensFrom?_of_step hopen, tokensFrom?_string, h, Option.bind_some, List.nil_append]
  next => cases h

/-- Quoted texts before other texts are the same only if both parts are. -/
theorem quote_append_inj {t' r r' : Text} :
    quote t ++ r = quote t' ++ r' ↔ t = t' ∧ r = r' := by
  constructor
  · intro h
    have hread := string?_quote t r
    rw [h, string?_quote] at hread
    obtain ⟨rfl, rfl⟩ := Prod.mk.inj (Option.some.inj hread)
    exact ⟨rfl, rfl⟩
  · rintro ⟨rfl, rfl⟩
    rfl

/-- A quoted text is no string before its last symbol. -/
theorem string?_eq_none_of_quote {v : Text} (h : quote t = u ++ v) (hv : v ≠ []) :
    string? u = none := by
  cases hread : string? u with
  | none => rfl
  | some read =>
    have hwhole := string?_append hread v
    rw [← h, ← List.append_nil (quote t), string?_quote] at hwhole
    obtain ⟨_, hrest⟩ := Prod.mk.inj (Option.some.inj hwhole)
    exact absurd (List.append_eq_nil_iff.mp hrest.symm).2 hv

/--
Quoting doubles the backslashes of a text and then puts one before each of its quotes. Whatever
follows a quoted text, what is read there is the text, and what is left is what follows, within a
graph as well. So different texts have different quoted forms, a quoted text and what follows it are
told from any other two, and no string ends within a quoted text.
-/
theorem quoted_text_stands_alone :
    (∀ t, quote t =
      .char '"' :: replaced (.char '"') "\\\"" (replaced (.char '\\') "\\\\" t) ++ [.char '"']) ∧
    (∀ t r, string? (quote t ++ r) = some (t, r)) ∧
    (∀ t r, tokens? (quote t ++ r) = (tokens? r).map (.quoted t :: ·)) ∧
    Function.Injective quote ∧
    (∀ t r t' r', quote t ++ r = quote t' ++ r' ↔ t = t' ∧ r = r') ∧
    ∀ t u v, quote t = u ++ v → v ≠ [] → string? u = none := by
  refine ⟨quote_eq_replaced, string?_quote, ?_, ?_, fun _ _ _ _ => quote_append_inj,
    fun _ _ _ => string?_eq_none_of_quote⟩
  · intro t r
    exact tokens?_of_string? (string?_quote t r)
  · intro t t' h
    have happend : quote t ++ [] = quote t' ++ [] := by rw [h]
    exact (quote_append_inj.mp happend).1

/-- A text that ends with a backslash, before a quote. -/
theorem quoted_text_stands_alone_of_backslash :
    let t : Text := "a\"\\"
    let r : Text := "\"b"
    let u : Text := "\"a\\\"\\\\"
    string? (quote t ++ r) = some (t, r) ∧ quote t ≠ quote r ∧ quote t = u ++ [.char '"'] ∧
      string? u = none := by
  intro t r u
  obtain ⟨_, hread, _, hinjective, _, hwithin⟩ := quoted_text_stands_alone
  have hsplit : quote t = u ++ [.char '"'] := by decide
  exact ⟨hread t r, hinjective.ne (by decide), hsplit,
    hwithin t u _ hsplit (List.cons_ne_nil _ _)⟩

end Landscape.Dot
