import Landscape.Export.Dot
import Landscape.Proofs.Export.Reader

/-!
# Tokens of written graphs

Most parts of a written graph stand for tokens of their own, whatever is written before and after
them. A quoted text is one of them, whichever text it is: it cannot end its string, nor can what
follows it. A comment stands for nothing as long as it keeps to its line.
-/

namespace Landscape.Dot

variable {t u word : Text} {tokens more : List Token}

/-- A text that stands for tokens wherever no string is open and no word is begun. -/
def Lexes (t : Text) (tokens : List Token) : Prop := run (.plain []) t = (.plain [], tokens)

instance (t : Text) (tokens : List Token) : Decidable (Lexes t tokens) :=
  inferInstanceAs (Decidable (run (.plain []) t = (.plain [], tokens)))

/-- A text is taken part by part. -/
theorem run_append (mode : Mode) (t u : Text) :
    run mode (t ++ u) =
      ((run (run mode t).1 u).1, (run mode t).2 ++ (run (run mode t).1 u).2) := by
  induction t generalizing mode with
  | nil => rfl
  | cons s t ih =>
    rw [List.cons_append, run, run, ih, List.append_assoc]

theorem Lexes.append (ht : Lexes t tokens) (hu : Lexes u more) :
    Lexes (t ++ u) (tokens ++ more) := by
  unfold Lexes at *
  rw [run_append, ht, hu]

/-- A text that stands for tokens is split into them. -/
theorem Lexes.tokens?_eq (h : Lexes t tokens) : tokens? t = some tokens := by
  rw [tokens?, h]
  simp [Mode.atEnd?, wordIfAny]

/-- Within a string an escaped text is taken as itself. -/
theorem run_escaped (inside t : Text) :
    run (.string inside) (t.flatMap escapeSymbol) = (.string (inside ++ t), []) := by
  induction t generalizing inside with
  | nil => simp [run]
  | cons s t ih =>
    have hs : run (.string inside) (escapeSymbol s) = (.string (inside ++ [s]), []) := by
      by_cases hback : s = .char '\\'
      · subst hback
        rfl
      by_cases hquote : s = .char '"'
      · subst hquote
        rfl
      simp [escapeSymbol, run, step, hback, hquote]
    rw [List.flatMap_cons, run_append, hs, ih, List.append_assoc]
    rfl

/-- A quoted text is one token, and it is the text. -/
theorem lexes_quote (t : Text) : Lexes (quote t) [.quoted t] := by
  have hopen : quote t = [.char '"'] ++ (t.flatMap escapeSymbol ++ [.char '"']) := by
    simp [quote]
  have hfirst : run (.plain []) [.char '"'] = (.string [], []) := by decide
  rw [Lexes, hopen, run_append, hfirst, run_append, run_escaped]
  rfl

/-- A text without quotes and backslashes is quoted as it stands. -/
theorem quote_eq (h : ∀ s ∈ t, s ≠ .char '\\' ∧ s ≠ .char '"') :
    quote t = .char '"' :: (t ++ [.char '"']) := by
  have hself : t.flatMap escapeSymbol = t.flatMap fun s => [s] := by
    rw [List.flatMap_def, List.flatMap_def, List.map_congr_left fun s hs => ?_]
    simp [escapeSymbol, h s hs]
  rw [quote, hself, List.flatMap_singleton', List.cons_append]

/-- A comment goes on to the end of its line. -/
theorem run_comment (h : .char '\n' ∉ t) : run .comment t = (.comment, []) := by
  induction t with
  | nil => rfl
  | cons s t ih =>
    rw [List.mem_cons, not_or] at h
    rw [run, step, if_neg (Ne.symm h.1), ih h.2]
    rfl

/-- A comment that keeps to its line stands for nothing. -/
theorem lexes_comment (h : .char '\n' ∉ t) : Lexes ("  //" ++ t ++ "\n") [] := by
  have hopen : run (.plain []) "  //" = (.comment, []) := by decide
  rw [Lexes, run_append, run_append, hopen, run_comment h]
  rfl

/-- The characters of written numbers but for the minus sign. -/
def IsPlain (c : Char) : Prop := c.isAlphanum = true ∨ c = '.' ∨ c = '+'

instance (c : Char) : Decidable (IsPlain c) := inferInstanceAs (Decidable (_ ∨ _))

/-- What is true of each character of a list is decided one by one. -/
theorem forall_mem_of_all {p : Char → Prop} [DecidablePred p] {cs : List Char}
    (h : (cs.all fun c => decide (p c)) = true) : ∀ c ∈ cs, p c := by
  simpa using h

/-- A text that goes on with any word before it. -/
def Continues (t : Text) : Prop := ∀ word, run (.plain word) t = (.plain (word ++ t), [])

theorem Continues.append (ht : Continues t) (hu : Continues u) : Continues (t ++ u) := by
  intro word
  rw [run_append, ht, hu, List.append_assoc]
  rfl

/-- A character of a number is part of a word. -/
theorem IsPlain.stepPlain {c : Char} (h : IsPlain c) (word : Text) :
    stepPlain word (.char c) = (.plain (word ++ [.char c]), []) := by
  have hne {d : Char} (hd : ¬IsPlain d) : c ≠ d := fun heq => hd (heq ▸ h)
  have hmarks : c ∉ marks := fun hmem =>
    absurd h (forall_mem_of_all (p := (¬IsPlain ·)) (by decide) c hmem)
  have hblank : c.isWhitespace = false := by
    simp [Char.isWhitespace, hne (d := ' ') (by decide), hne (d := '\t') (by decide),
      hne (d := '\r') (by decide), hne (d := '\n') (by decide)]
  simp [Dot.stepPlain, hne (d := '"') (by decide), hne (d := '-') (by decide),
    hne (d := '/') (by decide), hmarks, hblank]

/-- Characters of numbers go on with a word. -/
theorem continues_of_isPlain {cs : List Char} (h : ∀ c ∈ cs, IsPlain c) :
    Continues (Text.ofChars cs) := by
  intro word
  induction cs generalizing word with
  | nil => simp [Text.ofChars, run]
  | cons c cs ih =>
    rw [List.forall_mem_cons] at h
    have hrest := ih h.2 (word ++ [.char c])
    rw [Text.ofChars] at hrest
    rw [Text.ofChars, List.map_cons, run, step, h.1.stepPlain, hrest]
    simp

/-- So does a minus sign before one of them. -/
theorem continues_minus {c : Char} (h : IsPlain c) : Continues [.char '-', .char c] := by
  intro word
  have hdash : stepPlain word (.char '-') = (.dash word, []) := rfl
  have harrow : ¬(Symbol.char c = .char '>') := by
    rintro ⟨⟩
    exact absurd h (by decide)
  have hline : ¬(Symbol.char c = .char '-') := by
    rintro ⟨⟩
    exact absurd h (by decide)
  simp [run, step, hdash, harrow, hline, h.stepPlain]

/-- What is taken where no word has begun ends a word. -/
theorem stepPlain_ends {s : Symbol} (h : stepPlain [] s = (.plain [], tokens)) (word : Text) :
    stepPlain word s = (.plain [], wordIfAny word ++ tokens) := by
  cases s with
  | half n => simp [stepPlain] at h
  | char c =>
    have hquote : c ≠ '"' := by
      rintro rfl
      simp [stepPlain] at h
    have hdash : c ≠ '-' := by
      rintro rfl
      simp [stepPlain] at h
    have hslash : c ≠ '/' := by
      rintro rfl
      simp [stepPlain] at h
    simp only [stepPlain, hquote, hdash, hslash, if_false] at h ⊢
    split
    next hblank => simpa [hblank, wordIfAny] using h
    next hblank =>
      split
      next hmark => simpa [hblank, hmark, wordIfAny] using h
      next hmark => simp [hblank, hmark] at h

/-- A word is a token where it ends at one, or at a blank. -/
theorem lexes_word {s : Symbol} (hword : word ≠ []) (h : Continues word) (hs : Lexes [s] tokens) :
    Lexes (word ++ [s]) (.word word :: tokens) := by
  have hstep : stepPlain [] s = (.plain [], tokens) := by
    rw [← hs]
    simp [run, step]
  rw [Lexes, run_append, h []]
  simp [run, step, stepPlain_ends hstep, wordIfAny, hword]

end Landscape.Dot
