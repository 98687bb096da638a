import Landscape.Proofs.Description.Grammar

/-!
# Runs of symbols

Blanks, word characters and the double quote are apart from each other. A run of one of them that
stops at another can be taken off a text in one way only, and this is how the reader takes it.
-/

namespace Landscape

namespace Text

/-- No character is both blank and part of a word. -/
theorem not_isBlank_of_isWord {c : Char} (h : isWord c = true) : isBlank c = false := by
  have hranges : ∀ w ∈ wordRanges, ∀ b ∈ blankRanges, w.2 < b.1 ∨ b.2 < w.1 := by decide +kernel
  have hascii : ∀ n < 0x80, ((Char.ofNat n).isAlphanum || Char.ofNat n == '_') →
      isBlank (Char.ofNat n) = false := by decide +kernel
  unfold isWord at h
  split at h
  next hc => simpa using hascii c.toNat hc (by simpa using h)
  · obtain ⟨w, hw, hlow, hhigh⟩ := inRanges_iff.mp h
    rw [Bool.eq_false_iff]
    intro hb
    obtain ⟨b, hb, hlow', hhigh'⟩ := inRanges_iff.mp hb
    rcases hranges w hw b hb with hwb | hbw <;> omega

end Text

namespace Symbol

/-- No symbol is both blank and part of a word. -/
theorem isBlank_of_isWord {s : Symbol} (h : s.isA Text.isWord = true) :
    s.isA Text.isBlank = false := by
  cases s with
  | char c => exact Text.not_isBlank_of_isWord h
  | half n => rfl

end Symbol

namespace Description

open Landscape.Text

/-- A run that stops where its property ends is the longest one. -/
theorem span_append {p : Symbol → Bool} {run rest : Text} (hrun : ∀ s ∈ run, p s = true)
    (hrest : ∀ s ∈ rest.head?, p s = false) :
    (run ++ rest).takeWhile p = run ∧ (run ++ rest).dropWhile p = rest := by
  have hstop : rest.takeWhile p = [] ∧ rest.dropWhile p = rest := by
    cases rest with
    | nil => exact ⟨rfl, rfl⟩
    | cons s rest =>
      have hs := hrest s rfl
      exact ⟨by simp [hs], by simp [hs]⟩
  rw [List.takeWhile_append_of_pos hrun, List.dropWhile_append_of_pos hrun, hstop.1, hstop.2,
    List.append_nil]
  exact ⟨rfl, rfl⟩

/-- The longest run stops where its property ends. -/
theorem head?_dropWhile (p : Symbol → Bool) (t : Text) :
    ∀ s ∈ (t.dropWhile p).head?, p s = false := by
  intro s hs
  have hnot := List.head?_dropWhile_not p t
  rw [hs] at hnot
  simpa using hnot

/-- The longest run has its property. -/
theorem of_mem_takeWhile {p : Symbol → Bool} {t : Text} : ∀ s ∈ t.takeWhile p, p s = true :=
  List.all_eq_true.mp List.all_takeWhile

/-- Blanks before something else are passed over. -/
theorem skipBlanks_append {lead rest : Text} (hlead : IsBlanks lead)
    (hrest : ∀ s ∈ rest.head?, s.isA isBlank = false) : skipBlanks (lead ++ rest) = rest :=
  (span_append hlead hrest).2

/-- What is passed over are blanks. -/
theorem exists_skipBlanks (t : Text) : ∃ lead, IsBlanks lead ∧ t = lead ++ skipBlanks t :=
  ⟨t.takeWhile (·.isA isBlank), of_mem_takeWhile, List.takeWhile_append_dropWhile.symm⟩

/-- A gap is taken whole. -/
theorem blanks?_eq_some_iff {t rest : Text} :
    blanks? t = some rest ↔
      (∃ gap, IsGap gap ∧ t = gap ++ rest) ∧ ∀ s ∈ rest.head?, s.isA isBlank = false := by
  constructor
  · intro h
    cases t with
    | nil => cases h
    | cons s t =>
      simp only [blanks?, Option.ite_none_right_eq_some, Option.some.injEq] at h
      obtain ⟨hs, rfl⟩ := h
      obtain ⟨lead, hlead, ht⟩ := exists_skipBlanks t
      refine ⟨⟨s :: lead, ⟨List.cons_ne_nil _ _, ?_⟩, ?_⟩, head?_dropWhile _ _⟩
      · exact List.forall_mem_cons.mpr ⟨hs, hlead⟩
      · rw [List.cons_append, ← ht]
  · rintro ⟨⟨gap, ⟨hne, hblank⟩, rfl⟩, hrest⟩
    cases gap with
    | nil => exact absurd rfl hne
    | cons s gap =>
      obtain ⟨hs, hgap⟩ := List.forall_mem_cons.mp hblank
      rw [List.cons_append, blanks?, if_pos hs, skipBlanks_append hgap hrest]

/-- A word is taken whole. -/
theorem word?_eq_some_iff {t word rest : Text} :
    word? t = some (word, rest) ↔
      t = word ++ rest ∧ IsWord word ∧ ∀ s ∈ rest.head?, s.isA Text.isWord = false := by
  constructor
  · intro h
    unfold word? at h
    split at h
    · cases h
    next hne =>
      obtain ⟨rfl, rfl⟩ := Prod.mk.inj (Option.some.inj h)
      exact ⟨List.takeWhile_append_dropWhile.symm, ⟨hne, of_mem_takeWhile⟩, head?_dropWhile _ _⟩
  · rintro ⟨rfl, ⟨hne, hword⟩, hrest⟩
    obtain ⟨htake, hdrop⟩ := span_append hword hrest
    unfold word?
    rw [htake, hdrop]
    cases word with
    | nil => exact absurd rfl hne
    | cons s word => rfl

/-- A literal is taken as it is. -/
theorem literal?_eq_some_iff {expected t rest : Text} :
    literal? expected t = some rest ↔ t = expected ++ rest := by
  induction expected generalizing t with
  | nil => simp [literal?]
  | cons e expected ih =>
    cases t with
    | nil => simp [literal?]
    | cons s t =>
      by_cases hes : e = s
      · simp [literal?, hes, ih]
      · simp [literal?, hes, Ne.symm hes]

/-- A quoted text reaches to the next double quote. -/
theorem quoted?_eq_some_iff {t inside rest : Text} :
    quoted? t = some (inside, rest) ↔ t = inQuotes inside ++ rest ∧ IsQuotable inside := by
  constructor
  · intro h
    unfold quoted? at h
    split at h
    next body =>
      have hbody := List.takeWhile_append_dropWhile (p := (· != .char '"')) (l := body)
      have hhead := head?_dropWhile (· != .char '"') body
      cases htake : body.takeWhile (· != .char '"') with
      | nil => simp [htake] at h
      | cons s more =>
        cases hdrop : body.dropWhile (· != .char '"') with
        | nil => simp [htake, hdrop] at h
        | cons closing tail =>
          simp only [htake, hdrop, Option.some.injEq, Prod.mk.injEq] at h
          obtain ⟨rfl, rfl⟩ := h
          obtain rfl : closing = .char '"' := by
            rw [hdrop] at hhead
            simpa using hhead closing rfl
          rw [htake, hdrop] at hbody
          refine ⟨by simp [inQuotes, ← hbody], List.cons_ne_nil _ _, fun hmem => ?_⟩
          rw [← htake] at hmem
          simpa using of_mem_takeWhile _ hmem
    · cases h
  · rintro ⟨rfl, hne, hquote⟩
    have hinside : ∀ s ∈ inside, (s != Symbol.char '"') = true := by
      intro s hs
      rw [bne_iff_ne]
      rintro rfl
      exact hquote hs
    have hstop : ∀ s ∈ (Symbol.char '"' :: rest).head?, (s != Symbol.char '"') = false := by simp
    obtain ⟨htake, hdrop⟩ := span_append hinside hstop
    have hbody : inQuotes inside ++ rest = .char '"' :: (inside ++ .char '"' :: rest) := by
      simp [inQuotes]
    rw [hbody]
    cases inside with
    | nil => exact absurd rfl hne
    | cons s inside => simp only [quoted?, htake, hdrop]

/-- Nothing that stands in quotes begins with a blank. -/
theorem head?_inQuotes (inside rest : Text) :
    ∀ s ∈ (inQuotes inside ++ rest).head?, s.isA isBlank = false := by
  intro s hs
  obtain rfl : .char '"' = s := by simpa [inQuotes] using hs
  decide

/-- A word does not begin with a blank. -/
theorem IsWord.head? {word : Text} (h : IsWord word) (rest : Text) :
    ∀ s ∈ (word ++ rest).head?, s.isA isBlank = false := by
  intro s hs
  obtain ⟨hne, hword⟩ := h
  cases word with
  | nil => exact absurd rfl hne
  | cons w word =>
    obtain rfl : w = s := by simpa using hs
    exact Symbol.isBlank_of_isWord (hword w List.mem_cons_self)

/-- A gap does not begin with a word character. -/
theorem IsGap.head? {gap : Text} (h : IsGap gap) (rest : Text) :
    ∀ s ∈ (gap ++ rest).head?, s.isA Text.isWord = false := by
  intro s hs
  obtain ⟨hne, hblank⟩ := h
  cases gap with
  | nil => exact absurd rfl hne
  | cons g gap =>
    obtain rfl : g = s := by simpa using hs
    rw [Bool.eq_false_iff]
    intro hword
    have hg := hblank g List.mem_cons_self
    rw [Symbol.isBlank_of_isWord hword] at hg
    cases hg

end Description

end Landscape
