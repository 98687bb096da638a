import Landscape.Text.Symbol
import Mathlib.Data.List.Basic

/-!
# What is seen of a coloured text

A terminal takes colour sequences for what they say and shows the rest. A colour sequence is an
escape, an opening bracket, digits and semicolons, and the letter m. Of two texts in a row is seen
what is seen of each of them, unless a sequence begins in the first and goes on in the second.
-/

namespace Landscape

namespace Text

variable {t r : Text}

/-- How long the parameters of a colour sequence are, with the letter behind them. -/
def parameterLength? : Text → Option Nat
  | .char c :: rest =>
    if c = 'm' then some 1
    else if c.isDigit || c == ';' then (parameterLength? rest).map (· + 1)
    else none
  | _ => none

/-- How long the colour sequence is that a text begins with, if it begins with one. -/
def sequenceLength? : Text → Option Nat
  | .char c :: .char d :: rest =>
    if c = '\x1b' ∧ d = '[' then (parameterLength? rest).map (· + 2) else none
  | _ => none

/-- What is seen of a text after so many symbols. -/
def uncolouredFrom : (skip : Nat) → Text → Text
  | _, [] => []
  | skip + 1, _ :: rest => uncolouredFrom skip rest
  | 0, s :: rest =>
    match sequenceLength? (s :: rest) with
    | none => s :: uncolouredFrom 0 rest
    | some n => uncolouredFrom (n - 1) rest

/-- What is seen of a text: all but its colour sequences. -/
def uncoloured (t : Text) : Text := uncolouredFrom 0 t

/-- How many symbols of a text are not seen. -/
def unseen (t : Text) : Nat := t.length - t.uncoloured.length

/-- Whether a symbol can stand in a colour sequence behind the escape. -/
def goesOn : Symbol → Bool := Symbol.isA fun c => c == '[' || c == 'm' || c.isDigit || c == ';'

theorem parameterLength?_append (h : ∀ s ∈ r.head?, goesOn s = false) (t : Text) :
    parameterLength? (t ++ r) = parameterLength? t := by
  induction t with
  | nil =>
    cases r with
    | nil => rfl
    | cons s r =>
      have hs := h s rfl
      cases s with
      | half n => rfl
      | char c =>
        simp only [goesOn, Symbol.isA, Bool.or_eq_false_iff, beq_eq_false_iff_ne] at hs
        simp [parameterLength?, hs]
  | cons s t ih =>
    cases s with
    | half n => rfl
    | char c => simp only [List.cons_append, parameterLength?, ih]

/-- A colour sequence ends before a symbol with which it does not go on. -/
theorem sequenceLength?_append (h : ∀ s ∈ r.head?, goesOn s = false) (s : Symbol) (t : Text) :
    sequenceLength? (s :: t ++ r) = sequenceLength? (s :: t) := by
  cases t with
  | nil =>
    cases r with
    | nil => rfl
    | cons s' r =>
      have hs := h s' rfl
      cases s with
      | half n => rfl
      | char c =>
        cases s' with
        | half n => rfl
        | char d =>
          simp only [goesOn, Symbol.isA, Bool.or_eq_false_iff, beq_eq_false_iff_ne] at hs
          simp [sequenceLength?, hs]
  | cons s' t =>
    cases s with
    | half n => rfl
    | char c =>
      cases s' with
      | half n => rfl
      | char d => simp only [List.cons_append, sequenceLength?, parameterLength?_append h]

theorem parameterLength?_le {n : Nat} (h : parameterLength? t = some n) : n ≤ t.length := by
  induction t generalizing n with
  | nil => cases h
  | cons s t ih =>
    cases s with
    | half m => cases h
    | char c =>
      rw [parameterLength?] at h
      split at h
      · cases h
        simp
      · split at h
        · obtain ⟨k, hk, rfl⟩ := Option.map_eq_some_iff.mp h
          exact Nat.succ_le_succ (ih hk)
        · cases h

theorem sequenceLength?_le {s : Symbol} {n : Nat} (h : sequenceLength? (s :: t) = some n) :
    n - 1 ≤ t.length := by
  unfold sequenceLength? at h
  split at h
  next c d rest heq =>
    obtain ⟨rfl, rfl⟩ := List.cons.inj heq
    split at h
    · obtain ⟨k, hk, rfl⟩ := Option.map_eq_some_iff.mp h
      exact Nat.succ_le_succ (parameterLength?_le hk)
    · cases h
  · cases h

/-- What has no escape is seen as it is. -/
theorem uncoloured_append_of_not_mem (h : .char '\x1b' ∉ t) (r : Text) :
    (t ++ r).uncoloured = t ++ r.uncoloured := by
  induction t with
  | nil => rfl
  | cons s t ih =>
    obtain ⟨hs, ht⟩ := List.ne_and_not_mem_of_not_mem_cons h
    have hnone : sequenceLength? (s :: (t ++ r)) = none := by
      unfold sequenceLength?
      split
      next c d rest heq =>
        obtain ⟨rfl, -⟩ := List.cons.inj heq
        exact if_neg fun hc => hs (congrArg Symbol.char hc.1.symm)
      · rfl
    change uncolouredFrom 0 (s :: (t ++ r)) = s :: (t ++ r.uncoloured)
    rw [uncolouredFrom, hnone]
    exact congrArg (s :: ·) (ih ht)

/-- What is seen of a text does not depend on what stands behind it, if this takes up no colour
sequence. -/
theorem uncolouredFrom_append {skip : Nat} (hskip : skip ≤ t.length)
    (h : ∀ s ∈ r.head?, goesOn s = false) :
    uncolouredFrom skip (t ++ r) = uncolouredFrom skip t ++ r.uncoloured := by
  induction t generalizing skip with
  | nil =>
    obtain rfl := Nat.le_zero.mp hskip
    rfl
  | cons s t ih =>
    cases skip with
    | succ skip => exact ih (Nat.le_of_succ_le_succ hskip)
    | zero =>
      simp only [List.cons_append, uncolouredFrom]
      rw [← List.cons_append, sequenceLength?_append h]
      split
      · rw [ih (Nat.zero_le _), List.cons_append]
      next n hn => exact ih (sequenceLength?_le hn)

/-- Two texts are seen one after the other if the second one takes up no colour sequence. -/
theorem uncoloured_append (h : ∀ s ∈ r.head?, goesOn s = false) :
    (t ++ r).uncoloured = t.uncoloured ++ r.uncoloured :=
  uncolouredFrom_append (Nat.zero_le _) h

theorem uncoloured_of_not_mem (h : .char '\x1b' ∉ t) : t.uncoloured = t := by
  simpa [uncoloured, uncolouredFrom] using uncoloured_append_of_not_mem h []

/-- What is seen of a text is in it, in the same order. -/
theorem uncolouredFrom_sublist (skip : Nat) (t : Text) : (uncolouredFrom skip t).Sublist t := by
  induction t generalizing skip with
  | nil => cases skip <;> exact .slnil
  | cons s t ih =>
    cases skip with
    | succ skip => exact (ih skip).cons s
    | zero =>
      rw [uncolouredFrom]
      split
      · exact (ih 0).cons_cons s
      next n _ => exact (ih (n - 1)).cons s

theorem length_uncoloured_add_unseen (t : Text) : t.uncoloured.length + t.unseen = t.length :=
  Nat.add_sub_of_le (uncolouredFrom_sublist 0 t).length_le

theorem unseen_of_not_mem (h : .char '\x1b' ∉ t) : t.unseen = 0 := by
  rw [unseen, uncoloured_of_not_mem h, Nat.sub_self]

end Text

end Landscape
