import Landscape.Proofs.Json.Spelling

/-!
# What is written

Writing a value either writes all that is printed for it, or stops within it because something is in
the way: an integer with too many digits, or too many levels of nesting. What was written is a
beginning of the printed text then.
-/

namespace Landscape.Json

open Number

variable {layout : Layout} {levels depth : Nat} {d x : Json} {xs : List Json}
  {fs : List (Text × Json)} {w w' : Writing Unit} {text text' : String} {Stops Stops' : Error → Prop}
  {e : Error}

/-- Steps that write a text, or stop within it for some reason. -/
def Puts (w : Writing Unit) (text : String) (Stops : Error → Prop) : Prop :=
  ∀ written, w.run written = .ok () (written ++ text) ∨
    ∃ e part rest, text = part ++ rest ∧ Stops e ∧ w.run written = .error e (written ++ part)

theorem puts_put (piece : String) (Stops : Error → Prop) : Puts (put piece) piece Stops :=
  fun _ => .inl rfl

theorem puts_pure (Stops : Error → Prop) : Puts (pure ()) "" Stops :=
  fun written => .inl (by rw [String.append_empty]; rfl)

/-- Steps may stop before they write anything. -/
theorem puts_throw (he : Stops e) (text : String) : Puts (throw e) text Stops :=
  fun written => .inr ⟨e, "", text, by rw [String.empty_append], he, by
    rw [String.append_empty]; rfl⟩

/-- Steps in a row write their texts in a row. -/
theorem Puts.bind (h : Puts w text Stops) (h' : Puts w' text' Stops) :
    Puts (do w; w') (text ++ text') Stops := by
  intro written
  rw [EStateM.run_bind]
  rcases h written with hrun | ⟨e, part, rest, rfl, he, hrun⟩
  · rw [hrun, ← String.append_assoc]
    rcases h' (written ++ text) with hrun' | ⟨e, part, rest, rfl, he, hrun'⟩
    · exact .inl hrun'
    · refine .inr ⟨e, text ++ part, rest, by rw [String.append_assoc], he, ?_⟩
      rw [← String.append_assoc]
      exact hrun'
  · exact .inr ⟨e, part, rest ++ text', by rw [String.append_assoc], he, by rw [hrun]⟩

/-- There may be more reasons to stop. -/
theorem Puts.mono (h : Puts w text Stops) (hstops : ∀ e, Stops e → Stops' e) :
    Puts w text Stops' := by
  intro written
  rcases h written with hrun | ⟨e, part, rest, htext, he, hrun⟩
  · exact .inl hrun
  · exact .inr ⟨e, part, rest, htext, hstops e he, hrun⟩

/-- A scalar is written unless it is an integer with too many digits. -/
theorem puts_writeScalar (before : String) (s : Scalar) :
    Puts (writeScalar before s) (before ++ scalarText s)
      ((Json.scalar s).Obstacle levels .written) := by
  cases s with
  | int n =>
    rcases Number.spell_cases n with ⟨-, hspell⟩ | ⟨hlong, hspell⟩
    · rw [writeScalar, hspell]
      exact puts_put _ _
    · rw [writeScalar, hspell]
      exact puts_throw (.digits (by rw [integers]; exact List.mem_singleton_self n) hlong) _
  | _ => exact puts_put _ _

/-- Items are written one after another. -/
theorem puts_writeItems (h : ∀ x ∈ xs, ∀ before,
    Puts (writeAt layout levels depth before x) (before ++ printAt layout depth x) Stops) :
    Puts (writeItems layout levels depth xs) (printItems layout depth xs) Stops := by
  induction xs with
  | nil => exact puts_pure Stops
  | cons x xs ih =>
    rw [List.forall_mem_cons] at h
    rw [writeItems, printItems]
    exact (h.1 _).bind (ih h.2)

/-- Fields are written one after another. -/
theorem puts_writeFields (h : ∀ f ∈ fs, ∀ before,
    Puts (writeAt layout levels depth before f.2) (before ++ printAt layout depth f.2) Stops) :
    Puts (writeFields layout levels depth fs) (printFields layout depth fs) Stops := by
  induction fs with
  | nil => exact puts_pure Stops
  | cons f fs ih =>
    rw [List.forall_mem_cons] at h
    have hvalue := h.1 ""
    rw [String.empty_append] at hvalue
    have hfields := (puts_put (layout.separator depth ++ stringText f.1 ++ ": ") Stops).bind
      (hvalue.bind (ih h.2))
    rw [writeFields, printFields]
    simpa only [String.append_assoc] using hfields

/-- A value is written behind what stands before it, or something is in the way. -/
theorem puts_writeAt (layout : Layout) (levels depth : Nat) (before : String) (d : Json) :
    Puts (writeAt layout levels depth before d) (before ++ printAt layout depth d)
      (d.Obstacle levels .written) := by
  induction d using forall_of_parts generalizing levels depth before with
  | scalar s =>
    rw [writeAt, printAt]
    exact puts_writeScalar before s
  | list xs ih =>
    cases xs with
    | nil =>
      rw [writeAt, printAt]
      exact puts_put _ _
    | cons x xs =>
      cases levels with
      | zero =>
        rw [writeAt]
        exact (puts_put before _).bind (puts_throw (obstacle_list_zero x xs .written) _)
      | succ levels =>
        have hitem (y : Json) (hy : y ∈ x :: xs) (before : String) :=
          (ih y hy levels (depth + 1) before).mono fun _ h => h.of_item hy
        rw [List.forall_mem_cons] at hitem
        have hitems := (puts_put before _).bind ((hitem.1 ("[" ++ layout.line (depth + 1))).bind
          ((puts_writeItems hitem.2).bind (puts_put (layout.line depth ++ "]") _)))
        rw [writeAt, printAt]
        simpa only [String.append_assoc] using hitems
  | record fs ih =>
    cases fs with
    | nil =>
      rw [writeAt, printAt]
      exact puts_put _ _
    | cons f fs =>
      cases levels with
      | zero =>
        rw [writeAt]
        exact (puts_put before _).bind (puts_throw (obstacle_record_zero f fs .written) _)
      | succ levels =>
        have hfield (g : Text × Json) (hg : g ∈ f :: fs) (before : String) :=
          (ih g hg levels (depth + 1) before).mono fun _ h => h.of_field hg
        rw [List.forall_mem_cons] at hfield
        have hvalue := hfield.1 ""
        rw [String.empty_append] at hvalue
        have hfields := (puts_put (before ++ "\x7b" ++ layout.line (depth + 1) ++ stringText f.1 ++
          ": ") _).bind (hvalue.bind ((puts_writeFields hfield.2).bind
            (puts_put (layout.line depth ++ "\x7d") _)))
        rw [writeAt, printAt]
        simpa only [String.append_assoc] using hfields

/-- Writing a value writes what is printed for it, or stops within it where something is in the
way. -/
theorem puts_write (layout : Layout) (d : Json) :
    Puts (write layout d) (print layout d) (d.Obstacle maxLevels .written) := by
  have hwrite := puts_writeAt layout maxLevels 0 "" d
  rwa [String.empty_append] at hwrite

end Landscape.Json
