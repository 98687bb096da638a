import Landscape.Export.Dot
import Landscape.Proofs.Interchange.Legibility

/-!
# What the labels of a graph say

A relation may be labelled with any value. A text is the label of its edge as it stands, and no label
says nothing, as does one that is empty or zero. Any other value is spelled, so that no graph is
written where something is in the way of spelling a label. Nothing is in the way for a model that
comes from a source which can be read back and is not too deep.
-/

namespace Landscape

/-- A value that is empty or zero. -/
inductive Json.IsBlank : Json → Prop
  | null : IsBlank .null
  | no : IsBlank (.bool false)
  | zero : IsBlank (.int 0)
  | float {x : Float} (h : (x == 0) = true) : IsBlank (.float x)
  | text : IsBlank (.text [])
  | list : IsBlank (.list [])
  | record : IsBlank (.record [])

/-- What counts as false is what is empty or zero. -/
theorem Json.isTruthy_eq_false_iff {d : Json} : d.isTruthy = false ↔ d.IsBlank := by
  constructor
  · intro h
    cases d with
    | scalar s =>
      cases s with
      | null => exact .null
      | bool b =>
        obtain rfl : b = false := h
        exact .no
      | int n =>
        obtain rfl : n = 0 := by simpa [isTruthy] using h
        exact .zero
      | float x => exact .float (by simpa only [isTruthy, bne, Bool.not_eq_false'] using h)
      | text t =>
        obtain rfl : t = [] := by simpa [isTruthy] using h
        exact .text
    | list xs =>
      obtain rfl : xs = [] := by simpa [isTruthy] using h
      exact .list
    | record fs =>
      obtain rfl : fs = [] := by simpa [isTruthy] using h
      exact .record
  · intro h
    cases h with
    | float h => simpa only [isTruthy, bne, Bool.not_eq_false'] using h
    | _ => rfl

namespace Dot

/-- What the label of a relation says: no label and a blank one nothing, a text itself, and any other
value its spelling. -/
inductive LabelSays : Option Json → Text → Prop
  | none : LabelSays none []
  | blank {d : Json} (hblank : d.IsBlank) : LabelSays (some d) []
  | text (t : Text) : LabelSays (some (.text t)) t
  | value {d : Json} {spelling : String} (htext : ∀ t, d ≠ .text t) (hblank : ¬d.IsBlank)
    (hspell : d.spell = .ok spelling) : LabelSays (some d) spelling

variable {m : Model} {r : Relation} {label : Option Json} {t u : Text}

/-- A label says one thing. -/
theorem LabelSays.unique (h : LabelSays label t) (h' : LabelSays label u) : t = u := by
  cases h with
  | none =>
    cases h'
    rfl
  | blank hblank =>
    cases h' with
    | blank => rfl
    | text t =>
      cases hblank
      rfl
    | value _ hfull _ => exact absurd hblank hfull
  | text t =>
    cases h' with
    | blank hblank =>
      cases hblank
      rfl
    | text => rfl
    | value htext _ _ => exact absurd rfl (htext _)
  | value htext hfull hspell =>
    cases h' with
    | blank hblank => exact absurd hblank hfull
    | text => exact absurd rfl (htext _)
    | value _ _ hspell' => rw [Except.ok.inj (hspell.symm.trans hspell')]

/-- The text of a label is what the label says. -/
theorem LabelSays.labelText_eq (h : LabelSays r.label t) : labelText r = t := by
  unfold labelText
  generalize r.label = label at h
  cases h with
  | none => rfl
  | blank hblank =>
    split
    next heq =>
      obtain rfl := Option.some.inj heq
      cases hblank
      rfl
    next heq =>
      obtain rfl := Option.some.inj heq
      rw [Json.isTruthy_eq_false_iff.mpr hblank]
      rfl
    · rfl
  | text t => rfl
  | @value d _ htext hfull hspell =>
    have htruthy : d.isTruthy = true := by
      rw [← Bool.not_eq_false, Json.isTruthy_eq_false_iff]
      exact hfull
    rw [Json.eq_shown_of_spell hspell]
    split
    next heq => exact absurd (Option.some.inj heq) (htext _)
    next heq =>
      obtain rfl := Option.some.inj heq
      rw [if_pos htruthy]
    next heq => cases heq

/-- A label that is checked says something, or something is in the way of spelling it. -/
theorem checkLabel_cases (label : Option Json) :
    (checkLabel label = .ok () ∧ ∃ t, LabelSays label t) ∨
    ∃ e, checkLabel label = .error e ∧ (∀ t, ¬LabelSays label t) ∧
      ∃ d ∈ label, d.Obstacle Json.maxLevels .value e := by
  cases label with
  | none => exact .inl ⟨rfl, [], .none⟩
  | some d =>
    rw [checkLabel]
    by_cases hblank : d.IsBlank
    · rw [Json.isTruthy_eq_false_iff.mpr hblank]
      exact .inl ⟨rfl, [], .blank hblank⟩
    · have htruthy : d.isTruthy = true := by
        rw [← Bool.not_eq_false, Json.isTruthy_eq_false_iff]
        exact hblank
      rw [if_pos htruthy]
      by_cases htext : ∃ t, d = .text t
      · obtain ⟨t, rfl⟩ := htext
        exact .inl ⟨rfl, t, .text t⟩
      · rw [not_exists] at htext
        have hasText : d.asText = Text.ofString <$> d.spell := by
          unfold Json.asText
          split
          next => exact absurd rfl (htext _)
          · rfl
        rw [hasText]
        rcases d.spell_cases with ⟨hspell, -⟩ | ⟨e, he, hspell⟩
        · exact .inl ⟨by rw [hspell]; rfl, _, .value htext hblank hspell⟩
        · refine .inr ⟨e, by rw [hspell]; rfl, ?_, d, rfl, he⟩
          rintro _ (_ | hblank' | _ | ⟨-, -, hspell'⟩)
          · exact hblank hblank'
          · exact htext _ rfl
          · cases hspell.symm.trans hspell'

/-- The labels of a model are checked one by one, and all say something, or something is in the way
of spelling one of them. -/
theorem checkLabels_cases (m : Model) :
    (checkLabels m = .ok () ∧ ∀ r ∈ m.relations, ∃ t, LabelSays r.label t) ∨
    ∃ e, checkLabels m = .error e ∧ ∃ r ∈ m.relations, (∀ t, ¬LabelSays r.label t) ∧
      ∃ d ∈ r.label, d.Obstacle Json.maxLevels .value e := by
  unfold checkLabels
  induction m.relations with
  | nil => exact .inl ⟨rfl, List.forall_mem_nil _⟩
  | cons r relations ih =>
    rw [List.forM_cons, List.forall_mem_cons]
    rcases checkLabel_cases r.label with ⟨hcheck, hsays⟩ | ⟨e, hcheck, hnot, hobstacle⟩
    · rw [hcheck, ok_bind]
      refine ih.imp (fun ⟨hrest, hall⟩ => ⟨hrest, hsays, hall⟩) ?_
      rintro ⟨e, hrest, r', hr', hcause⟩
      exact ⟨e, hrest, r', List.mem_cons_of_mem r hr', hcause⟩
    · rw [hcheck, error_bind]
      exact .inr ⟨e, rfl, r, List.mem_cons_self, hnot, hobstacle⟩

/-- The labels of a model pass if all of them say something. -/
theorem checkLabels_eq_ok (h : ∀ r ∈ m.relations, ∃ t, LabelSays r.label t) :
    checkLabels m = .ok () := by
  rcases checkLabels_cases m with ⟨hcheck, -⟩ | ⟨e, -, r, hr, hnot, -⟩
  · exact hcheck
  · obtain ⟨t, ht⟩ := h r hr
    exact absurd ht (hnot t)

/-- A label that can be read back and is not too deep says something. -/
theorem exists_labelSays {levels : Nat} (h : r.Fits levels) (hlevels : levels ≤ Json.maxLevels) :
    ∃ t, LabelSays r.label t := by
  rcases checkLabel_cases r.label with ⟨-, hsays⟩ | ⟨e, -, -, d, hd, hobstacle⟩
  · exact hsays
  · exact absurd hobstacle ((h.label d hd).not_obstacle hlevels .value e)

/-- Every label of a model says something if the model comes from a source that can be read back and
is not too deep. -/
theorem exists_labelSays_of_obtained {source : Source} (h : Obtained source m)
    (hsource : source.Legible) (hnesting : source.nesting ≤ Json.maxLevels + 3) :
    ∀ r ∈ m.relations, ∃ t, LabelSays r.label t :=
  fun r hr => exists_labelSays ((h.parts_fit hsource hnesting).2 r hr) le_rfl

end Dot

end Landscape
