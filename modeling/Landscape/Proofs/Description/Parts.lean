import Landscape.Proofs.Description.Scanning

/-!
# The parts of a description

Whatever a description says, an id, a name, a technology or a label, stands in its text.
-/

namespace Landscape.Description

open Landscape.Text

variable {t rest : Text}

/-- A part that may be absent is, where it is not, some of the text. -/
def PartOf (t : Text) (part : Option Text) : Prop := ∀ q ∈ part, q <:+: t

/-- A quoted part stands in the text. -/
theorem QuotedIfAny.partOf {q : Option Text} (h : QuotedIfAny t q rest) : PartOf t q := by
  rintro _ ⟨⟩
  cases h with
  | present h =>
    obtain @⟨gap, inside, rest, -, -⟩ := h
    exact ⟨gap ++ [.char '"'], [.char '"'] ++ rest, by simp [inQuotes]⟩

/-- What belongs to a part of a text belongs to the text. -/
theorem PartOf.trans {t' : Text} {q : Option Text} (h : PartOf t q) (ht : t <:+: t') :
    PartOf t' q := fun p hp => (h p hp).trans ht

/-- The parts of a declaration stand in the text, and its name is not empty. -/
theorem IsDeclaration.parts {keyword : Text} {withTechnology : Bool} {d : Declaration}
    (h : IsDeclaration keyword withTechnology t d rest) :
    d.name ≠ [] ∧ d.id <:+: t ∧ d.name <:+: t ∧ PartOf t d.technology := by
  obtain @⟨lead, gap, id, gap', name, tail, rest, technology, -, -, -, -, hname, htechnology⟩ := h
  have htail : PartOf tail technology := by
    unfold TechnologyIfAny at htechnology
    split at htechnology
    · exact htechnology.partOf
    · rw [htechnology.1]
      rintro _ ⟨⟩
  refine ⟨hname.1, ⟨lead ++ keyword ++ gap, gap' ++ inQuotes name ++ tail, by simp⟩,
    ⟨lead ++ keyword ++ gap ++ id ++ gap' ++ [.char '"'], [.char '"'] ++ tail, by simp [inQuotes]⟩,
    htail.trans (List.suffix_append _ _).isInfix⟩

/-- The parts of a relation stand in the text. -/
theorem IsArrow.parts {a : Arrow} (h : IsArrow t a rest) :
    a.source <:+: t ∧ a.target <:+: t ∧ PartOf t a.label := by
  obtain @⟨lead, source, space, space', target, tail, rest, label, -, -, -, -, -, -, hlabel⟩ := h
  refine ⟨⟨lead, space ++ "->" ++ space' ++ target ++ tail, by simp⟩,
    ⟨lead ++ source ++ space ++ "->" ++ space', tail, by simp⟩,
    hlabel.partOf.trans (List.suffix_append _ _).isInfix⟩

/-- A described element has a name, and all it says stands in the text. -/
theorem mem_elements_parse {e : Element} (he : e ∈ (parse t).elements) :
    e.name ≠ [] ∧ e.id <:+: t ∧ e.name <:+: t ∧ e.description = none ∧
      ∃ technology, PartOf t technology ∧ e.technology = technology.map .text := by
  obtain ⟨kind, -, he⟩ := List.mem_flatMap.mp he
  obtain ⟨d, hd, rfl⟩ := List.mem_map.mp he
  have hscan := (eq_declarations_iff kind t _).mp rfl
  obtain ⟨hne, hid, hname, htechnology⟩ := hscan.forall_mem
    (P := fun d => d.name ≠ [] ∧ d.id <:+: t ∧ d.name <:+: t ∧ PartOf t d.technology)
    (fun place d rest hd => by
      have hplace := (List.drop_suffix place t).isInfix
      obtain ⟨hne, hid, hname, htechnology⟩ := hd.parts
      exact ⟨hne, hid.trans hplace, hname.trans hplace, htechnology.trans hplace⟩) d hd
  exact ⟨hne, hid, hname, rfl, d.technology, htechnology, rfl⟩

/-- All that a described relation says stands in the text. -/
theorem mem_relations_parse {r : Relation} (hr : r ∈ (parse t).relations) :
    r.source <:+: t ∧ r.target <:+: t ∧
      ∃ label, PartOf t label ∧ r.label = label.map .text := by
  obtain ⟨a, ha, rfl⟩ := List.mem_map.mp hr
  have hscan := (eq_arrows_iff t _).mp rfl
  obtain ⟨hsource, htarget, hlabel⟩ := hscan.forall_mem
    (P := fun a => a.source <:+: t ∧ a.target <:+: t ∧ PartOf t a.label)
    (fun place a rest ha => by
      have hplace := (List.drop_suffix place t).isInfix
      obtain ⟨hsource, htarget, hlabel⟩ := ha.parts
      exact ⟨hsource.trans hplace, htarget.trans hplace, hlabel.trans hplace⟩) a ha
  exact ⟨hsource, htarget, a.label, hlabel, rfl⟩

end Landscape.Description
