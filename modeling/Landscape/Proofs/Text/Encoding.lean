import Landscape.Text.Utf8
import Landscape.Proofs.Results

/-!
# Texts and their bytes

A text has bytes when all its symbols are characters, and then its bytes determine it. The bytes of
texts in a row are those of each, in a row.
-/

namespace Landscape.Text

variable {t t' : Text} {bytes : List UInt8} {cs : List Char}

/-- The bytes of characters. -/
theorem encodeUtf8_ofChars : encodeUtf8 (ofChars cs) = .ok (cs.flatMap String.utf8EncodeChar) := by
  unfold encodeUtf8
  rw [chars?_ofChars]

/-- Every string has bytes. -/
@[simp] theorem exists_encodeUtf8_ofString (s : String) : ∃ bytes, encodeUtf8 s = .ok bytes :=
  ⟨_, encodeUtf8_ofChars⟩

/-- What has bytes is a text of characters. -/
theorem encodeUtf8_eq_ok_iff :
    encodeUtf8 t = .ok bytes ↔ ∃ cs, t = ofChars cs ∧ bytes = cs.flatMap String.utf8EncodeChar := by
  constructor
  · intro h
    unfold encodeUtf8 at h
    split at h
    next cs hcs => exact ⟨cs, (ofChars_of_chars? hcs).symm, (Except.ok.inj h).symm⟩
    next => cases h
  · rintro ⟨cs, rfl, rfl⟩
    exact encodeUtf8_ofChars

/-- The bytes of characters determine them. -/
theorem flatMap_utf8EncodeChar_injective :
    Function.Injective fun cs : List Char => cs.flatMap String.utf8EncodeChar := by
  intro cs ds h
  apply String.ofList_injective
  apply String.toByteArray_inj.mp
  rw [String.toByteArray_ofList, String.toByteArray_ofList, List.utf8Encode, List.utf8Encode]
  exact congrArg List.toByteArray h

/-- The bytes of a text determine it. -/
theorem encodeUtf8_inj (h : encodeUtf8 t = .ok bytes) (h' : encodeUtf8 t' = .ok bytes) :
    t = t' := by
  obtain ⟨cs, rfl, hcs⟩ := encodeUtf8_eq_ok_iff.mp h
  obtain ⟨ds, rfl, hds⟩ := encodeUtf8_eq_ok_iff.mp h'
  exact congrArg ofChars (flatMap_utf8EncodeChar_injective (hcs.symm.trans hds))

/-- The bytes of two texts in a row. -/
theorem encodeUtf8_append_eq_ok_iff : encodeUtf8 (t ++ t') = .ok bytes ↔
    ∃ before after, encodeUtf8 t = .ok before ∧ encodeUtf8 t' = .ok after ∧
      bytes = before ++ after := by
  simp only [encodeUtf8_eq_ok_iff]
  constructor
  · rintro ⟨cs, hcs, rfl⟩
    obtain ⟨cs₁, cs₂, rfl, rfl, rfl⟩ := List.map_eq_append_iff.mp hcs.symm
    exact ⟨_, _, ⟨cs₁, rfl, rfl⟩, ⟨cs₂, rfl, rfl⟩, List.flatMap_append⟩
  · rintro ⟨_, _, ⟨cs₁, rfl, rfl⟩, ⟨cs₂, rfl, rfl⟩, rfl⟩
    exact ⟨cs₁ ++ cs₂, List.map_append.symm, List.flatMap_append.symm⟩

/-- The bytes of texts in a row. -/
theorem encodeUtf8_flatten_eq_ok_iff {lines : List Text} : encodeUtf8 lines.flatten = .ok bytes ↔
    ∃ parts, lines.mapM encodeUtf8 = .ok parts ∧ bytes = parts.flatten := by
  induction lines generalizing bytes with
  | nil =>
    change Except.ok [] = Except.ok bytes ↔ _
    simp [pure_eq_ok, eq_comm]
  | cons line rest ih =>
    simp only [List.flatten_cons, List.mapM_cons, encodeUtf8_append_eq_ok_iff, bind_eq_ok_iff,
      pure_eq_ok, Except.ok.injEq, ih]
    constructor
    · rintro ⟨part, _, hpart, ⟨parts, hparts, rfl⟩, rfl⟩
      exact ⟨_, ⟨part, hpart, parts, hparts, rfl⟩, rfl⟩
    · rintro ⟨_, ⟨part, hpart, parts, hparts, rfl⟩, rfl⟩
      exact ⟨part, _, hpart, ⟨parts, hparts, rfl⟩, rfl⟩

/-- Two texts in a row have bytes if each has. -/
theorem exists_encodeUtf8_append : (∃ bytes, encodeUtf8 (t ++ t') = .ok bytes) ↔
    (∃ bytes, encodeUtf8 t = .ok bytes) ∧ ∃ bytes, encodeUtf8 t' = .ok bytes := by
  simp only [encodeUtf8_append_eq_ok_iff]
  constructor
  · rintro ⟨_, before, after, hbefore, hafter, -⟩
    exact ⟨⟨before, hbefore⟩, after, hafter⟩
  · rintro ⟨⟨before, hbefore⟩, after, hafter⟩
    exact ⟨_, before, after, hbefore, hafter, rfl⟩

/-- Texts in a row have bytes if each has. -/
theorem exists_encodeUtf8_flatten {lines : List Text} :
    (∃ bytes, encodeUtf8 lines.flatten = .ok bytes) ↔
      ∀ line ∈ lines, ∃ bytes, encodeUtf8 line = .ok bytes := by
  induction lines with
  | nil => exact iff_of_true ⟨[], rfl⟩ nofun
  | cons line rest ih => rw [List.flatten_cons, exists_encodeUtf8_append, ih, List.forall_mem_cons]

end Landscape.Text
