import Landscape.Proofs.Interchange.Legibility
import Landscape.Proofs.Json.Writing
import Landscape.Proofs.Storage.Files

/-!
# Nothing is lost in a file

A model that is saved is loaded as it was, but for its matrix, whatever the layout of the file, up to
the nesting that the reader follows. Writing follows a little more of it: beyond what can be read, a
model is saved in a file that is refused, and beyond what can be written, saving stops and leaves a
file that breaks off.
-/

namespace Landscape

/-- The bytes of a printed legible value are read as the value, or refused as nested too deeply. -/
theorem Json.ofBytes_print (layout : Json.Layout) {d : Json} (h : d.Legible) {bytes : List UInt8}
    (hencode : Text.encodeUtf8 (Text.ofString (Json.print layout d)) = .ok bytes) :
    d.nesting ≤ Json.maxDepth ∧ Json.ofBytes bytes = .ok d ∨
      Json.maxDepth < d.nesting ∧
        ∃ kind, Json.ofBytes bytes = .error (.text (.refused (.tooDeep kind))) := by
  have hprinted : Json.AllPrinted (Json.print layout d).toList := Json.allPrinted_printAt layout 0 d
  have hascii : ∀ c ∈ (Json.print layout d).toList, c.toNat < 0x80 := by
    intro c hc
    rcases hprinted c hc with rfl | ⟨-, hlt⟩
    · decide
    · omega
  have hreturn : '\r' ∉ (Json.print layout d).toList := fun hc => absurd (hprinted _ hc) (by decide)
  have hchars := Files.strictChars_encode hascii hreturn hencode
  have hbytes : Json.ofBytes bytes =
      (Json.readChars (Json.print layout d).toList).mapError .text := by
    rw [Json.ofBytes, hchars]
    rfl
  rw [hbytes, Json.readChars]
  rcases Json.document_print layout h with ⟨hle, hread⟩ | ⟨hlt, kind, hread⟩
  · rw [hread]
    exact .inl ⟨hle, rfl⟩
  · rw [hread]
    exact .inr ⟨hlt, kind, rfl⟩

namespace Model

variable {m : Model} {layout : Json.Layout} {files files' : Files} {path : Text}

/-- Saving writes the whole text of a model, or the file breaks off where something is in the way of
writing; or else no file is written. -/
theorem save_cases (layout : Json.Layout) (m : Model) (files : Files) (path : Text) :
    (∃ files', m.save layout files path = (.ok (), files') ∧
      files.save path (m.fileText layout) = .ok files') ∨
    (∃ e written rest files', m.fileText layout = written ++ rest ∧
      m.toJson.Obstacle Json.maxLevels .written e ∧
      m.save layout files path = (.error e, files') ∧ files.save path written = .ok files') ∨
    ∃ e written rest, m.fileText layout = written ++ rest ∧
      m.save layout files path = (.error e, files) ∧ files.save path written = .error e := by
  unfold save fileText
  rcases Json.puts_write layout m.toJson "" with hrun | ⟨e, written, rest, htext, he, hrun⟩
  · rw [hrun, String.empty_append]
    cases hsave : files.save path (Json.print layout m.toJson) with
    | ok files' => exact .inl ⟨files', by simp only [hsave], rfl⟩
    | error e =>
      exact .inr (.inr ⟨e, _, "", (String.append_empty).symm, by simp only [hsave], hsave⟩)
  · rw [hrun, String.empty_append]
    cases hsave : files.save path written with
    | ok files' =>
      exact .inr (.inl ⟨e, written, rest, files', htext, he, by simp only [hsave], hsave⟩)
    | error e => exact .inr (.inr ⟨e, written, rest, htext, by simp only [hsave], hsave⟩)

/-- A model that is saved has its whole text in the file. -/
theorem save_fileText_of_save (hsave : m.save layout files path = (.ok (), files')) :
    files.save path (m.fileText layout) = .ok files' := by
  rcases save_cases layout m files path with ⟨_, h, hfile⟩ | ⟨_, _, _, _, -, -, h, -⟩ |
    ⟨_, _, _, -, h, -⟩
  · obtain ⟨-, rfl⟩ := Prod.mk.inj (h.symm.trans hsave)
    exact hfile
  · cases h.symm.trans hsave
  · cases h.symm.trans hsave

/-- A regular model that is written legibly and has been saved is loaded without its matrix, or
refused as nested too deeply. -/
theorem load_of_save (hregular : m.Regular) (hlegible : m.toJson.Legible)
    (hsave : m.save layout files path = (.ok (), files')) :
    m.toJson.nesting ≤ Json.maxDepth ∧
        load files' (Path.normal path) = .ok { m with matrix := none } ∨
      Json.maxDepth < m.toJson.nesting ∧
        ∃ kind, load files' (Path.normal path) = .error (.tooDeep kind) := by
  obtain ⟨bytes, hencode, hread⟩ := Files.read_save (save_fileText_of_save hsave)
  rw [load, hread, ok_bind, ofBytes]
  rcases Json.ofBytes_print layout hlegible hencode with ⟨hle, hbytes⟩ | ⟨hlt, kind, hbytes⟩
  · rw [hbytes]
    exact .inl ⟨hle, ofJson_toJson hregular⟩
  · rw [hbytes]
    exact .inr ⟨hlt, kind, rfl⟩

end Model

namespace Model

/-- A loaded model comes from a document that can be read back. -/
theorem exists_document_of_load {files : Files} {path : Text} {m : Model}
    (h : load files path = .ok m) : ∃ d, d.Fits Json.maxDepth ∧ ofJson d = .ok m := by
  unfold load at h
  obtain ⟨bytes, -, h⟩ := bind_eq_ok_iff.mp h
  unfold ofBytes at h
  obtain ⟨d, hd, h⟩ := bind_eq_ok_iff.mp h
  exact ⟨d, Json.fits_of_ofBytes (mapError_eq_ok_iff.mp hd), h⟩

/-- A loaded model is loaded again from whatever file it is saved in. -/
theorem load_of_save_of_load {files files₁ files₂ : Files} {path path' : Text} {m : Model}
    (h : load files path = .ok m) (helements : m.elements.length < 10 ^ Number.maxDigits)
    (hrelations : m.relations.length < 10 ^ Number.maxDigits) {layout : Json.Layout}
    (hsave : m.save layout files₁ path' = (.ok (), files₂)) :
    load files₂ (Path.normal path') = .ok m := by
  obtain ⟨d, hfits, hm⟩ := exists_document_of_load h
  have hobtained : Obtained (.document d) m := .read hm
  have hfits' : m.Fits (Json.maxDepth - 3) :=
    hobtained.fits hfits.legible hfits.nesting_le helements hrelations
  have hnone : { m with matrix := none } = m := by
    rw [← matrix_of_ofJson hm]
  rcases load_of_save hobtained.regular (hfits'.toJson (by decide)).legible hsave with
    ⟨-, hload⟩ | ⟨hlt, -⟩
  · rwa [hnone] at hload
  · exact absurd (hfits'.toJson (by decide)).nesting_le (Nat.not_le.mpr hlt)

end Model

end Landscape
