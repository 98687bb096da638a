import Landscape.Files
import Landscape.Proofs.Results

/-!
# What is written is read

Writing a file takes no directory away and makes none of its place, so its path leads to the same
place before and after, and reading it gives the bytes that were written.
-/

namespace Landscape.Files

open Landscape.Text

/-- The files after bytes have been put at a place. -/
def put (files : Files) (place : Place) (bytes : List UInt8) : Files :=
  if files.isFile place then
    { files with
      contents := files.contents.map fun (p, old) => (p, if p == place then bytes else old) }
  else { files with contents := files.contents ++ [(place, bytes)] }

/-- A file is written where its path leads to, unless a directory is there. -/
theorem write_eq_ok {files files' : Files} {path text : Text}
    (h : files.write path text = .ok files') :
    ∃ place bytes, files.resolve path = .ok place ∧ files.isDirectory place = false ∧
      encodeUtf8 text = .ok bytes ∧ files' = files.put place bytes := by
  obtain ⟨place, hplace, h⟩ := bind_eq_ok_iff.mp h
  cases hdirectory : files.isDirectory place with
  | true => simp [hdirectory] at h
  | false =>
    rw [hdirectory] at h
    obtain ⟨bytes, hbytes, h⟩ := bind_eq_ok_iff.mp h
    cases hencode : encodeUtf8 text with
    | error e =>
      rw [hencode] at hbytes
      cases hbytes
    | ok encoded =>
      rw [hencode] at hbytes
      cases hbytes
      exact ⟨place, bytes, hplace, hdirectory, rfl, (Except.ok.inj h).symm⟩

variable {files : Files} {place : Place} {bytes : List UInt8}

/-- Bytes that are put somewhere are found there. -/
theorem lookup_put : (files.put place bytes).contents.lookup place = some bytes := by
  unfold put isFile
  obtain ⟨contents, directories⟩ := files
  dsimp only
  split
  next hfile =>
    induction contents with
    | nil => cases hfile
    | cons file rest ih =>
      obtain ⟨p, old⟩ := file
      by_cases hp : p = place
      · rw [List.map_cons, hp, beq_self_eq_true, if_pos rfl, List.lookup_cons_self]
      · have hne : (place == p) = false := beq_eq_false_iff_ne.mpr (Ne.symm hp)
        have hrest : rest.any (·.1 == place) = true := by
          simpa [beq_eq_false_iff_ne.mpr hp] using hfile
        rw [List.map_cons, List.lookup_cons, hne]
        exact ih hrest
  next hfile =>
    have hnone : contents.lookup place = none := by
      rw [List.lookup_eq_none_iff]
      intro file hmem
      refine bne_iff_ne.mpr fun h => hfile (List.any_eq_true.mpr ⟨file, hmem, ?_⟩)
      exact beq_iff_eq.mpr h.symm
    rw [List.lookup_append, hnone, Option.none_or, List.lookup_cons_self]

/-- Putting bytes somewhere takes no directory away. -/
theorem isDirectory_put {p : Place} (hp : files.isDirectory p = true) :
    (files.put place bytes).isDirectory p = true := by
  unfold put
  split
  · simpa only [isDirectory, List.any_map, Function.comp_def] using hp
  · simp only [isDirectory, List.any_append, Bool.or_eq_true] at hp ⊢
    exact hp.imp id .inl

/-- Putting bytes somewhere makes no directory there. -/
theorem isDirectory_put_self (hplace : files.isDirectory place = false) :
    (files.put place bytes).isDirectory place = false := by
  unfold put
  split
  · simpa only [isDirectory, List.any_map, Function.comp_def] using hplace
  · simpa only [isDirectory, List.any_append, List.any_cons, List.any_nil, bne_self_eq_false,
      Bool.and_false, Bool.or_false] using hplace

/-- A path is followed in the same way where there are more directories. -/
theorem follow_mono {files files' : Files}
    (h : ∀ p, files.isDirectory p = true → files'.isDirectory p = true) {pieces : List Text}
    {from_ place : Place} (hfollow : files.follow from_ pieces = .ok place) :
    files'.follow from_ pieces = .ok place := by
  induction pieces generalizing from_ with
  | nil => exact hfollow
  | cons piece pieces ih =>
    unfold follow at hfollow ⊢
    split at hfollow
    next hdirectory =>
      rw [if_pos (h _ hdirectory)]
      split at hfollow
      · cases hfollow
      next hsize =>
        rw [if_neg hsize]
        exact ih hfollow
    · cases hfollow

/-- A path leads to the same place where there are more directories. -/
theorem resolve_mono {files files' : Files}
    (h : ∀ p, files.isDirectory p = true → files'.isDirectory p = true) {path : Text}
    {place : Place} (hresolve : files.resolve path = .ok place) :
    files'.resolve path = .ok place := by
  obtain ⟨_, hcheck, hresolve⟩ := bind_eq_ok_iff.mp hresolve
  unfold resolve
  rw [hcheck, ok_bind]
  split at hresolve
  · cases hresolve
  next hempty =>
    rw [if_neg hempty]
    cases hfollow : files.follow (Place.startOf path) (Path.pieces path) with
    | error fault =>
      rw [hfollow] at hresolve
      cases hresolve
    | ok found =>
      rw [hfollow] at hresolve
      rw [follow_mono h hfollow]
      exact hresolve

/-- A file that has been written is read. -/
theorem read_write {files files' : Files} {path text : Text}
    (h : files.write path text = .ok files') :
    ∃ bytes, encodeUtf8 text = .ok bytes ∧ files'.read path = .ok bytes := by
  obtain ⟨place, bytes, hplace, hdirectory, hencode, rfl⟩ := write_eq_ok h
  refine ⟨bytes, hencode, ?_⟩
  have hput (p : Place) (hp : files.isDirectory p = true) :
      (files.put place bytes).isDirectory p = true := isDirectory_put hp
  have hresolve := resolve_mono hput hplace
  rw [read, hresolve, ok_bind, isDirectory_put_self hdirectory, lookup_put]
  rfl

/-- A file that has been saved is read by its normal path. -/
theorem read_save {files files' : Files} {path text : Text}
    (h : files.save path text = .ok files') :
    ∃ bytes, encodeUtf8 text = .ok bytes ∧ files'.read (Path.normal path) = .ok bytes := by
  obtain ⟨_, _, hwrite⟩ := bind_eq_ok_iff.mp h
  exact read_write hwrite

/-- A character of ASCII is one byte. -/
theorem utf8EncodeChar_ascii {c : Char} (hc : c.toNat < 0x80) :
    String.utf8EncodeChar c = [UInt8.ofNat c.toNat] := by
  have hle : c.val.toNat ≤ 0x7f := Nat.le_of_lt_succ hc
  simp only [String.utf8EncodeChar, hle, if_true]
  rfl

/-- Bytes of ASCII are their characters. -/
theorem mapM_utf8Items {ε : Type} {f : Nat × Utf8Item → Except ε Char}
    (hf : ∀ i c n, f (i, .char c n) = .ok c) {cs : List Char} (hcs : ∀ c ∈ cs, c.toNat < 0x80)
    (offset : Nat) : (utf8Items offset (cs.flatMap String.utf8EncodeChar)).mapM f = .ok cs := by
  induction cs generalizing offset with
  | nil =>
    rw [List.flatMap_nil, utf8Items]
    rfl
  | cons c cs ih =>
    obtain ⟨hc, hcs⟩ := List.forall_mem_cons.mp hcs
    have htoNat : (UInt8.ofNat c.toNat).toNat = c.toNat :=
      UInt8.toNat_ofNat_of_lt (Nat.lt_trans hc (by decide))
    have hlt : UInt8.ofNat c.toNat < 0x80 := by
      rw [UInt8.lt_iff_toNat_lt, htoNat]
      exact hc
    have hitem (rest : List UInt8) : utf8Item (UInt8.ofNat c.toNat) rest = .char c 1 := by
      unfold utf8Item
      rw [if_pos hlt, htoNat, Char.ofNat_toNat]
    rw [List.flatMap_cons, utf8EncodeChar_ascii hc, List.singleton_append, utf8Items, hitem,
      List.mapM_cons, hf, ok_bind]
    change (List.mapM f (utf8Items (offset + 1) (cs.flatMap String.utf8EncodeChar)) >>= _) = _
    rw [ih hcs, ok_bind]
    rfl

/-- A text of ASCII without carriage returns comes back from its bytes. -/
theorem strictChars_encode {cs : List Char} (hcs : ∀ c ∈ cs, c.toNat < 0x80) (hreturn : '\r' ∉ cs)
    {bytes : List UInt8} (hencode : encodeUtf8 (ofChars cs) = .ok bytes) :
    strictChars bytes = .ok cs := by
  unfold encodeUtf8 at hencode
  rw [chars?_ofChars] at hencode
  obtain rfl := Except.ok.inj hencode
  rw [strictChars, decodeUtf8, mapM_utf8Items (fun _ _ _ => rfl) hcs, map_ok,
    unifyLines_eq_self hreturn]

end Landscape.Files
