import Landscape.Proofs.Json.Values

/-!
# What the reader gives can be read back

The reader joins the halves of a pair, counts the digits of an integer, lets the fields of one name
take one place and follows nesting only so far. So every value that it gives is legible and nested
no deeper than it follows, and it comes back from whatever is printed for it.
-/

namespace Landscape.Json

open Number

/-- Items are nested as deeply as the deepest of them. -/
theorem nestingItems_le_iff {xs : List Json} {levels : Nat} :
    nestingItems xs ≤ levels ↔ ∀ x ∈ xs, x.nesting ≤ levels := by
  induction xs with
  | nil => simp [nestingItems]
  | cons x xs ih => rw [nestingItems, Nat.max_le, ih, List.forall_mem_cons]

/-- Fields are nested as deeply as the deepest of their values. -/
theorem nestingFields_le_iff {fs : List (Text × Json)} {levels : Nat} :
    nestingFields fs ≤ levels ↔ ∀ f ∈ fs, f.2.nesting ≤ levels := by
  induction fs with
  | nil => simp [nestingFields]
  | cons f fs ih => rw [nestingFields, Nat.max_le, ih, List.forall_mem_cons]

/-- A value that can be read back with so many levels of nesting. -/
structure Fits (levels : Nat) (d : Json) : Prop where
  legible : d.Legible
  nesting_le : d.nesting ≤ levels

/-- Fields that a record within one more level of nesting can have. -/
structure FieldsFit (levels : Nat) (fs : List (Text × Json)) : Prop where
  keys : (Entries.keys fs).Nodup
  names : ∀ f ∈ fs, IsJoined f.1
  values : ∀ f ∈ fs, f.2.Fits levels

/-- A scalar has no nesting. -/
theorem Fits.scalar {s : Scalar} (hs : s.Legible) (levels : Nat) : (Json.scalar s).Fits levels :=
  ⟨.scalar hs, by rw [Json.nesting]; exact Nat.zero_le _⟩

/-- A list is one level above its items. -/
theorem Fits.list {levels : Nat} {xs : List Json} (h : ∀ x ∈ xs, x.Fits levels) :
    (Json.list xs).Fits (levels + 1) := by
  refine ⟨.list fun x hx => (h x hx).legible, ?_⟩
  rw [Json.nesting]
  exact Nat.succ_le_succ (nestingItems_le_iff.mpr fun x hx => (h x hx).nesting_le)

/-- A record is one level above its fields. -/
theorem FieldsFit.record {levels : Nat} {fs : List (Text × Json)} (h : FieldsFit levels fs) :
    (Json.record fs).Fits (levels + 1) := by
  refine ⟨.record h.keys h.names fun f hf => (h.values f hf).legible, ?_⟩
  rw [Json.nesting]
  exact Nat.succ_le_succ (nestingFields_le_iff.mpr fun f hf => (h.values f hf).nesting_le)

/-- The items of a list that fits have one level less. -/
theorem Fits.of_mem {levels : Nat} {xs : List Json} (h : (Json.list xs).Fits (levels + 1)) :
    ∀ x ∈ xs, x.Fits levels := by
  obtain ⟨hlegible, hnesting⟩ := h
  rw [Json.nesting] at hnesting
  cases hlegible with
  | list hxs =>
    have hitems := nestingItems_le_iff.mp (Nat.le_of_succ_le_succ hnesting)
    exact fun x hx => ⟨hxs x hx, hitems x hx⟩

/-- The fields of a record that fits have one level less. -/
theorem Fits.fields {levels : Nat} {fs : List (Text × Json)}
    (h : (Json.record fs).Fits (levels + 1)) : FieldsFit levels fs := by
  obtain ⟨hlegible, hnesting⟩ := h
  rw [Json.nesting] at hnesting
  cases hlegible with
  | record hkeys hnames hfs =>
    have hvalues := nestingFields_le_iff.mp (Nat.le_of_succ_le_succ hnesting)
    exact ⟨hkeys, hnames, fun f hf => ⟨hfs f hf, hvalues f hf⟩⟩

/-- More levels do no harm. -/
theorem Fits.mono {levels levels' : Nat} {d : Json} (h : d.Fits levels) (hle : levels ≤ levels') :
    d.Fits levels' :=
  ⟨h.legible, h.nesting_le.trans hle⟩

/-- There may be no fields. -/
theorem FieldsFit.nil (levels : Nat) : FieldsFit levels [] :=
  ⟨List.nodup_nil, List.forall_mem_nil _, List.forall_mem_nil _⟩

/-- A field may take the place of one with its name. -/
theorem FieldsFit.put {levels : Nat} {fs : List (Text × Json)} (h : FieldsFit levels fs)
    {name : Text} (hname : IsJoined name) {d : Json} (hd : d.Fits levels) :
    FieldsFit levels (Entries.put fs name d) := by
  refine ⟨Entries.nodup_keys_put h.keys name d, ?_, ?_⟩
  · intro f hf
    rcases Entries.mem_put hf with rfl | hf
    · exact hname
    · exact h.names f hf
  · intro f hf
    rcases Entries.mem_put hf with rfl | hf
    · exact hd
    · exact h.values f hf

/-- The symbol of a unit that is a half is that half. -/
theorem code_unitSymbol (n : Nat) : (unitSymbol n).code = n ∨ (unitSymbol n).code = 0x20 := by
  unfold unitSymbol Symbol.ofCode?
  split
  next hvalid =>
    left
    change (Char.ofNat n).toNat = n
    rw [Char.ofNat, dif_pos hvalid]
    rfl
  next hvalid =>
    split
    next hhalf =>
      left
      simp only [Nat.isValidChar] at hvalid
      change 0xd800 + (n - 0xd800) = n
      omega
    · exact .inr rfl

/-- A character is no low half. -/
theorem isLowHalf_toNat (c : Char) : ¬isLowHalf c.toNat = true := by
  have hc : c.toNat < 0xd800 ∨ 0xdfff < c.toNat := c.valid.imp id And.left
  simp only [isLowHalf, Bool.and_eq_true, decide_eq_true_eq]
  omega

/-- A low half in front of joined pieces comes from the first of them. -/
theorem isLowHalf_of_head?_joinPieces {m : Nat} {rest : List Piece} {s : Symbol}
    (hhead : (joinPieces (.unit m :: rest)).head? = some s) (hlow : isLowHalf s.code = true) :
    isLowHalf m = true := by
  have hunit : s = unitSymbol m → isLowHalf m = true := by
    rintro rfl
    rcases code_unitSymbol m with hcode | hcode
    · rwa [hcode] at hlow
    · rw [hcode] at hlow
      exact absurd hlow (by decide)
  cases rest with
  | nil => exact hunit (Option.some.inj hhead).symm
  | cons p rest =>
    cases p with
    | char c => exact hunit (Option.some.inj hhead).symm
    | unit n =>
      rw [joinPieces] at hhead
      split at hhead
      · obtain rfl := Option.some.inj hhead
        exact absurd hlow (isLowHalf_toNat _)
      · exact hunit (Option.some.inj hhead).symm

/-- A character may stand before any text without halves to join. -/
theorem isJoined_char_cons (c : Char) {t : Text} (ht : IsJoined t) : IsJoined (.char c :: t) :=
  List.isChain_cons.mpr ⟨fun _ _ h => isHighHalf_toNat c h.1, ht⟩

/-- When pieces are joined, no halves to join are left. -/
theorem isJoined_joinPieces (pieces : List Piece) : IsJoined (joinPieces pieces) := by
  induction pieces using joinPieces.induct with
  | case1 => exact List.isChain_nil
  | case2 c rest ih => exact isJoined_char_cons c ih
  | case3 n => exact List.isChain_singleton _
  | case4 n rest m hpair ih =>
    rw [joinPieces, if_pos hpair]
    exact isJoined_char_cons _ ih
  | case5 n rest m hpair ih =>
    rw [joinPieces, if_neg hpair]
    refine List.isChain_cons.mpr ⟨?_, ih⟩
    rintro s hs ⟨hhigh, hlow⟩
    have hlow' := isLowHalf_of_head?_joinPieces hs hlow
    rcases code_unitSymbol n with hcode | hcode
    · rw [hcode] at hhigh
      exact hpair (by rw [hhigh, hlow']; rfl)
    · rw [hcode] at hhigh
      exact absurd hhigh (by decide)
  | case6 n c rest ih =>
    refine List.isChain_cons.mpr ⟨?_, isJoined_char_cons c ih⟩
    rintro s hs ⟨-, hlow⟩
    obtain rfl := Option.some.inj hs
    exact isLowHalf_toNat c hlow

/-- A string that was read has no halves to join. -/
theorem isJoined_of_string {opened cs rest : List Char} {t : Text}
    (h : string opened cs = .ok (t, rest)) : IsJoined t := by
  unfold string at h
  split at h
  · obtain ⟨rfl, -⟩ := Prod.mk.inj (Except.ok.inj h)
    exact isJoined_joinPieces _
  · cases h

/-- Digits are less than ten. -/
theorem asciiDigits_lt (cs : List Char) : ∀ d ∈ (asciiDigits cs).1, d < 10 := by
  induction cs with
  | nil => exact List.forall_mem_nil _
  | cons c cs ih =>
    rw [asciiDigits]
    split
    next hc =>
      exact List.forall_mem_cons.mpr ⟨digitsOf_lt (List.forall_mem_singleton.mpr hc) _
        List.mem_cons_self, ih⟩
    · exact List.forall_mem_nil _

/-- Whole digits are less than ten. -/
theorem wholeDigits_lt (cs : List Char) : ∀ d ∈ (wholeDigits cs).1, d < 10 := by
  unfold wholeDigits
  split
  · simp
  · exact asciiDigits_lt _

/-- A number that was read can be read back. -/
theorem fits_of_number {cs rest : List Char} {d : Json} (h : number cs = .ok (d, rest))
    (levels : Nat) : d.Fits levels := by
  unfold number at h
  dsimp only at h
  have hdigits := wholeDigits_lt (splitMinus cs).2
  split at h
  · cases h
  next whole tail hne hwhole =>
    rw [hwhole] at hdigits
    split at h
    · split at h
      · cases h
      next hlength =>
        obtain ⟨rfl, -⟩ := Prod.mk.inj (Except.ok.inj h)
        refine Fits.scalar ?_ levels
        have hlt := ofDigits_lt whole hdigits
        have hle : 10 ^ whole.length ≤ 10 ^ maxDigits :=
          Nat.pow_le_pow_right (by decide) (Nat.le_of_not_lt hlength)
        change Int.natAbs _ < 10 ^ maxDigits
        split
        · omega
        · omega
    · obtain ⟨rfl, -⟩ := Prod.mk.inj (Except.ok.inj h)
      exact Fits.scalar (s := .float _) trivial levels

/-- Whatever a reading gives can be read back with so many levels of nesting. -/
def GivesFit (levels : Nat) (read : Step Json) : Prop :=
  ∀ d rest, read = .ok (d, rest) → d.Fits levels

/-- A reading that gives a value that fits. -/
theorem givesFit_ok {levels : Nat} {d : Json} (hd : d.Fits levels) (rest : List Char) :
    GivesFit levels (.ok (d, rest)) := by
  intro d' rest' h
  obtain ⟨rfl, -⟩ := Prod.mk.inj (Except.ok.inj h)
  exact hd

/-- A failed reading gives nothing. -/
theorem givesFit_error (levels : Nat) (e : Fault) : GivesFit levels (.error e) := by
  intro d rest h
  cases h

/-- A value fits if the lists and records that it opens do. -/
theorem givesFit_value {fuel : Nat}
    (hitems : ∀ depth cs, GivesFit (depth + 1) (items fuel depth [] cs))
    (hfields : ∀ depth cs, GivesFit (depth + 1) (fields fuel depth [] cs))
    (depth : Nat) (cs : List Char) : GivesFit depth (value (fuel + 1) depth cs) := by
  unfold value
  split
  next rest =>
    split
    next s rest hs => exact givesFit_ok (.scalar (s := .text s) (isJoined_of_string hs) depth) _
    · exact givesFit_error depth _
  next rest =>
    cases depth with
    | zero => exact givesFit_error 0 _
    | succ depth =>
      split
      · exact givesFit_error _ _
      · split
        · exact givesFit_ok (FieldsFit.nil depth).record _
        · exact hfields depth _
  next rest =>
    cases depth with
    | zero => exact givesFit_error 0 _
    | succ depth =>
      split
      · exact givesFit_error _ _
      · split
        · exact givesFit_ok (Fits.list (List.forall_mem_nil _)) _
        · exact hitems depth _
  · exact givesFit_ok (.scalar (s := .null) trivial depth) _
  · exact givesFit_ok (.scalar (s := .bool true) trivial depth) _
  · exact givesFit_ok (.scalar (s := .bool false) trivial depth) _
  · exact givesFit_ok (.scalar (s := .float _) trivial depth) _
  · exact givesFit_ok (.scalar (s := .float _) trivial depth) _
  · exact givesFit_ok (.scalar (s := .float _) trivial depth) _
  · exact fun _ _ h => fits_of_number h depth

/-- A list fits if its items do, those that were read before and those to come. -/
theorem givesFit_items {fuel depth : Nat} (hvalue : ∀ cs, GivesFit depth (value fuel depth cs))
    (hitems : ∀ found cs, (∀ x ∈ found, x.Fits depth) →
      GivesFit (depth + 1) (items fuel depth found cs))
    (found : List Json) (cs : List Char) (hfound : ∀ x ∈ found, x.Fits depth) :
    GivesFit (depth + 1) (items (fuel + 1) depth found cs) := by
  unfold items
  split
  · exact givesFit_error _ _
  next x rest hx =>
    have hfound' : ∀ y ∈ x :: found, y.Fits depth :=
      List.forall_mem_cons.mpr ⟨hvalue cs x rest hx, hfound⟩
    split
    · exact givesFit_ok (Fits.list fun y hy => hfound' y (List.mem_reverse.mp hy)) _
    · exact hitems _ _ hfound'
    · exact givesFit_error _ _

/-- A record fits if its fields do, those that were read before and those to come. -/
theorem givesFit_fields {fuel depth : Nat} (hvalue : ∀ cs, GivesFit depth (value fuel depth cs))
    (hfields : ∀ found cs, FieldsFit depth found →
      GivesFit (depth + 1) (fields fuel depth found cs))
    (found : List (Text × Json)) (cs : List Char) (hfound : FieldsFit depth found) :
    GivesFit (depth + 1) (fields (fuel + 1) depth found cs) := by
  unfold fields
  split
  next rest =>
    split
    · exact givesFit_error _ _
    next name rest hname =>
      split
      next rest =>
        split
        · exact givesFit_error _ _
        next x rest hx =>
          have hfound' := hfound.put (isJoined_of_string hname) (hvalue _ x rest hx)
          dsimp only
          split
          · exact givesFit_ok hfound'.record _
          · exact hfields _ _ hfound'
          · exact givesFit_error _ _
      · exact givesFit_error _ _
  · exact givesFit_error _ _

/-- Whatever the reader gives can be read back with the nesting that it was allowed. The induction
is on the fuel, which values, items and fields share. -/
theorem givesFit (fuel : Nat) :
    (∀ depth cs, GivesFit depth (value fuel depth cs)) ∧
      (∀ depth found cs, (∀ x ∈ found, x.Fits depth) →
        GivesFit (depth + 1) (items fuel depth found cs)) ∧
      ∀ depth found cs, FieldsFit depth found →
        GivesFit (depth + 1) (fields fuel depth found cs) := by
  induction fuel with
  | zero =>
    refine ⟨fun depth cs => ?_, fun depth found cs _ => ?_, fun depth found cs _ => ?_⟩
    · rw [value]
      exact givesFit_error _ _
    · rw [items]
      exact givesFit_error _ _
    · rw [fields]
      exact givesFit_error _ _
  | succ fuel ih =>
    obtain ⟨hvalue, hitems, hfields⟩ := ih
    refine ⟨?_, fun depth => ?_, fun depth => ?_⟩
    · exact givesFit_value (fun depth cs => hitems depth [] cs (List.forall_mem_nil _))
        fun depth cs => hfields depth [] cs (FieldsFit.nil depth)
    · exact givesFit_items (hvalue depth) (hitems depth)
    · exact givesFit_fields (hvalue depth) (hfields depth)

/-- What is read from a whole text is legible and nested no deeper than the reader follows. -/
theorem fits_of_document {cs : List Char} {d : Json} (h : document cs = .ok d) :
    d.Fits maxDepth := by
  unfold document at h
  split at h
  · cases h
  · split at h
    · cases h
    · split at h
      · cases h
      next x rest hx =>
        split at h
        · obtain rfl := Except.ok.inj h
          exact (givesFit _).1 _ _ x rest hx
        · cases h

/-- What was read from a text is read from whatever is printed for it. -/
theorem document_print_of_document {cs : List Char} {d : Json} (h : document cs = .ok d)
    (layout : Layout) : document (print layout d).toList = .ok d := by
  have hfits := fits_of_document h
  rcases document_print layout hfits.legible with ⟨-, hread⟩ | ⟨hlt, -⟩
  · exact hread
  · exact absurd hfits.nesting_le (Nat.not_le.mpr hlt)

end Landscape.Json
