import Landscape.Json.Conversion
import Landscape.Proofs.Json.Acceptance
import Landscape.Proofs.Results

/-!
# What can be spelled and written

Two things are in the way of spelling a value or of writing it: an integer with too many digits, and
too many levels of nesting. Without them a value is spelled, and all of its text is written. With
one of them the failure says which it is, and what was written is a beginning of the text.
-/

namespace Landscape

open Number

/-- An integer is spelled, or it has too many digits. -/
theorem Number.spell_cases (n : Int) :
    n.natAbs < 10 ^ maxDigits ∧ spell n = .ok (toString n) ∨
      10 ^ maxDigits ≤ n.natAbs ∧ spell n = .error .unprintableInteger := by
  have hdigits : (Nat.toDigits 10 n.natAbs).length ≤ maxDigits ↔ n.natAbs < 10 ^ maxDigits :=
    Nat.length_toDigits_le_iff (by decide) (by decide)
  have hlength : (toString n : String).length =
      (if n < 0 then 1 else 0) + (Nat.toDigits 10 n.natAbs).length := by
    rw [← String.length_toList, Json.toList_toString_int, List.length_append]
    by_cases hn : n < 0 <;> simp [Numeral.minus, hn]
  unfold spell
  dsimp only
  rw [hlength]
  by_cases hn : n.natAbs < 10 ^ maxDigits
  · have hle := hdigits.mpr hn
    rw [if_neg (by omega)]
    exact .inl ⟨hn, rfl⟩
  · have hlt := mt hdigits.mp hn
    rw [if_pos (by omega)]
    exact .inr ⟨Nat.not_lt.mp hn, rfl⟩

namespace Json

mutual

/-- The integers in a value. -/
def integers : Json → List Int
  | .scalar (.int n) => [n]
  | .scalar _ => []
  | .list xs => integersOfItems xs
  | .record fs => integersOfFields fs

/-- The integers in some items. -/
def integersOfItems : List Json → List Int
  | [] => []
  | x :: xs => integers x ++ integersOfItems xs

/-- The integers in some fields. -/
def integersOfFields : List (Text × Json) → List Int
  | [] => []
  | (_, x) :: fs => integers x ++ integersOfFields fs

end

/-- The integers of items are those of each of them. -/
theorem mem_integersOfItems {n : Int} {xs : List Json} :
    n ∈ integersOfItems xs ↔ ∃ x ∈ xs, n ∈ x.integers := by
  induction xs with
  | nil => simp [integersOfItems]
  | cons x xs ih => simp [integersOfItems, ih]

/-- The integers of fields are those of each of their values. -/
theorem mem_integersOfFields {n : Int} {fs : List (Text × Json)} :
    n ∈ integersOfFields fs ↔ ∃ f ∈ fs, n ∈ f.2.integers := by
  induction fs with
  | nil => simp [integersOfFields]
  | cons f fs ih => simp [integersOfFields, ih]

mutual

/-- How many lists and records that hold something are nested in each other. -/
def filled : Json → Nat
  | .scalar _ => 0
  | .list xs => filledItems xs
  | .record fs => filledFields fs

/-- How many of them there are with the list that holds some items. -/
def filledItems : List Json → Nat
  | [] => 0
  | x :: xs => max (filled x + 1) (filledItems xs)

/-- How many of them there are with the record that holds some fields. -/
def filledFields : List (Text × Json) → Nat
  | [] => 0
  | (_, x) :: fs => max (filled x + 1) (filledFields fs)

end

/-- A list that holds something is one level above its items. -/
theorem filledItems_le_iff {xs : List Json} {levels : Nat} :
    filledItems xs ≤ levels ↔ ∀ x ∈ xs, x.filled < levels := by
  induction xs with
  | nil => simp [filledItems]
  | cons x xs ih => rw [filledItems, Nat.max_le, ih, List.forall_mem_cons, Nat.succ_le_iff]

/-- What is in the way of following a value through so many levels: an integer with too many digits,
or more lists and records that hold something. -/
inductive Obstacle (levels : Nat) (deep : Nesting) (d : Json) : Error → Prop
  | digits {n : Int} (hn : n ∈ d.integers) (hlong : 10 ^ maxDigits ≤ n.natAbs) :
      Obstacle levels deep d .unprintableInteger
  | depth (hdeep : levels < d.filled) : Obstacle levels deep d (.tooDeep deep)

variable {levels depth : Nat} {deep : Nesting} {d x : Json} {xs : List Json}
  {fs : List (Text × Json)} {f : Text × Json} {e : Error}

/-- What holds of a value if it holds of its parts holds of every value. -/
@[elab_as_elim]
theorem forall_of_parts {P : Json → Prop} (scalar : ∀ s, P (.scalar s))
    (list : ∀ xs, (∀ x ∈ xs, P x) → P (.list xs))
    (record : ∀ fs, (∀ f ∈ fs, P f.2) → P (.record fs)) (d : Json) : P d :=
  @Json.rec P (fun xs => ∀ x ∈ xs, P x) (fun fs => ∀ f ∈ fs, P f.2) (fun f => P f.2)
    scalar list record (List.forall_mem_nil _) (fun _ _ hx hxs => List.forall_mem_cons.mpr ⟨hx, hxs⟩)
    (List.forall_mem_nil _) (fun _ _ hf hfs => List.forall_mem_cons.mpr ⟨hf, hfs⟩)
    (fun _ _ hd => hd) d

/-- A record holds the integers of the list of its values. -/
theorem integers_record (fs : List (Text × Json)) :
    (Json.record fs).integers = (Json.list (fs.map Prod.snd)).integers := by
  rw [integers, integers]
  induction fs with
  | nil => rfl
  | cons f fs ih => rw [integersOfFields, List.map_cons, integersOfItems, ih]

/-- A record is filled as the list of its values is. -/
theorem filled_record (fs : List (Text × Json)) :
    (Json.record fs).filled = (Json.list (fs.map Prod.snd)).filled := by
  rw [filled, filled]
  induction fs with
  | nil => rfl
  | cons f fs ih => rw [filledFields, List.map_cons, filledItems, ih]

/-- A record is nested as the list of its values is. -/
theorem nesting_record (fs : List (Text × Json)) :
    (Json.record fs).nesting = (Json.list (fs.map Prod.snd)).nesting := by
  rw [nesting, nesting]
  congr 1
  induction fs with
  | nil => rfl
  | cons f fs ih => rw [nestingFields, List.map_cons, nestingItems, ih]

/-- A record is checked as the list of its values is. -/
theorem checkSpelling_record (levels : Nat) (fs : List (Text × Json)) :
    (Json.record fs).checkSpelling levels =
      (Json.list (fs.map Prod.snd)).checkSpelling levels := by
  rw [checkSpelling, checkSpelling]
  induction fs with
  | nil => rw [checkFields, List.map_nil, checkItems]
  | cons f fs ih =>
    cases levels with
    | zero => rfl
    | succ levels => rw [checkFields, List.map_cons, checkItems, ih]

/-- What holds of a list if it holds of its items, and of a record if it holds of the list of its
values, holds of every value. -/
@[elab_as_elim]
theorem forall_of_items {P : Json → Prop} (scalar : ∀ s, P (.scalar s))
    (list : ∀ xs, (∀ x ∈ xs, P x) → P (.list xs))
    (record : ∀ fs : List (Text × Json), P (.list (fs.map Prod.snd)) → P (.record fs)) (d : Json) :
    P d :=
  forall_of_parts scalar list (fun fs h => record fs (list _ (List.forall_mem_map.mpr h))) d

/-- Not more lists and records hold something than there are in each other. -/
theorem filled_le_nesting (d : Json) : d.filled ≤ d.nesting := by
  induction d using forall_of_items with
  | scalar s => rw [filled]; exact Nat.zero_le _
  | list xs ih =>
    rw [filled, nesting, filledItems_le_iff]
    intro x hx
    have hle := nestingItems_le_iff.mp le_rfl x hx
    have hfilled := ih x hx
    omega
  | record fs ih =>
    rw [filled_record, nesting_record]
    exact ih

/-- A value that has short integers and not too many levels has nothing in its way. -/
theorem not_obstacle (hfilled : d.filled ≤ levels)
    (hintegers : ∀ n ∈ d.integers, n.natAbs < 10 ^ maxDigits) : ¬d.Obstacle levels deep e := by
  rintro (⟨hn, hlong⟩ | hdeep)
  · exact absurd (hintegers _ hn) (Nat.not_lt.mpr hlong)
  · exact absurd hfilled (Nat.not_le.mpr hdeep)

/-- What is in the way of an item is in the way of its list, one level further up. -/
theorem Obstacle.of_item (h : x.Obstacle levels deep e) (hx : x ∈ xs) :
    (Json.list xs).Obstacle (levels + 1) deep e := by
  cases h with
  | digits hn hlong =>
    refine .digits ?_ hlong
    rw [integers]
    exact mem_integersOfItems.mpr ⟨x, hx, hn⟩
  | depth hdeep =>
    refine .depth ?_
    rw [filled]
    have hlt := filledItems_le_iff.mp le_rfl x hx
    omega

/-- What is in the way of a record is in the way of the list of its values. -/
theorem obstacle_record_iff :
    (Json.record fs).Obstacle levels deep e ↔
      (Json.list (fs.map Prod.snd)).Obstacle levels deep e := by
  constructor
  · rintro (⟨hn, hlong⟩ | hdeep)
    · rw [integers_record] at hn
      exact .digits hn hlong
    · rw [filled_record] at hdeep
      exact .depth hdeep
  · rintro (⟨hn, hlong⟩ | hdeep)
    · rw [← integers_record] at hn
      exact .digits hn hlong
    · rw [← filled_record] at hdeep
      exact .depth hdeep

/-- What is in the way of a field is in the way of its record, one level further up. -/
theorem Obstacle.of_field (h : f.2.Obstacle levels deep e) (hf : f ∈ fs) :
    (Json.record fs).Obstacle (levels + 1) deep e :=
  obstacle_record_iff.mpr (h.of_item (List.mem_map_of_mem hf))

/-- A list that is not empty has a level. -/
theorem obstacle_list_zero (x : Json) (xs : List Json) (deep : Nesting) :
    (Json.list (x :: xs)).Obstacle 0 deep (.tooDeep deep) :=
  .depth (by rw [filled, filledItems]; omega)

/-- A record that is not empty has a level. -/
theorem obstacle_record_zero (f : Text × Json) (fs : List (Text × Json)) (deep : Nesting) :
    (Json.record (f :: fs)).Obstacle 0 deep (.tooDeep deep) :=
  obstacle_record_iff.mpr (obstacle_list_zero f.2 _ deep)

/-- Where a check of items fails, it does so at one of them. -/
theorem exists_of_checkItems_eq_error (h : checkItems (levels + 1) xs = .error e) :
    ∃ x ∈ xs, x.checkSpelling levels = .error e := by
  induction xs with
  | nil => cases h
  | cons x xs ih =>
    rw [checkItems] at h
    cases hx : x.checkSpelling levels with
    | error e' =>
      rw [hx] at h
      obtain rfl := Except.error.inj h
      exact ⟨x, List.mem_cons_self, hx⟩
    | ok _ =>
      rw [hx] at h
      obtain ⟨y, hy, herror⟩ := ih h
      exact ⟨y, List.mem_cons_of_mem x hy, herror⟩

/-- Where a check fails, it says what is in the way. -/
theorem obstacle_of_checkSpelling (h : d.checkSpelling levels = .error e) :
    d.Obstacle levels .value e := by
  induction d using forall_of_items generalizing levels with
  | scalar s =>
    cases s with
    | int n =>
      rcases spell_cases n with ⟨-, hspell⟩ | ⟨hlong, hspell⟩
      · rw [checkSpelling, hspell] at h
        cases h
      · rw [checkSpelling, hspell] at h
        obtain rfl := Except.error.inj h
        exact .digits (by rw [integers]; exact List.mem_singleton_self n) hlong
    | _ => cases h
  | list xs ih =>
    rw [checkSpelling] at h
    cases levels with
    | zero =>
      cases xs with
      | nil => cases h
      | cons x xs =>
        obtain rfl := Except.error.inj h
        exact obstacle_list_zero x xs .value
    | succ levels =>
      obtain ⟨x, hx, herror⟩ := exists_of_checkItems_eq_error h
      exact (ih x hx herror).of_item hx
  | record fs ih =>
    rw [checkSpelling_record] at h
    exact obstacle_record_iff.mpr (ih h)

/-- A check of items that goes well has gone well for each of them, one level further down. -/
theorem exists_of_checkItems_eq_ok (h : checkItems levels xs = .ok ()) :
    ∀ x ∈ xs, ∃ below, levels = below + 1 ∧ x.checkSpelling below = .ok () := by
  induction xs with
  | nil => exact List.forall_mem_nil _
  | cons x xs ih =>
    cases levels with
    | zero => cases h
    | succ below =>
      rw [checkItems] at h
      obtain ⟨_, hx, hxs⟩ := bind_eq_ok_iff.mp h
      exact List.forall_mem_cons.mpr ⟨⟨below, rfl, hx⟩, ih hxs⟩

/-- Where a check goes well, nothing is in the way. -/
theorem not_obstacle_of_checkSpelling (h : d.checkSpelling levels = .ok ()) :
    ¬d.Obstacle levels deep e := by
  have hfree : d.filled ≤ levels ∧ ∀ n ∈ d.integers, n.natAbs < 10 ^ maxDigits := by
    induction d using forall_of_items generalizing levels with
    | scalar s =>
      refine ⟨by rw [filled]; exact Nat.zero_le _, ?_⟩
      cases s with
      | int n =>
        rw [integers, List.forall_mem_singleton]
        rcases spell_cases n with ⟨hn, -⟩ | ⟨-, hspell⟩
        · exact hn
        · rw [checkSpelling, hspell] at h
          cases h
      | _ => exact List.forall_mem_nil _
    | list xs ih =>
      rw [checkSpelling] at h
      have hitems := exists_of_checkItems_eq_ok h
      rw [filled, filledItems_le_iff, integers]
      constructor
      · intro x hx
        obtain ⟨below, rfl, hcheck⟩ := hitems x hx
        exact Nat.lt_succ_of_le (ih x hx hcheck).1
      · intro n hn
        obtain ⟨x, hx, hn⟩ := mem_integersOfItems.mp hn
        obtain ⟨below, -, hcheck⟩ := hitems x hx
        exact (ih x hx hcheck).2 n hn
    | record fs ih =>
      rw [checkSpelling_record] at h
      rw [filled_record, integers_record]
      exact ih h
  exact not_obstacle hfree.1 hfree.2

/-- A value is spelled as it is shown and nothing is in the way, or something is. -/
theorem spell_cases (d : Json) :
    (d.spell = .ok d.shown ∧ ∀ e, ¬d.Obstacle maxLevels .value e) ∨
      ∃ e, d.Obstacle maxLevels .value e ∧ d.spell = .error e := by
  unfold spell
  cases h : d.checkSpelling maxLevels with
  | ok _ => exact .inl ⟨rfl, fun _ => not_obstacle_of_checkSpelling h⟩
  | error e => exact .inr ⟨e, obstacle_of_checkSpelling h, rfl⟩

/-- A value that is spelled is spelled as it is shown. -/
theorem eq_shown_of_spell {text : String} (h : d.spell = .ok text) : text = d.shown := by
  rcases spell_cases d with ⟨hspell, -⟩ | ⟨e, -, hspell⟩
  · exact Except.ok.inj (h.symm.trans hspell)
  · cases h.symm.trans hspell

/-- A value stands for a text if it is that text or is spelled so. -/
theorem asText_eq_ok {t : Text} (h : d.asText = .ok t) :
    d = .text t ∨ (∀ u, d ≠ .text u) ∧ t = Text.ofString d.shown := by
  unfold asText at h
  split at h
  next u => exact .inl (congrArg _ (congrArg _ (Except.ok.inj h)))
  next hne =>
    cases hspell : d.spell with
    | error e =>
      rw [hspell] at h
      cases h
    | ok text =>
      rw [hspell] at h
      obtain rfl := Except.ok.inj h
      exact .inr ⟨hne, congrArg _ (eq_shown_of_spell hspell)⟩

/-- Where a value stands for no text, something is in the way of spelling it. -/
theorem obstacle_of_asText (h : d.asText = .error e) : d.Obstacle maxLevels .value e := by
  unfold asText at h
  split at h
  · cases h
  · rcases spell_cases d with ⟨hspell, -⟩ | ⟨e', hobstacle, hspell⟩
    · rw [hspell] at h
      cases h
    · rw [hspell] at h
      obtain rfl := Except.error.inj h
      exact hobstacle

end Json

end Landscape
