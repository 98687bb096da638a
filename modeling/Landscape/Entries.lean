/-!
# Entries in order of first insertion

A list of keys with values that keeps the order in which the keys came: a key that comes again keeps
its place. Main statements: what a key has after an entry is put or added, and that keys stay
distinct.
-/

namespace Landscape.Entries

variable {κ α : Type} [BEq κ]

/-- Give a key a value: a present key keeps its place, a new one goes to the end. -/
def put (entries : List (κ × α)) (key : κ) (value : α) : List (κ × α) :=
  match entries with
  | [] => [(key, value)]
  | (k, v) :: rest => if k == key then (k, value) :: rest else (k, v) :: put rest key value

/-- Give a key a value unless it has one. -/
def add (entries : List (κ × α)) (key : κ) (value : α) : List (κ × α) :=
  if (entries.lookup key).isSome then entries else entries ++ [(key, value)]

/-- Change the value of a key, which starts from `initial`. -/
def alter (entries : List (κ × α)) (key : κ) (initial : α) (change : α → α) : List (κ × α) :=
  put entries key (change ((entries.lookup key).getD initial))

/-- The keys of entries. -/
def keys (entries : List (κ × α)) : List κ := entries.map Prod.fst

/-- An added entry brings its key, at the end. -/
theorem keys_add (entries : List (κ × α)) (key : κ) (value : α) :
    keys (add entries key value) =
      if (entries.lookup key).isSome then keys entries else keys entries ++ [key] := by
  unfold add
  split
  · rfl
  · simp [keys]

variable [LawfulBEq κ]

/-- A key has the value that it was given last. -/
@[simp] theorem lookup_put_self (entries : List (κ × α)) (key : κ) (value : α) :
    (put entries key value).lookup key = some value := by
  induction entries with
  | nil => simp [put]
  | cons e rest ih =>
    obtain ⟨k, v⟩ := e
    by_cases h : k = key
    · simp [put, h]
    · have hk : (key == k) = false := beq_eq_false_iff_ne.2 (Ne.symm h)
      simp [put, h, List.lookup_cons, ih, hk]

/-- Putting an entry changes no other key. -/
theorem lookup_put_of_ne (entries : List (κ × α)) {key other : κ} (value : α) (h : other ≠ key) :
    (put entries key value).lookup other = entries.lookup other := by
  have ho : (other == key) = false := beq_eq_false_iff_ne.2 h
  induction entries with
  | nil => simp [put, List.lookup_cons, ho]
  | cons e rest ih =>
    obtain ⟨k, v⟩ := e
    by_cases hk : k = key
    · simp [put, hk, List.lookup_cons, ho]
    · simp [put, hk, List.lookup_cons, ih]

/-- An added entry counts only for a key that had none. -/
theorem lookup_add_self (entries : List (κ × α)) (key : κ) (value : α) :
    (add entries key value).lookup key = some ((entries.lookup key).getD value) := by
  unfold add
  cases h : entries.lookup key with
  | none => simp [List.lookup_append, h]
  | some v => simp [h]

/-- Adding an entry changes no other key. -/
theorem lookup_add_of_ne (entries : List (κ × α)) {key other : κ} (value : α) (h : other ≠ key) :
    (add entries key value).lookup other = entries.lookup other := by
  have ho : (other == key) = false := beq_eq_false_iff_ne.2 h
  unfold add
  split
  · rfl
  · simp [List.lookup_append, List.lookup_cons, ho]

/-- After some entries were added in a row, a key has the value it had before, and else that of the
first entry that was added for it. -/
theorem lookup_foldl_add {β : Type} (items : List β) (key : β → κ) (value : β → α)
    (entries : List (κ × α)) (k : κ) :
    (items.foldl (fun entries b => add entries (key b) (value b)) entries).lookup k =
      (entries.lookup k).or ((items.find? (key · == k)).map value) := by
  induction items generalizing entries with
  | nil => simp
  | cons b items ih =>
    rw [List.foldl_cons, ih, List.find?_cons]
    by_cases h : k = key b
    · subst h
      rw [lookup_add_self, beq_self_eq_true]
      cases entries.lookup (key b) <;> rfl
    · rw [lookup_add_of_ne _ _ h, beq_eq_false_iff_ne.2 (Ne.symm h)]

/-- A key has a value exactly when it is among the keys. -/
theorem lookup_isSome_iff (entries : List (κ × α)) (key : κ) :
    (entries.lookup key).isSome ↔ key ∈ keys entries := by
  simp [keys, List.lookup_isSome_iff]

/-- An entry that is put brings its key in the same way. -/
theorem keys_put (entries : List (κ × α)) (key : κ) (value : α) :
    keys (put entries key value) =
      if (entries.lookup key).isSome then keys entries else keys entries ++ [key] := by
  induction entries with
  | nil => simp [put, keys]
  | cons e rest ih =>
    obtain ⟨k, v⟩ := e
    by_cases h : k = key
    · simp [put, keys, h]
    · have hk : (key == k) = false := beq_eq_false_iff_ne.2 (Ne.symm h)
      have hp : keys (put ((k, v) :: rest) key value) = k :: keys (put rest key value) := by
        simp [put, keys, h]
      rw [hp, ih, List.lookup_cons, hk]
      split <;> simp [keys]

/-- An added entry brings its key and no other one. -/
theorem mem_keys_add {entries : List (κ × α)} {key k : κ} {value : α} :
    k ∈ keys (add entries key value) ↔ k ∈ keys entries ∨ k = key := by
  rw [keys_add]
  split
  next h =>
    refine ⟨.inl, fun hk => hk.elim id ?_⟩
    rintro rfl
    exact (lookup_isSome_iff entries k).mp h
  · rw [List.mem_append, List.mem_singleton]

/-- An entry that is put brings its key and no other one. -/
theorem mem_keys_put {entries : List (κ × α)} {key k : κ} {value : α} :
    k ∈ keys (put entries key value) ↔ k ∈ keys entries ∨ k = key := by
  rw [keys_put, ← keys_add entries key value, mem_keys_add]

/-- A new key goes to the end. -/
theorem put_of_notMem {entries : List (κ × α)} {key : κ} (h : key ∉ keys entries) (value : α) :
    put entries key value = entries ++ [(key, value)] := by
  induction entries with
  | nil => rfl
  | cons e rest ih =>
    obtain ⟨k, v⟩ := e
    obtain ⟨hk, hrest⟩ := not_or.1 (mt List.mem_cons.2 h)
    have hne : (k == key) = false := beq_eq_false_iff_ne.2 (Ne.symm hk)
    rw [put, hne, ih hrest]
    rfl

/-- An entry after one was put is that one or was there before. -/
theorem mem_put {entries : List (κ × α)} {key : κ} {value : α} {e : κ × α}
    (h : e ∈ put entries key value) : e = (key, value) ∨ e ∈ entries := by
  induction entries with
  | nil => exact .inl (List.mem_singleton.1 h)
  | cons e' rest ih =>
    obtain ⟨k, v⟩ := e'
    rw [put] at h
    split at h
    next hk =>
      rcases List.mem_cons.1 h with rfl | hrest
      · exact .inl (by rw [LawfulBEq.eq_of_beq hk])
      · exact .inr (List.mem_cons_of_mem _ hrest)
    · rcases List.mem_cons.1 h with rfl | hrest
      · exact .inr List.mem_cons_self
      · exact (ih hrest).imp_right (List.mem_cons_of_mem _)

/-- Keys stay distinct when an entry is added. -/
theorem nodup_keys_add {entries : List (κ × α)} (h : (keys entries).Nodup) (key : κ) (value : α) :
    (keys (add entries key value)).Nodup := by
  rw [keys_add]
  split
  · exact h
  · rename_i hk
    rw [lookup_isSome_iff] at hk
    rw [List.nodup_append]
    refine ⟨h, by simp, ?_⟩
    rintro k hmem _ hlast rfl
    rw [List.mem_singleton] at hlast
    exact hk (hlast ▸ hmem)

/-- Keys stay distinct when an entry is put. -/
theorem nodup_keys_put {entries : List (κ × α)} (h : (keys entries).Nodup) (key : κ) (value : α) :
    (keys (put entries key value)).Nodup := by
  rw [keys_put, ← keys_add entries key value]
  exact nodup_keys_add h key value

end Landscape.Entries
