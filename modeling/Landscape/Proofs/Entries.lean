import Landscape.Entries
import Mathlib.Data.List.Induction

/-!
# Entries that are given in a row

A key that entries are put for has the last of their values, and keys stand in the order in which
they came first.
-/

namespace Landscape.Entries

variable {κ α β : Type} [BEq κ] [LawfulBEq κ]

/-- After some entries were put in a row, a key has the value of the last one that was put for it,
and else the value it had before. -/
theorem lookup_foldl_put (items : List β) (key : β → κ) (value : β → α) (entries : List (κ × α))
    (k : κ) :
    (items.foldl (fun entries b => put entries (key b) (value b)) entries).lookup k =
      (((items.filter (key · == k)).getLast?).map value).or (entries.lookup k) := by
  induction items using List.reverseRecOn with
  | nil => rfl
  | append_singleton items b ih =>
    rw [List.foldl_append, List.foldl_cons, List.foldl_nil, List.filter_append]
    by_cases h : key b = k
    · subst h
      simp
    · rw [lookup_put_of_ne _ _ (Ne.symm h), ih]
      simp [h]

/-- Entries that are added in a row bring their keys, each where it comes first. -/
theorem keys_foldl_add (items : List β) (key : β → κ) (value : β → α) (entries : List (κ × α)) :
    keys (items.foldl (fun entries b => add entries (key b) (value b)) entries) =
      keys entries ++ ((items.map key).filter fun k => !(keys entries).contains k).eraseDups := by
  induction items generalizing entries with
  | nil => simp
  | cons b items ih =>
    rw [List.foldl_cons, ih, keys_add, List.map_cons]
    by_cases h : key b ∈ keys entries
    · rw [if_pos ((lookup_isSome_iff entries (key b)).mpr h),
        List.filter_cons_of_neg (by simpa using h)]
    · have hfresh (k : κ) : (!(keys entries ++ [key b]).contains k) =
          ((!k == key b) && !(keys entries).contains k) := by
        rw [Bool.eq_iff_iff]
        simp [and_comm]
      rw [if_neg (mt (lookup_isSome_iff entries (key b)).mp h),
        List.filter_cons_of_pos (by simpa using h), List.eraseDups_cons, List.append_assoc,
        List.singleton_append, List.filter_filter]
      simp only [hfresh]

/-- Where keys are distinct, the value of each entry is the one that its key has. -/
theorem lookup_eq_some_of_mem {entries : List (κ × α)} (h : (keys entries).Nodup) {k : κ} {v : α}
    (hmem : (k, v) ∈ entries) : entries.lookup k = some v := by
  obtain ⟨before, after, rfl⟩ := List.append_of_mem hmem
  refine List.lookup_eq_some_iff.mpr ⟨before, after, rfl, fun e he => ?_⟩
  rw [keys, List.map_append, List.map_cons, List.nodup_append] at h
  exact bne_iff_ne.mpr
    (h.2.2 e.1 (List.mem_map_of_mem he) k List.mem_cons_self).symm

end Landscape.Entries
