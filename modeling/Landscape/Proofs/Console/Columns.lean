import Landscape.Console
import Landscape.Proofs.Text.Colours
import Mathlib.Data.List.Forall2

/-!
# Columns

A row of a table shows its cells in full, one after the other, each of them filled with blanks up to
the separator behind it. The columns are measured with every symbol of their cells, colour sequences
among them. So all separators of a column stand at the same place of their lines as they are printed,
and stand apart in what is seen of them where more symbols are not seen of one line than of another.
-/

namespace Landscape

namespace Console

open Text (unseen)

variable {widths offsets offsets' : List Nat} {cells : List Text} {row : Text}

/-- A text shows cells in full, one after the other. Each of them is filled with blanks, and a
separator stands behind it at its offset; only the last one has none. -/
inductive Columns : (offsets : List Nat) → (cells : List Text) → (row : Text) → Prop
  | last (cell : Text) (blanks : Nat) : Columns [] [cell] (cell ++ rule ' ' blanks)
  | cons {offsets : List Nat} {cells : List Text} {rest : Text} (cell : Text) (blanks : Nat)
    (h : Columns offsets cells rest) :
    Columns ((cell.length + blanks) :: offsets.map (cell.length + blanks + 3 + ·)) (cell :: cells)
      (cell ++ rule ' ' blanks ++ " | " ++ rest)

theorem length_rule (c : Char) (n : Nat) : (rule c n).length = n := List.length_replicate

theorem not_mem_rule {s : Symbol} {c : Char} (h : s ≠ .char c) (n : Nat) : s ∉ rule c n :=
  fun hmem => h (List.eq_of_mem_replicate hmem)

namespace Columns

/-- A separator stands at each of the offsets. -/
theorem separator_at (h : Columns offsets cells row) {o : Nat} (ho : o ∈ offsets) :
    (row.drop o).take 3 = " | " := by
  induction h generalizing o with
  | last cell blanks => exact absurd ho List.not_mem_nil
  | @cons offsets cells rest cell blanks h ih =>
    have hlength : (cell ++ rule ' ' blanks).length = cell.length + blanks := by
      rw [List.length_append, length_rule]
    rcases List.mem_cons.mp ho with rfl | ho
    · rw [← hlength, List.append_assoc, List.drop_left]
      rfl
    · obtain ⟨o', ho', rfl⟩ := List.mem_map.mp ho
      have hopen : cell.length + blanks + 3 + o' =
          (cell ++ rule ' ' blanks ++ (" | " : Text)).length + o' := by
        rw [List.length_append, hlength]
        rfl
      rw [hopen, List.drop_length_add_append]
      exact ih ho'

/-- Each cell but the last has a separator. -/
theorem length_offsets (h : Columns offsets cells row) : offsets.length + 1 = cells.length := by
  induction h with
  | last cell blanks => rfl
  | cons cell blanks h ih => rw [List.length_cons, List.length_map, ih, List.length_cons]

/-- The blanks between a cell and the separator behind it can be told from the separator. -/
theorem eq_of_rule_append {n n' : Nat} {rest rest' : Text}
    (h : rule ' ' n ++ (" | " ++ rest) = rule ' ' n' ++ (" | " ++ rest')) : n = n' ∧ rest = rest' := by
  induction n generalizing n' with
  | zero =>
    cases n' with
    | zero => exact ⟨rfl, List.append_cancel_left h⟩
    | succ n' =>
      have hsecond := congrArg (fun t : Text => t[1]?) h
      cases n' with
      | zero => cases hsecond
      | succ n' => cases hsecond
  | succ n ih =>
    cases n' with
    | zero =>
      have hsecond := congrArg (fun t : Text => t[1]?) h
      cases n with
      | zero => cases hsecond
      | succ n => cases hsecond
    | succ n' =>
      obtain ⟨rfl, hrest⟩ := ih (List.cons.inj h).2
      exact ⟨rfl, hrest⟩

/-- The offsets at which a text shows cells are the only ones. -/
theorem unique (h : Columns offsets cells row) (h' : Columns offsets' cells row) :
    offsets = offsets' := by
  induction h generalizing offsets' with
  | last cell blanks =>
    generalize cell ++ rule ' ' blanks = row at h'
    cases h' with
    | last => rfl
    | cons _ _ hnil => cases hnil
  | @cons offsets cells rest cell blanks h ih =>
    generalize hrow : cell ++ rule ' ' blanks ++ " | " ++ rest = row at h'
    cases h' with
    | last => cases h
    | cons _ blanks' h' =>
      rw [List.append_assoc, List.append_assoc, List.append_assoc, List.append_assoc] at hrow
      obtain ⟨rfl, rfl⟩ := eq_of_rule_append (List.append_cancel_left hrow)
      rw [ih h']

/-- What is neither in the cells nor between them is not in the text. -/
theorem not_mem (h : Columns offsets cells row) {s : Symbol} (hs : s ∉ (" | " : Text))
    (hcells : ∀ cell ∈ cells, s ∉ cell) : s ∉ row := by
  have hblank : s ≠ .char ' ' := fun heq => hs (heq ▸ List.mem_cons_self)
  induction h with
  | last cell blanks =>
    rw [List.mem_append, not_or]
    exact ⟨hcells cell List.mem_cons_self, not_mem_rule hblank blanks⟩
  | cons cell blanks h ih =>
    rw [List.forall_mem_cons] at hcells
    simp only [List.mem_append, not_or]
    exact ⟨⟨⟨hcells.1, not_mem_rule hblank blanks⟩, hs⟩, ih hcells.2⟩

end Columns

/-- How many symbols are not seen before the end of each cell. -/
def unseenBefore : List Text → List Nat
  | [] => []
  | cell :: cells => unseen cell :: (unseenBefore cells).map (unseen cell + ·)

/-- What is seen of a text that shows cells shows what is seen of the cells. A separator stands to
the left of where it stood by as many symbols as are not seen before it. -/
theorem Columns.uncoloured (h : Columns offsets cells row) :
    ∃ seen, Columns seen (cells.map Text.uncoloured) row.uncoloured ∧
      seen.zipWith (· + ·) (unseenBefore cells) = offsets := by
  have hrule (n : Nat) (s : Symbol) (hs : s ∈ (rule ' ' n).head?) : Text.goesOn s = false := by
    rw [List.eq_of_mem_replicate (List.mem_of_mem_head? hs)]
    rfl
  have hblanks (n : Nat) : (rule ' ' n).uncoloured = rule ' ' n :=
    Text.uncoloured_of_not_mem (not_mem_rule (by decide) n)
  induction h with
  | last cell blanks =>
    refine ⟨[], ?_, rfl⟩
    rw [Text.uncoloured_append (hrule blanks), hblanks]
    exact .last _ blanks
  | @cons offsets cells rest cell blanks h ih =>
    obtain ⟨seen, hseen, rfl⟩ := ih
    have hrow : (cell ++ rule ' ' blanks ++ " | " ++ rest).uncoloured =
        cell.uncoloured ++ rule ' ' blanks ++ " | " ++ rest.uncoloured := by
      have hbehind : (" | " ++ rest : Text).uncoloured = " | " ++ rest.uncoloured :=
        Text.uncoloured_append_of_not_mem (by decide) rest
      rw [List.append_assoc, Text.uncoloured_append (by rintro s ⟨⟩; rfl), hbehind,
        Text.uncoloured_append (hrule blanks), hblanks, ← List.append_assoc]
    refine ⟨_, by rw [hrow]; exact .cons cell.uncoloured blanks hseen, ?_⟩
    have hlength := Text.length_uncoloured_add_unseen cell
    rw [unseenBefore, List.zipWith_cons_cons]
    congr 1
    · omega
    · rw [List.zipWith_map, List.map_zipWith]
      congr 1
      funext o n
      omega

/-- Columns are wide enough for cells. -/
def Fits (widths : List Nat) (cells : List Text) : Prop :=
  List.Forall₂ (fun width cell => cell.length ≤ width) widths cells

/-- Where the separators stand between columns of some widths. -/
def separators : List Nat → List Nat
  | width :: next :: widths => width :: (separators (next :: widths)).map (width + 3 + ·)
  | _ => []

/-- Where a column is added, its cells and those of the columns there were are shown. -/
theorem columns_tableRow (h : Fits widths cells) (hne : cells ≠ []) :
    Columns (separators widths) cells (tableRow widths cells) := by
  induction h with
  | nil => exact absurd rfl hne
  | @cons width cell widths cells hle hfits ih =>
    cases hfits with
    | nil =>
      simpa [separators, tableRow, Text.joinWith, padRight] using
        Columns.last cell (width - cell.length)
    | @cons width' cell' widths cells hle' hfits =>
      have hcolumns := Columns.cons cell (width - cell.length) (ih (List.cons_ne_nil _ _))
      rw [Nat.add_sub_of_le hle] at hcolumns
      simpa only [separators, tableRow, Text.joinWith, List.zipWith_cons_cons,
        List.intercalate_cons_cons, padRight] using hcolumns

theorem length_widen (widths : List Nat) (cells : List Text) :
    (widen widths cells).length = widths.length := by
  induction widths generalizing cells with
  | nil => rfl
  | cons width widths ih =>
    cases cells with
    | nil => rfl
    | cons cell cells => exact congrArg Nat.succ (ih cells)

/-- Widened columns are wide enough for what they were widened for. -/
theorem fits_widen (h : widths.length = cells.length) : Fits (widen widths cells) cells := by
  induction widths generalizing cells with
  | nil =>
    obtain rfl := List.length_eq_zero_iff.mp h.symm
    exact .nil
  | cons width widths ih =>
    cases cells with
    | nil => cases h
    | cons cell cells => exact .cons (Nat.le_max_right _ _) (ih (Nat.succ.inj h))

/-- Widened columns are wide enough for what they were wide enough for. -/
theorem Fits.widen (h : Fits widths cells) (others : List Text) :
    Fits (widen widths others) cells := by
  induction h generalizing others with
  | nil => exact .nil
  | cons hle hfits ih =>
    cases others with
    | nil => exact .cons hle hfits
    | cons other others => exact .cons (Nat.le_trans hle (Nat.le_max_left _ _)) (ih others)

/-- Columns that were widened for rows are wide enough for them, and for what they were wide enough
for. -/
theorem fits_foldl_widen {rows : List (List Text)} (h : ∀ row ∈ rows, row.length = widths.length) :
    (∀ cells, Fits widths cells → Fits (rows.foldl widen widths) cells) ∧
      ∀ row ∈ rows, Fits (rows.foldl widen widths) row := by
  induction rows generalizing widths with
  | nil => exact ⟨fun _ hfits => hfits, List.forall_mem_nil _⟩
  | cons first rows ih =>
    rw [List.forall_mem_cons] at h
    obtain ⟨hkept, hrows⟩ := @ih (widen widths first) (by rw [length_widen]; exact h.2)
    exact ⟨fun cells hfits => hkept cells (hfits.widen first),
      List.forall_mem_cons.mpr ⟨hkept first (fits_widen h.1.symm), hrows⟩⟩

/-- The columns of a table are wide enough for its heading and its rows. -/
theorem fits_columnWidths {headers : List Text} {rows : List (List Text)}
    (h : ∀ row ∈ rows, row.length = headers.length) :
    Fits (columnWidths headers rows) headers ∧ ∀ row ∈ rows, Fits (columnWidths headers rows) row := by
  have hheaders : Fits (headers.map List.length) headers := by
    rw [Fits, List.forall₂_map_left_iff, List.forall₂_same]
    exact fun _ _ => Nat.le_refl _
  obtain ⟨hkept, hrows⟩ := @fits_foldl_widen (headers.map List.length) rows
    (by rw [List.length_map]; exact h)
  exact ⟨hkept headers hheaders, hrows⟩

/-- A table with rows as long as its heading shows all of them at the same offsets. -/
theorem table_eq {headers : List Text} {rows : List (List Text)} (color : Bool)
    (hheaders : headers ≠ []) (hrows : rows ≠ []) (h : ∀ row ∈ rows, row.length = headers.length) :
    ∃ offsets top texts,
      table color headers rows =
        .ok (lines (inked color top [.bold] :: rule '-' top.length :: texts)) ∧
      Columns offsets headers top ∧ List.Forall₂ (Columns offsets) rows texts := by
  obtain ⟨hfits, hfitsRows⟩ := fits_columnWidths h
  refine ⟨separators (columnWidths headers rows), tableRow (columnWidths headers rows) headers,
    rows.map (tableRow (columnWidths headers rows)), ?_, columns_tableRow hfits hheaders, ?_⟩
  · have hlong : (rows.any fun row => headers.length < row.length) = false := by
      rw [List.any_eq_false]
      exact fun row hrow hlt => absurd (h row hrow) (Nat.ne_of_gt (of_decide_eq_true hlt))
    rw [table, List.isEmpty_eq_false_iff.mpr hheaders, List.isEmpty_eq_false_iff.mpr hrows, hlong]
    exact congrArg Except.ok (List.append_assoc _ _ _)
  · rw [List.forall₂_map_right_iff, List.forall₂_same]
    intro row hrow
    have hne : row ≠ [] := by
      rintro rfl
      exact hheaders (List.length_eq_zero_iff.mp (h [] hrow).symm)
    exact columns_tableRow (hfitsRows row hrow) hne

end Console

end Landscape
