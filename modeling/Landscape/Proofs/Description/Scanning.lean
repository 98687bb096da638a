import Landscape.Proofs.Description.Reading

/-!
# Descriptions are scanned as the grammar has them

A scan remembers one bit about what it has passed: whether it is at the beginning of a line. That is
enough, for a statement ends within a line, so that the next one begins further on.
-/

namespace Landscape.Description

open Landscape.Text

variable {α : Type} {statement? : Text → Option (α × Text)} {Statement : Text → α → Text → Prop}
  {t : Text}

/-- Behind a symbol a line begins when the symbol is a line feed. -/
theorem atLineStart_succ {cursor : Nat} {s : Symbol} (hs : t[cursor]? = some s) :
    (s == .char '\n') = true ↔ AtLineStart t (cursor + 1) := by
  rw [AtLineStart, Nat.add_sub_cancel, hs, Option.some.injEq, beq_iff_eq]
  exact (or_iff_right (Nat.succ_ne_zero cursor)).symm

/-- What ends within a line leaves less of the text, and no line begins there. -/
theorem EndsInLine.place {cursor : Nat} {rest : Text} (h : EndsInLine (t.drop cursor) rest) :
    rest.length < (t.drop cursor).length ∧ t.drop (t.length - rest.length) = rest ∧
      ¬AtLineStart t (t.length - rest.length) := by
  obtain ⟨used, last, heq, hlast⟩ := h
  have ht : t = (t.take cursor ++ used) ++ last :: rest := by
    rw [List.append_assoc, ← heq, List.take_append_drop]
  generalize t.take cursor ++ used = passed at ht
  have hplace : t.length - rest.length = passed.length + 1 := by
    rw [ht, List.length_append, List.length_cons]
    omega
  rw [hplace, heq]
  refine ⟨by rw [List.length_append, List.length_cons]; omega, ?_, ?_⟩
  · rw [ht, List.append_cons, List.drop_left' (by simp)]
  · rintro (hzero | hfeed)
    · exact Nat.succ_ne_zero _ hzero
    · rw [Nat.add_sub_cancel, ht, List.getElem?_append_right (Nat.le_refl _), Nat.sub_self] at hfeed
      exact hlast (Option.some.inj hfeed)

/-- Where no statement stands the scan may as well begin behind it. -/
theorem Scans.of_succ {cursor : Nat} {found : List α} (hnone : NoneAt Statement t cursor)
    (h : Scans Statement t (cursor + 1) found) : Scans Statement t cursor found := by
  cases h with
  | done h =>
    refine .done fun place hle => ?_
    rcases Nat.eq_or_lt_of_le hle with rfl | hlt
    · exact hnone
    · exact h place hlt
  | next hle hstart ha hfirst hfound =>
    refine .next (by omega) hstart ha (fun earlier hearlier hlt => ?_) hfound
    rcases Nat.eq_or_lt_of_le hearlier with rfl | hlater
    · exact hnone
    · exact hfirst earlier hlater hlt

/-- There is one scan of a text from a place on. -/
theorem Scans.unique (hreads : Reads statement? Statement) {cursor : Nat} {found found' : List α}
    (h : Scans Statement t cursor found) (h' : Scans Statement t cursor found') :
    found = found' := by
  induction h generalizing found' with
  | done hnone =>
    cases h' with
    | done _ => rfl
    | next hle hstart ha _ _ => exact absurd ha (hnone _ hle hstart _ _)
  | @next _ place _ _ _ hle hstart ha hfirst _ ih =>
    cases h' with
    | done hnone => exact absurd ha (hnone _ hle hstart _ _)
    | @next _ place' _ _ _ hle' hstart' ha' hfirst' hfound' =>
      -- Each place is the first one, so neither comes before the other.
      rcases Nat.lt_trichotomy place place' with hlt | rfl | hgt
      · exact absurd ha (hfirst' _ hle hlt hstart _ _)
      · have heq := (hreads.eq_some_iff.mpr ha).symm.trans (hreads.eq_some_iff.mpr ha')
        obtain ⟨rfl, rfl⟩ := Prod.mk.inj (Option.some.inj heq)
        rw [ih hfound']
      · exact absurd ha' (hfirst _ hle' hgt hstart' _ _)

/-- The scan from a place on, when it is told whether a line begins there. -/
theorem scans_scan (hreads : Reads statement? Statement) (t : Text) (cursor : Nat)
    (atLineStart : Bool) (hflag : atLineStart = true ↔ AtLineStart t cursor) :
    Scans Statement t cursor (scan statement? atLineStart (t.drop cursor)) := by
  induction hlength : (t.drop cursor).length using Nat.strongRecOn
    generalizing cursor atLineStart with
  | _ length ih =>
    cases ht : t.drop cursor with
    | nil =>
      rw [scan]
      refine .done fun place hle _ a rest ha => ?_
      have hend := (hreads.endsInLine ha).place.1
      have hover := List.drop_eq_nil_iff.mp ht
      rw [List.length_drop] at hend
      omega
    | cons s tail =>
      have hs : t[cursor]? = some s := by rw [← List.head?_drop, ht, List.head?_cons]
      have htail : t.drop (cursor + 1) = tail := by rw [← List.tail_drop, ht, List.tail_cons]
      rw [ht, List.length_cons] at hlength
      rw [scan]
      split
      next hnone =>
        have hnoneAt : NoneAt Statement t cursor := by
          intro hstart a rest ha
          rw [if_pos (hflag.mpr hstart), ← ht, hreads.eq_some_iff.mpr ha] at hnone
          cases hnone
        rw [← htail] at hlength ⊢
        exact (ih _ (by omega) (cursor + 1) _ (atLineStart_succ hs) rfl).of_succ hnoneAt
      next a rest hsome =>
        rw [Option.ite_none_right_eq_some, ← ht] at hsome
        have ha := hreads.eq_some_iff.mp hsome.2
        obtain ⟨hshorter, hrest, hstart⟩ := (hreads.endsInLine ha).place
        rw [ht, List.length_cons] at hshorter
        rw [if_pos (by omega)]
        have hfound := ih _ (by rw [hrest]; omega) (t.length - rest.length) false
          (by simpa using hstart) rfl
        rw [hrest] at hfound
        exact .next (Nat.le_refl _) (hflag.mp hsome.1) ha
          (fun earlier hle hlt => absurd hlt (Nat.not_lt.mpr hle)) hfound

/-- A scan finds the statements of the grammar, and these only. -/
theorem eq_scan_iff (hreads : Reads statement? Statement) (t : Text) (found : List α) :
    found = scan statement? true t ↔ Scans Statement t 0 found := by
  have hscan := scans_scan hreads t 0 true (by simp [AtLineStart])
  rw [List.drop_zero] at hscan
  exact ⟨fun h => h ▸ hscan, fun h => h.unique hreads hscan⟩

/-- Every keyword is a word. -/
theorem isWord_keyword (kind : Kind) : IsWord (keyword kind).1 := by
  cases kind <;> exact ⟨by decide, by decide⟩

/-- The declarations of a kind are those of the grammar. -/
theorem eq_declarations_iff (kind : Kind) (t : Text) (ds : List Declaration) :
    ds = declarations kind t ↔
      Scans (IsDeclaration (keyword kind).1 (keyword kind).2) t 0 ds :=
  eq_scan_iff (reads_declaration (isWord_keyword kind) _) t ds

/-- The relations are those of the grammar. -/
theorem eq_arrows_iff (t : Text) (as : List Arrow) : as = arrows t ↔ Scans IsArrow t 0 as :=
  eq_scan_iff reads_arrow t as

/-- Whatever all statements in a text have, all that a scan takes have. -/
theorem Scans.forall_mem {P : α → Prop}
    (hP : ∀ place a rest, Statement (t.drop place) a rest → P a)
    {cursor : Nat} {found : List α} (h : Scans Statement t cursor found) : ∀ a ∈ found, P a := by
  induction h with
  | done _ => exact fun a ha => absurd ha List.not_mem_nil
  | next _ _ ha _ _ ih => exact List.forall_mem_cons.mpr ⟨hP _ _ _ ha, ih⟩

/-- A declaration whose kind has no technology names none. -/
theorem IsDeclaration.technology_eq_none {keyword t rest : Text} {d : Declaration}
    (h : IsDeclaration keyword false t d rest) : d.technology = none := by
  cases h with
  | mk _ _ _ _ _ htechnology => exact htechnology.1

/-- The elements of a kind without technologies, written out. -/
theorem map_toElement_of_scans {keyword : Text} {ds : List Declaration}
    (h : Scans (IsDeclaration keyword false) t 0 ds) (kind : Kind) :
    ds.map (Declaration.toElement kind) = ds.map fun d => { id := d.id, name := d.name, kind } := by
  refine List.map_congr_left fun d hd => ?_
  have hnone := h.forall_mem (fun _ _ _ hd => hd.technology_eq_none) d hd
  rw [Declaration.toElement, hnone, Option.map_none]

/--
A description amounts to the statements that its grammar finds in it: for each sort of statement the
leftmost ones that do not overlap, and nothing else. The model lists the elements by kind and has
the relations as they stand.
-/
theorem parse_eq_grammar (t : Text) :
    (∀ kind ds, ds = declarations kind t ↔
      Scans (IsDeclaration (keyword kind).1 (keyword kind).2) t 0 ds) ∧
    (∀ as, as = arrows t ↔ Scans IsArrow t 0 as) ∧
    ∃ containers components persons systems as,
      Scans (IsDeclaration "container" true) t 0 containers ∧
      Scans (IsDeclaration "component" true) t 0 components ∧
      Scans (IsDeclaration "person" false) t 0 persons ∧
      Scans (IsDeclaration "system" false) t 0 systems ∧
      Scans IsArrow t 0 as ∧
      parse t =
        { elements :=
            (containers.map fun d =>
              { id := d.id, name := d.name, kind := .container
                technology := d.technology.map .text, description := none, position := none }) ++
            (components.map fun d =>
              { id := d.id, name := d.name, kind := .component
                technology := d.technology.map .text, description := none, position := none }) ++
            (persons.map fun d =>
              { id := d.id, name := d.name, kind := .person
                technology := none, description := none, position := none }) ++
            (systems.map fun d =>
              { id := d.id, name := d.name, kind := .system
                technology := none, description := none, position := none })
          relations := as.map fun a =>
            { source := a.source, target := a.target, label := a.label.map .text, weight := 1.0 }
          matrix := none } := by
  refine ⟨fun kind => eq_declarations_iff kind t, eq_arrows_iff t, declarations .container t,
    declarations .component t, declarations .person t, declarations .system t, arrows t,
    (eq_declarations_iff .container t _).mp rfl, (eq_declarations_iff .component t _).mp rfl,
    (eq_declarations_iff .person t _).mp rfl, (eq_declarations_iff .system t _).mp rfl,
    (eq_arrows_iff t _).mp rfl, ?_⟩
  have hpersons := map_toElement_of_scans ((eq_declarations_iff .person t _).mp rfl) .person
  have hsystems := map_toElement_of_scans ((eq_declarations_iff .system t _).mp rfl) .system
  rw [← hpersons, ← hsystems]
  simp only [parse, kindOrder, List.flatMap_cons, List.flatMap_nil, List.append_nil,
    List.append_assoc]
  rfl

end Landscape.Description
