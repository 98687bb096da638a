import Landscape.Proofs.Description.Lines

/-!
# Descriptions are read line by line, up to statements that cross a line feed

Blanks include line ends and a quoted text may hold them, so that a statement can begin in one line
and end in another: a quote that is left open, an arrow or a keyword at the end of a line, a quoted
text at the beginning of one. A line feed that no statement crosses separates what stands before it
from what follows, and where none is crossed a description amounts to its lines, each read alone.
-/

namespace Landscape.Description

open Landscape.Text

variable {α : Type} {statement? : Text → Option (α × Text)} {Statement : Text → α → Text → Prop}
  {t rest before after : Text}

/-- The lines of a text, separated by line feeds. -/
def lines (t : Text) : List Text := t.splitOn (.char '\n')

/-- What texts describe, each read alone, merged: the elements by kind and those of one kind by
text, the relations by text. -/
def merged (texts : List Text) : Model where
  elements := kindOrder.flatMap fun kind =>
    texts.flatMap fun t => (parse t).elements.filter (·.kind = kind)
  relations := texts.flatMap fun t => (parse t).relations

instance (t : Text) (place : Nat) : Decidable (AtLineStart t place) :=
  inferInstanceAs (Decidable (place = 0 ∨ t[place - 1]? = some (.char '\n')))

/-- A statement crosses the line feed between two texts: it begins in a line of the first, blanks
before it apart, and takes more than what is left of that text. -/
def Crosses (statement? : Text → Option (α × Text)) (before after : Text) : Prop :=
  ∃ place < before.length, AtLineStart before place ∧ ¬IsBlanks (before.drop place) ∧
    ∃ found ∈ statement? (before.drop place ++ .char '\n' :: after),
      found.2.length ≤ after.length

instance (before after : Text) : Decidable (Crosses statement? before after) :=
  inferInstanceAs (Decidable (∃ place < before.length, AtLineStart before place ∧
    ¬IsBlanks (before.drop place) ∧
      ∃ found ∈ statement? (before.drop place ++ .char '\n' :: after),
        found.2.length ≤ after.length))

/-- The line feed between two texts is crossed by a declaration or by a relation. -/
def Crossed (before after : Text) : Prop :=
  (∃ kind ∈ kindOrder, Crosses (declaration? (keyword kind).1 (keyword kind).2) before after) ∨
    Crosses arrow? before after

instance (before after : Text) : Decidable (Crossed before after) :=
  inferInstanceAs (Decidable ((∃ kind ∈ kindOrder,
    Crosses (declaration? (keyword kind).1 (keyword kind).2) before after) ∨
      Crosses arrow? before after))

/-- No line feed of a text is crossed. -/
def Uncrossed (t : Text) : Prop :=
  ∀ before after, t = before ++ .char '\n' :: after → ¬Crossed before after

/-- Whether a line feed is crossed can be seen place by place. -/
theorem uncrossed_iff : Uncrossed t ↔ ∀ place < t.length, t[place]? = some (.char '\n') →
    ¬Crossed (t.take place) (t.drop (place + 1)) := by
  constructor
  · intro h place hplace hfeed
    refine h _ _ ?_
    rw [List.getElem?_eq_getElem hplace, Option.some.injEq] at hfeed
    rw [← hfeed, ← List.drop_eq_getElem_cons hplace, List.take_append_drop]
  · rintro h before after rfl
    have hfeed := h before.length (by simp) (by simp)
    rwa [List.take_left, List.append_cons, List.drop_left' (by simp)] at hfeed

instance (t : Text) : Decidable (Uncrossed t) := decidable_of_iff' _ uncrossed_iff

/-- What crosses a line feed crosses it whatever lines stand before. -/
theorem Crosses.prepend (line : Text) (h : Crosses statement? before after) :
    Crosses statement? (line ++ .char '\n' :: before) after := by
  obtain ⟨place, hplace, hstart, hblank, hfound⟩ := h
  have hdrop : (line ++ .char '\n' :: before).drop (line.length + 1 + place) = before.drop place := by
    rw [List.append_cons, ← List.drop_drop, List.drop_left' (by simp)]
  refine ⟨line.length + 1 + place, by simp; omega, .inr ?_, hdrop ▸ hblank, hdrop ▸ hfound⟩
  rcases hstart with rfl | hfeed
  · simp
  · cases place with
    | zero => simp
    | succ place =>
      rw [show line.length + 1 + (place + 1) - 1 = line.length + (place + 1) by omega,
        List.getElem?_append_right (by omega), Nat.add_sub_cancel_left, List.getElem?_cons_succ]
      exact hfeed

/-- A reader whose statements depend on what follows them only by where they end. -/
structure ReadsParts (statement? : Text → Option (α × Text)) (Statement : Text → α → Text → Prop) :
    Prop extends PassesBlanks statement? Statement where
  extend : ∀ {t a rest}, Statement t a rest → ∀ more,
    ∃ a' rest', Statement (t ++ .char '\n' :: more) a' rest'
  restrict : ∀ {t a rest more}, Statement (t ++ more) a (rest ++ more) → Statement t a rest

theorem QuotedNext.append {inside : Text} (h : QuotedNext t inside rest) (more : Text) :
    QuotedNext (t ++ more) inside (rest ++ more) := by
  obtain ⟨hgap, hinside⟩ := h
  rw [List.append_assoc]
  exact ⟨hgap, hinside⟩

theorem QuotedNext.restrict {inside more : Text} (h : QuotedNext (t ++ more) inside (rest ++ more)) :
    QuotedNext t inside rest := by
  generalize hwhole : t ++ more = whole at h
  generalize hleft : rest ++ more = left at h
  obtain ⟨hgap, hinside⟩ := h
  rw [← hleft, ← List.append_assoc, List.append_cancel_right_eq] at hwhole
  rw [hwhole]
  exact ⟨hgap, hinside⟩

theorem QuotedIfAny.suffix {q : Option Text} (h : QuotedIfAny t q rest) : rest <:+ t := by
  cases h with
  | present h =>
    obtain ⟨-, -⟩ := h
    exact List.suffix_append _ _
  | absent _ => exact List.suffix_rfl

theorem QuotedIfAny.restrict {q : Option Text} {more : Text}
    (h : QuotedIfAny (t ++ more) q (rest ++ more)) : QuotedIfAny t q rest := by
  generalize hwhole : t ++ more = whole at h
  generalize hleft : rest ++ more = left at h
  cases h with
  | present h =>
    subst hwhole hleft
    exact .present h.restrict
  | absent h =>
    obtain rfl : t = rest := List.append_cancel_right (hwhole.trans hleft.symm)
    refine .absent fun inside rest' hnext => h inside (rest' ++ more) ?_
    rw [← hwhole]
    exact hnext.append more

/-- What may follow a name is, read alone, what it is before further lines. -/
theorem TechnologyIfAny.restrict {withTechnology : Bool} {technology : Option Text} {more : Text}
    (h : TechnologyIfAny withTechnology (t ++ more) technology (rest ++ more)) :
    TechnologyIfAny withTechnology t technology rest := by
  unfold TechnologyIfAny at h ⊢
  split at h
  · rw [if_pos ‹_›]
    exact QuotedIfAny.restrict h
  · rw [if_neg ‹_›]
    exact ⟨h.1, List.append_cancel_right h.2⟩

theorem TechnologyIfAny.suffix {withTechnology : Bool} {technology : Option Text}
    (h : TechnologyIfAny withTechnology t technology rest) : rest <:+ t := by
  unfold TechnologyIfAny at h
  split at h
  · exact QuotedIfAny.suffix h
  · exact h.2 ▸ List.suffix_rfl

/-- A part of a text whose end is left over ends before what is left over. -/
theorem exists_of_suffix_append {lead tail more : Text} (h : t ++ more = lead ++ tail)
    (hsuffix : rest ++ more <:+ tail) : ∃ tail', tail = tail' ++ more ∧ t = lead ++ tail' := by
  obtain ⟨used, rfl⟩ := hsuffix
  rw [← List.append_assoc used, ← List.append_assoc lead, List.append_cancel_right_eq] at h
  exact ⟨used ++ rest, (List.append_assoc ..).symm, h⟩

/-- Declarations stand in a part of a text as they stand in the text. -/
theorem readsParts_declaration {keyword : Text} (hkeyword : IsWord keyword)
    (withTechnology : Bool) :
    ReadsParts (declaration? keyword withTechnology) (IsDeclaration keyword withTechnology) where
  toPassesBlanks := passesBlanks_declaration hkeyword withTechnology
  extend h more := by
    obtain ⟨hlead, hgap, hid, hgap', hname, -⟩ := h
    rw [List.append_assoc]
    exact ⟨_, _, hlead, hgap, hid, hgap', hname, technologyIfAny_iff.mp rfl⟩
  restrict := by
    intro t d rest more h
    generalize hwhole : t ++ more = whole at h
    generalize hleft : rest ++ more = left at h
    obtain ⟨hlead, hgap, hid, hgap', hname, htechnology⟩ := h
    subst hleft
    obtain ⟨tail, rfl, rfl⟩ := exists_of_suffix_append hwhole htechnology.suffix
    exact ⟨hlead, hgap, hid, hgap', hname, htechnology.restrict⟩

/-- Relations stand in a part of a text as they stand in the text. -/
theorem readsParts_arrow : ReadsParts arrow? IsArrow where
  toPassesBlanks := passesBlanks_arrow
  extend h more := by
    obtain @⟨lead, source, space, space', target, tail, rest, label, hlead, hsource, hspace,
      hspace', htarget, hwhole, -⟩ := h
    have hwhole' : ∀ s ∈ (tail ++ .char '\n' :: more).head?, s.isA Text.isWord = false := by
      cases tail with
      | nil =>
        intro s hs
        obtain rfl := Option.some.inj hs
        decide
      | cons s tail => exact hwhole
    rw [List.append_assoc]
    exact ⟨_, _, hlead, hsource, hspace, hspace', htarget, hwhole', optionalQuoted_eq_iff.mp rfl⟩
  restrict := by
    intro t a rest more h
    generalize hwhole : t ++ more = whole at h
    generalize hleft : rest ++ more = left at h
    obtain ⟨hlead, hsource, hspace, hspace', htarget, hword, hlabel⟩ := h
    subst hleft
    obtain ⟨tail, rfl, rfl⟩ := exists_of_suffix_append hwhole hlabel.suffix
    refine ⟨hlead, hsource, hspace, hspace', htarget, fun s hs => hword s ?_, hlabel.restrict⟩
    rw [List.head?_append, Option.mem_def.mp hs]
    rfl

/-- No statement is taken from a blank text. -/
theorem PassesBlanks.scan_eq_nil (h : PassesBlanks statement? Statement) (hblank : IsBlanks t)
    (atLineStart : Bool) : scan statement? atLineStart t = [] := by
  induction t generalizing atLineStart with
  | nil => exact scan.eq_1 ..
  | cons s t ih =>
    obtain ⟨-, hrest⟩ := List.forall_mem_cons.mp hblank
    have hwithin : scan statement? false (s :: t) = [] := by
      rw [scan_symbol]
      exact ih hrest _
    cases atLineStart with
    | false => exact hwithin
    | true => rw [scan_none (h.eq_none hblank), hwithin]

/-- What begins no statement before a line feed begins none. -/
theorem ReadsParts.eq_none (h : ReadsParts statement? Statement)
    (hnone : statement? (t ++ .char '\n' :: after) = none) : statement? t = none := by
  rw [Option.eq_none_iff_forall_ne_some]
  rintro ⟨a, rest⟩ hsome
  obtain ⟨a', rest', ha'⟩ := h.extend (h.eq_some_iff.mp hsome) after
  rw [h.eq_some_iff.mpr ha'] at hnone
  cases hnone

/-- A statement that begins before a line feed and does not cross it stands before it. -/
theorem ReadsParts.of_not_crosses (h : ReadsParts statement? Statement)
    (hcrosses : ¬Crosses statement? before after) {place : Nat} (hstart : AtLineStart before place)
    (hblank : ¬IsBlanks (before.drop place)) {a : α}
    (ha : Statement (before.drop place ++ .char '\n' :: after) a rest) :
    ∃ left, rest = left ++ .char '\n' :: after ∧ Statement (before.drop place) a left := by
  have hplace : place < before.length := by
    rw [← Nat.not_le]
    intro hle
    rw [List.drop_eq_nil_of_le hle] at hblank
    exact hblank fun s hs => absurd hs List.not_mem_nil
  have hlonger : after.length < rest.length := by
    rw [← Nat.not_le]
    intro hle
    exact hcrosses ⟨place, hplace, hstart, hblank, (a, rest), h.eq_some_iff.mpr ha, hle⟩
  have hrest : rest <:+ before.drop place ++ .char '\n' :: after := by
    obtain ⟨used, last, heq, -⟩ := h.endsInLine ha
    exact ⟨used ++ [last], by rw [heq, List.append_assoc]; rfl⟩
  obtain ⟨left, rfl⟩ := List.suffix_of_suffix_length_le (List.suffix_append _ _) hrest hlonger
  exact ⟨left, rfl, h.restrict ha⟩

/--
A scan from a place before a line feed that is not crossed takes what it takes from the text before
it, and then what it takes from the text behind it.
-/
theorem ReadsParts.scan_append_feed (h : ReadsParts statement? Statement)
    (hcrosses : ¬Crosses statement? before after) (cursor : Nat) (atLineStart : Bool)
    (hflag : atLineStart = true → AtLineStart before cursor) :
    scan statement? atLineStart (before.drop cursor ++ .char '\n' :: after) =
      scan statement? atLineStart (before.drop cursor) ++ scan statement? true after := by
  induction hlength : (before.drop cursor).length using Nat.strongRecOn
    generalizing cursor atLineStart with
  | _ length ih =>
    -- Within a line the scan passes one symbol, or the line feed itself.
    have hwithin : scan statement? false (before.drop cursor ++ .char '\n' :: after) =
        scan statement? false (before.drop cursor) ++ scan statement? true after := by
      cases hdrop : before.drop cursor with
      | nil => rw [List.nil_append, scan_feed, scan, List.nil_append]
      | cons s tail =>
        have hs : before[cursor]? = some s := by rw [← List.head?_drop, hdrop, List.head?_cons]
        have htail : before.drop (cursor + 1) = tail := by
          rw [← List.tail_drop, hdrop, List.tail_cons]
        rw [List.cons_append, scan_symbol, scan_symbol, ← htail]
        rw [hdrop, List.length_cons, ← htail] at hlength
        exact ih _ (by omega) (cursor + 1) _ (atLineStart_succ hs).mp rfl
    cases atLineStart with
    | false => exact hwithin
    | true =>
      cases hfound : statement? (before.drop cursor ++ .char '\n' :: after) with
      | none => rw [scan_none hfound, scan_none (h.eq_none hfound), hwithin]
      | some found =>
        by_cases hblank : IsBlanks (before.drop cursor)
        · -- The statement stands behind the line feed, with blanks only before it.
          have hskip : skipBlanks (before.drop cursor ++ .char '\n' :: after) = skipBlanks after :=
            skipBlanks_of_isBlanks hblank (.char '\n' :: after)
          rw [h.scan_eq hskip (by rw [hfound]; rfl), h.scan_eq_nil hblank, List.nil_append]
        · obtain ⟨a, rest⟩ := found
          have ha := h.eq_some_iff.mp hfound
          obtain ⟨left, rfl, hleft⟩ := h.of_not_crosses hcrosses (hflag rfl) hblank ha
          obtain ⟨hshorter, hdrop, -⟩ := (h.endsInLine hleft).place
          have hbehind := ih _ (by rw [hdrop, ← hlength]; exact hshorter)
            (before.length - left.length) false (fun h => absurd h Bool.false_ne_true) rfl
          rw [hdrop] at hbehind
          rw [scan_statement h.toReads ha, scan_statement h.toReads hleft, List.cons_append, hbehind]

/-- A text is scanned line by line where no line feed is crossed. -/
theorem ReadsParts.scan_lines (h : ReadsParts statement? Statement)
    (huncrossed : ∀ before after, t = before ++ .char '\n' :: after →
      ¬Crosses statement? before after) :
    scan statement? true t = (lines t).flatMap (scan statement? true) := by
  induction hlength : t.length using Nat.strongRecOn generalizing t with
  | _ length ih =>
    by_cases hfeed : .char '\n' ∈ t
    · obtain ⟨line, rest, rfl, hline⟩ := List.eq_append_cons_of_mem hfeed
      have hlines : lines (line ++ .char '\n' :: rest) = line :: lines rest :=
        List.splitOn_append_cons_self_of_not_mem hline rest
      have hfirst := h.scan_append_feed (huncrossed line rest rfl) 0 true fun _ => .inl rfl
      rw [List.drop_zero] at hfirst
      rw [List.length_append, List.length_cons] at hlength
      rw [hfirst, hlines, List.flatMap_cons, ih rest.length (by omega) ?_ rfl]
      rintro before after rfl hcrosses
      exact huncrossed (line ++ .char '\n' :: before) after (by simp) (hcrosses.prepend line)
    · have hlines : lines t = [t] := List.splitOn_eq_singleton hfeed
      rw [hlines, List.flatMap_cons, List.flatMap_nil, List.append_nil]

/-- The elements of a kind that a text describes are those that it declares. -/
theorem filter_elements_parse (kind : Kind) (t : Text) :
    (parse t).elements.filter (·.kind = kind) =
      (declarations kind t).map (Declaration.toElement kind) := by
  have hkind (kind' : Kind) :
      ((declarations kind' t).map (Declaration.toElement kind')).filter (·.kind = kind) =
        if kind' = kind then (declarations kind' t).map (Declaration.toElement kind') else [] := by
    split
    next heq =>
      refine List.filter_eq_self.mpr fun e he => ?_
      obtain ⟨d, -, rfl⟩ := List.mem_map.mp he
      exact decide_eq_true heq
    next hne =>
      refine List.filter_eq_nil_iff.mpr fun e he => ?_
      obtain ⟨d, -, rfl⟩ := List.mem_map.mp he
      exact fun heq => hne (of_decide_eq_true heq)
  simp only [parse, kindOrder, List.filter_flatMap, hkind]
  cases kind <;> simp

/-- A text whose statements of each sort are those of some texts in a row describes what they do. -/
theorem parse_eq_merged {texts : List Text}
    (hdeclarations : ∀ kind, declarations kind t = texts.flatMap (declarations kind))
    (harrows : arrows t = texts.flatMap arrows) : parse t = merged texts := by
  have helements (kind : Kind) :
      (declarations kind t).map (Declaration.toElement kind) =
        texts.flatMap fun t' => (parse t').elements.filter (·.kind = kind) := by
    simp only [filter_elements_parse, hdeclarations, List.map_flatMap]
  have hrelations :
      (arrows t).map Arrow.toRelation = texts.flatMap fun t' => (parse t').relations := by
    rw [harrows, List.map_flatMap]
    rfl
  rw [parse, merged, hrelations]
  simp only [helements]

/-- No declaration crosses what is not crossed. -/
theorem not_crosses_declaration (h : ¬Crossed before after) (kind : Kind) :
    ¬Crosses (declaration? (keyword kind).1 (keyword kind).2) before after := fun hcrosses =>
  h (.inl ⟨kind, by cases kind <;> decide, hcrosses⟩)

/-- A line feed that no statement crosses separates what is described before it and behind it. -/
theorem parse_append_feed (h : ¬Crossed before after) :
    parse (before ++ .char '\n' :: after) = merged [before, after] := by
  refine parse_eq_merged (fun kind => ?_) ?_
  · have hscan := (readsParts_declaration (isWord_keyword kind) _).scan_append_feed
      (not_crosses_declaration h kind) 0 true fun _ => .inl rfl
    simpa [declarations] using hscan
  · have hscan := readsParts_arrow.scan_append_feed (fun hcrosses => h (.inr hcrosses)) 0 true
      fun _ => .inl rfl
    simpa [arrows] using hscan

/--
A description is read line by line where no statement crosses a line feed: it amounts to what its
lines describe, each read alone, the elements by kind and within a kind by line, the relations by
line. A line that says nothing alone then changes nothing. Where some line feeds are crossed, each of
the others still separates what stands before it from what follows.
-/
theorem parse_line_by_line (t : Text) :
    (∀ before after, t = before ++ .char '\n' :: after → ¬Crossed before after →
      parse t = merged [before, after]) ∧
    (Uncrossed t → parse t = merged (lines t)) := by
  refine ⟨?_, fun h => parse_eq_merged (fun kind => ?_) ?_⟩
  · rintro before after rfl h
    exact parse_append_feed h
  · exact (readsParts_declaration (isWord_keyword kind) _).scan_lines
      fun before after ht => not_crosses_declaration (h before after ht) kind
  · exact readsParts_arrow.scan_lines
      fun before after ht hcrosses => h before after ht (.inr hcrosses)

/-- Malformed lines between declarations that cross no line feed are passed over. -/
theorem parse_line_by_line_of_junk :
    let t : Text := "container A \"A\"\ncontainer B Gateway\nA => B\nperson C \"C\"\n# C -> A\nC -> A"
    Uncrossed t ∧ parse t = merged (lines t) ∧
      parse t = { elements := [{ id := "A", name := "A", kind := .container },
                               { id := "C", name := "C", kind := .person }]
                  relations := [{ source := "C", target := "A" }] } := by
  have huncrossed : Uncrossed
      "container A \"A\"\ncontainer B Gateway\nA => B\nperson C \"C\"\n# C -> A\nC -> A" := by
    decide +kernel
  exact ⟨huncrossed, (parse_line_by_line _).2 huncrossed, by decide +kernel⟩

/-- A quote left open takes the next line with it: the line that it begins in would describe nothing
and the next one an element, and what is described is another element. -/
theorem parse_of_open_quote :
    let t : Text := "container A \"x\ncontainer B \"y\""
    parse t = { elements := [{ id := "A", name := "x\ncontainer B ", kind := .container }] } ∧
      merged (lines t) = { elements := [{ id := "B", name := "y", kind := .container }] } ∧
      parse t ≠ merged (lines t) := by
  decide +kernel

end Landscape.Description
