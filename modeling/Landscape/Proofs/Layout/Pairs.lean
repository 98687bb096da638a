import Landscape.Proofs.Export.Drawing
import Landscape.Proofs.Layout.Crossing
import Mathlib.Data.List.Basic

/-!
# Crossings are counted over pairs

Which of two segments comes first makes no difference to whether they cross, so that the pairs that
do can be counted in any order of the segments. A relation that comes last adds the pairs that it
makes with those that are there.
-/

namespace Landscape

namespace Layout

variable {m : Model} {r r' : Relation} {s t : Segment}

/-- The pairs of a list are those of its first item with the others and those of the others. -/
theorem countP_pairs_cons {α : Type} (p : α × α → Bool) (a : α) (items : List α) :
    (pairs (a :: items)).countP p = items.countP (fun b => p (a, b)) + (pairs items).countP p := by
  rw [pairs, List.countP_append, List.countP_map]
  rfl

/-- Pairs that may be turned around are counted in any order of the items. -/
theorem countP_pairs_perm {α : Type} {p : α × α → Bool} (hturn : ∀ a b, p (a, b) = p (b, a))
    {items items' : List α} (h : items.Perm items') :
    (pairs items).countP p = (pairs items').countP p := by
  induction h with
  | nil => rfl
  | cons a h ih => rw [countP_pairs_cons, countP_pairs_cons, h.countP_eq, ih]
  | swap a b items =>
    simp only [countP_pairs_cons, List.countP_cons, hturn a b]
    omega
  | trans _ _ ih ih' => exact ih.trans ih'

/-- An item that comes last makes a pair with each item that is there. -/
theorem countP_pairs_append_singleton {α : Type} {p : α × α → Bool}
    (hturn : ∀ a b, p (a, b) = p (b, a)) (items : List α) (a : α) :
    (pairs (items ++ [a])).countP p = (pairs items).countP p + items.countP fun b => p (b, a) := by
  rw [countP_pairs_perm hturn (List.perm_append_singleton a items), countP_pairs_cons, Nat.add_comm]
  simp only [hturn a]

theorem Segment.sharesEnd_eq_false_iff : s.sharesEnd t = false ↔
    (s.source ≠ t.source ∧ s.source ≠ t.target) ∧ s.target ≠ t.source ∧ s.target ≠ t.target := by
  simp only [sharesEnd, Bool.or_eq_false_iff, beq_eq_false_iff_ne, and_assoc]

/-- Two segments have an end in common whichever comes first. -/
theorem Segment.sharesEnd_comm (s t : Segment) : s.sharesEnd t = t.sharesEnd s := by
  rw [← Bool.not_inj_iff, Bool.eq_iff_iff, Bool.not_eq_true', Bool.not_eq_true',
    sharesEnd_eq_false_iff, sharesEnd_eq_false_iff]
  simp only [ne_comm (a := t.source), ne_comm (a := t.target)]
  exact ⟨fun ⟨⟨h₁, h₂⟩, h₃, h₄⟩ => ⟨⟨h₁, h₃⟩, h₂, h₄⟩, fun ⟨⟨h₁, h₂⟩, h₃, h₄⟩ => ⟨⟨h₁, h₃⟩, h₂, h₄⟩⟩

/-- Two segments cross whichever comes first. -/
theorem Segment.crosses_comm (s t : Segment) : s.crosses t = t.crosses s := by
  rw [crosses, crosses, sharesEnd_comm, segmentsCross_swap]

/-- Crossings are counted in pairs of segments. -/
theorem crossings_eq (m : Model) :
    crossings m = (pairs (segments m)).countP fun p => p.1.crosses p.2 := rfl

/-- How many segments cross does not depend on their order. -/
theorem crossings_eq_of_perm {m' : Model} (h : (segments m').Perm (segments m)) :
    crossings m' = crossings m := by
  rw [crossings_eq, crossings_eq]
  exact countP_pairs_perm (fun s t => s.crosses_comm t) h

/-- A relation is drawn between two points: it is no loop, and these are the positions of its ends. -/
structure Spans (m : Model) (r : Relation) (first last : Point Float) : Prop where
  ends_ne : r.source ≠ r.target
  source : (m.placements r.source).head? = some first
  target : (m.placements r.target).head? = some last

/-- Two relations are drawn, have no end in common, and their segments cross. -/
def Cross (m : Model) (r r' : Relation) : Prop :=
  ((r.source ≠ r'.source ∧ r.source ≠ r'.target) ∧ r.target ≠ r'.source ∧ r.target ≠ r'.target) ∧
    ∃ p₁ p₂ q₁ q₂, Spans m r p₁ p₂ ∧ Spans m r' q₁ q₂ ∧ segmentsCross p₁ p₂ q₁ q₂ = true

/-- The segment of a relation runs between the points that it is drawn between. -/
theorem segment?_eq_some_iff : segment? (positionsById m) r = some s ↔
    ∃ first last, Spans m r first last ∧ s = ⟨r.source, r.target, first, last⟩ := by
  have hspans (first last : Point Float) : Spans m r first last ↔
      r.isLoop = false ∧ (positionsById m).lookup r.source = some first ∧
        (positionsById m).lookup r.target = some last := by
    rw [Model.lookup_positionsById_eq_head?, Model.lookup_positionsById_eq_head?,
      Relation.isLoop, beq_eq_false_iff_ne]
    exact ⟨fun ⟨h, hp, hq⟩ => ⟨h, hp, hq⟩, fun ⟨h, hp, hq⟩ => ⟨h, hp, hq⟩⟩
  simp only [hspans]
  unfold segment?
  cases r.isLoop with
  | true => simp
  | false =>
    simp only [Bool.false_eq_true, if_false, Option.bind_eq_bind, Option.bind_eq_some_iff,
      Option.pure_def, Option.some.injEq, true_and, and_assoc, exists_and_left, eq_comm (b := s)]

/-- A relation is not drawn when it is a loop or an end of it is not placed. -/
theorem not_spans (h : r.source = r.target ∨ m.isPlaced r.source = false ∨
    m.isPlaced r.target = false) (first last : Point Float) : ¬Spans m r first last := by
  rintro ⟨hne, hfirst, hlast⟩
  rcases h with heq | hsource | htarget
  · exact hne heq
  · rw [Model.placements_eq_nil_iff.mpr hsource] at hfirst
    cases hfirst
  · rw [Model.placements_eq_nil_iff.mpr htarget] at hlast
    cases hlast

/-- Two relations cross when the segments that are drawn for them do. -/
theorem cross_iff : Cross m r r' ↔ ((segment? (positionsById m) r).any fun s =>
    (segment? (positionsById m) r').any fun t => s.crosses t) = true := by
  simp only [Option.any_eq_true, segment?_eq_some_iff, Segment.crosses, Bool.and_eq_true,
    Bool.not_eq_true', Segment.sharesEnd_eq_false_iff]
  constructor
  · rintro ⟨hends, p₁, p₂, q₁, q₂, hr, hr', hcross⟩
    exact ⟨_, ⟨p₁, p₂, hr, rfl⟩, _, ⟨q₁, q₂, hr', rfl⟩, hends, hcross⟩
  · rintro ⟨_, ⟨p₁, p₂, hr, rfl⟩, _, ⟨q₁, q₂, hr', rfl⟩, hends, hcross⟩
    exact ⟨hends, p₁, p₂, q₁, q₂, hr, hr', hcross⟩

instance (m : Model) (r r' : Relation) : Decidable (Cross m r r') :=
  decidable_of_iff _ cross_iff.symm

/-- A relation that is declared adds the crossings with the relations that are there. -/
theorem crossings_addRelation (m : Model) (r : Relation) :
    crossings (m.addRelation r) = crossings m + m.relations.countP fun r' => Cross m r' r := by
  have hsegments : segments (m.addRelation r) =
      segments m ++ (segment? (positionsById m) r).toList := by
    simp only [segments, Model.addRelation, List.filterMap_append]
    rfl
  have hcount : m.relations.countP (fun r' => Cross m r' r) =
      (segments m).countP fun s => (segment? (positionsById m) r).any fun t => s.crosses t := by
    rw [segments, List.countP_filterMap]
    refine List.countP_congr fun r' _ => ?_
    rw [decide_eq_true_iff, cross_iff]
    cases segment? (positionsById m) r' with
    | none => exact Iff.rfl
    | some s => exact Iff.rfl
  rw [crossings_eq, crossings_eq, hsegments, hcount]
  cases segment? (positionsById m) r with
  | none => simp
  | some t => exact countP_pairs_append_singleton (fun s t => s.crosses_comm t) _ t

/--
How many relations cross is a matter of the segments that are drawn, in whatever order. Models with
the same segments have the same number, and so have models that differ in the order of their
relations. A relation that is declared adds one for each relation that is there, is drawn, has no end
in common with it and crosses it; it adds nothing if it is a loop or if an end of it is not placed.
All of this holds of the arithmetic of doubles.
-/
theorem crossings_of_segments (m : Model) :
    (∀ m', (segments m').Perm (segments m) → crossings m' = crossings m) ∧
    (∀ relations, relations.Perm m.relations → crossings { m with relations } = crossings m) ∧
    ∀ r, crossings (m.addRelation r) = (crossings m + m.relations.countP fun r' => Cross m r' r) ∧
      (r.source = r.target ∨ m.isPlaced r.source = false ∨ m.isPlaced r.target = false →
        crossings (m.addRelation r) = crossings m) := by
  refine ⟨fun m' h => crossings_eq_of_perm h, fun relations h => ?_, fun r => ?_⟩
  · exact crossings_eq_of_perm (h.filterMap (segment? (positionsById m)))
  · have hadd := crossings_addRelation m r
    refine ⟨hadd, fun hundrawn => ?_⟩
    have hnone : (m.relations.countP fun r' => Cross m r' r) = 0 := by
      rw [List.countP_eq_zero]
      intro r' _
      rw [decide_eq_true_iff]
      rintro ⟨-, p₁, p₂, q₁, q₂, -, hr, -⟩
      exact not_spans hundrawn q₁ q₂ hr
    rw [hadd, hnone, Nat.add_zero]

/-- A diagonal of a square is declared where the other one is there twice, with a side and a loop.
It crosses the other diagonal twice, in any order; a second loop and a relation to an element
without a position cross nothing. -/
theorem crossings_of_segments_of_square :
    let m : Model :=
      { elements := [{ id := "a", name := "A", kind := .system, position := some ⟨0.0, 0.0⟩ },
          { id := "b", name := "B", kind := .system, position := some ⟨2.0, 2.0⟩ },
          { id := "c", name := "C", kind := .system, position := some ⟨2.0, 0.0⟩ },
          { id := "d", name := "D", kind := .system, position := some ⟨0.0, 2.0⟩ },
          { id := "e", name := "E", kind := .person }]
        relations := [{ source := "a", target := "b" }, { source := "a", target := "c" },
          { source := "b", target := "a" }, { source := "b", target := "b" }] }
    let diagonal : Relation := { source := "c", target := "d" }
    let loop : Relation := { source := "c", target := "c" }
    let dangling : Relation := { source := "e", target := "d" }
    m.relations.reverse.Perm m.relations ∧
      crossings { m with relations := m.relations.reverse } = crossings m ∧
      crossings (m.addRelation diagonal) = crossings m + 2 ∧
      (loop.source = loop.target ∧ crossings (m.addRelation loop) = crossings m) ∧
      m.isPlaced dangling.source = false ∧ crossings (m.addRelation dangling) = crossings m := by
  intro m diagonal loop dangling
  obtain ⟨-, hperm, hadd⟩ := crossings_of_segments m
  have hreverse : m.relations.reverse.Perm m.relations := List.reverse_perm _
  have htwo : (m.relations.countP fun r => Cross m r diagonal) = 2 := by decide +kernel
  have hplaced : m.isPlaced dangling.source = false := by decide +kernel
  exact ⟨hreverse, hperm _ hreverse, htwo ▸ (hadd diagonal).1, ⟨rfl, (hadd loop).2 (.inl rfl)⟩,
    hplaced, (hadd dangling).2 (.inr (.inl hplaced))⟩

end Layout

end Landscape
