import Landscape.Proofs.Interchange.Failures
import Landscape.Proofs.Number.Arithmetic

/-!
# What is taken for a position

A position is null or a list of two numbers. Reading takes more than that: any two values in a row,
be they the symbols of a text or the names of a record, and whatever stands for a number, be it a
truth value or a numeral. An integer that no double is equal to is rounded. Two errors are not about
malformed contents: that of an integer beyond the range of doubles, and that of a refusal whose
message cannot spell the value. Values that make no use of this are read as positions should be.
-/

namespace Landscape

variable {d v x y : Json} {p : Point Float} {a : Float} {id : Text} {place : Nat}

namespace Json

/-- A value is a number: a double, or an integer that is equal to one. -/
def IsNumber (d : Json) (a : Float) : Prop :=
  d = .float a ∨ ∃ n : Int, d = .int n ∧ Number.toRat? a = some (n : ℚ)

/-- What is read as a number: a number, where an integer in the range of doubles is rounded, a truth
value, and a numeral. -/
inductive StandsFor : Json → Float → Prop
  | float (a : Float) : StandsFor (.float a) a
  | int {n : Int} {a : Float} {r : ℚ} (hrange : n.natAbs < Number.leastOverflow)
    (hvalue : Number.toRat? a = some r) (hnearest : Number.Nearest (n : ℚ) r) : StandsFor (.int n) a
  | bool (b : Bool) : StandsFor (.bool b) (if b then 1.0 else 0.0)
  | text {t : Text} {a : Float} (h : Number.readFloat? t = some a) : StandsFor (.text t) a

/-- An integer that is read as a double is rounded to it. -/
theorem exists_nearest_of_ofInt? {n : Int} (h : Number.ofInt? n = some a) :
    ∃ r, Number.toRat? a = some r ∧ Number.Nearest ((n : ℚ) : ℝ) r := by
  simp only [Number.ofInt?, Option.ite_none_right_eq_some, Option.some.injEq] at h
  obtain ⟨hfinite, rfl⟩ := h
  exact Number.toRat?_ofInt hfinite

/-- What is read from a value is what it stands for. -/
theorem standsFor_of_toFloat (h : d.toFloat = .ok a) : d.StandsFor a := by
  unfold toFloat at h
  split at h
  next b =>
    obtain rfl := Except.ok.inj h
    exact .bool b
  next n =>
    split at h
    next hread =>
      obtain rfl := Except.ok.inj h
      obtain ⟨r, hr, hnearest⟩ := exists_nearest_of_ofInt? hread
      have hrange : n.natAbs < Number.leastOverflow := by
        rw [← Nat.not_le, ← Number.ofInt?_eq_none_iff, hread]
        exact nofun
      exact .int hrange hr hnearest
    · cases h
  next b =>
    obtain rfl := Except.ok.inj h
    exact .float b
  next t =>
    split at h
    next hread =>
      obtain rfl := Except.ok.inj h
      exact .text hread
    · cases h
  · cases h

/-- What stands for a number is read as one. -/
theorem StandsFor.exists_toFloat (h : d.StandsFor a) : ∃ b, d.toFloat = .ok b := by
  cases h with
  | float a => exact ⟨a, rfl⟩
  | bool b => exact ⟨_, rfl⟩
  | text hread => exact ⟨a, by rw [toFloat, hread]⟩
  | @int n _ _ hrange hvalue hnearest =>
    rw [← Nat.not_le, ← Number.ofInt?_eq_none_iff] at hrange
    obtain ⟨b, hb⟩ := Option.ne_none_iff_exists'.mp hrange
    exact ⟨b, by rw [toFloat, hb]⟩

/-- What stands for a number is not too large for one. -/
theorem StandsFor.not_overflows (h : d.StandsFor a) : ¬d.Overflows := by
  intro hoverflows
  obtain ⟨b, hb⟩ := h.exists_toFloat
  cases hb.symm.trans hoverflows.toFloat

/-- A value is read as the number it stands for, or it is too large, or it stands for none. -/
theorem toFloat_cases (d : Json) :
    (∃ a, d.StandsFor a ∧ d.toFloat = .ok a) ∨
    (d.Overflows ∧ d.toFloat = .error .numberTooLarge) ∨
    ((∀ a, ¬d.StandsFor a) ∧ ¬d.Overflows ∧ ∃ w, d.toFloat = .error (.notConvertible w)) := by
  cases hread : d.toFloat with
  | ok a => exact .inl ⟨a, standsFor_of_toFloat hread, rfl⟩
  | error e =>
    rcases toFloat_eq_error hread with ⟨w, rfl⟩ | ⟨rfl, hoverflows⟩
    · refine .inr (.inr ⟨fun a hstands => ?_, fun hoverflows => ?_, w, rfl⟩)
      · obtain ⟨b, hb⟩ := hstands.exists_toFloat
        cases hread.symm.trans hb
      · cases hread.symm.trans hoverflows.toFloat
    · exact .inr (.inl ⟨hoverflows, rfl⟩)

/-- A number stands for itself. -/
theorem IsNumber.standsFor (h : d.IsNumber a) : d.StandsFor a := by
  obtain rfl | ⟨n, rfl, hvalue⟩ := h
  · exact .float a
  · have hexact := Number.isExact_of_toRat? hvalue
    have hfinite := Number.isFinite_iff.mpr ⟨_, Number.toRat?_ofInt_of_isExact hexact⟩
    refine .int ((Number.isFinite_ofInt n).mp hfinite) hvalue fun c _ => ?_
    rw [sub_self, abs_zero]
    exact abs_nonneg _

/-- A value that is read as a number without being one: a truth value, a numeral, or an integer that
no double is equal to. -/
inductive Stretches : Json → Prop
  | bool (b : Bool) : Stretches (.bool b)
  | text {t : Text} {a : Float} (h : Number.readFloat? t = some a) : Stretches (.text t)
  | int {n : Int} (h : ¬Number.IsExact (n : ℚ)) : Stretches (.int n)

/-- Only a number stands for one without a stretch. -/
theorem StandsFor.isNumber (h : d.StandsFor a) (hplain : ¬d.Stretches) : d.IsNumber a := by
  cases h with
  | float a => exact .inl rfl
  | bool b => exact absurd (.bool b) hplain
  | text hread => exact absurd (.text hread) hplain
  | @int n _ r hrange hvalue hnearest =>
    have hexact : Number.IsExact (n : ℚ) := by
      by_contra hinexact
      exact hplain (.int hinexact)
    obtain rfl := hnearest.eq_of_isExact hexact
    exact .inr ⟨n, rfl, hvalue⟩

/-- A number is no stretch. -/
theorem IsNumber.not_stretches (h : d.IsNumber a) : ¬d.Stretches := by
  obtain rfl | ⟨n, rfl, hvalue⟩ := h
  · exact nofun
  · rintro (_ | _ | hinexact)
    exact hinexact (Number.isExact_of_toRat? hvalue)

/-- An integer beyond the range of doubles is equal to none of them. -/
theorem Overflows.stretches (h : d.Overflows) : d.Stretches := by
  obtain ⟨n, rfl, hn⟩ := h
  refine .int fun hexact => ?_
  have hvalue := Number.toRat?_ofInt_of_isExact hexact
  have hstands : (Json.int n).IsNumber (Number.ofInt n) := .inr ⟨n, rfl, hvalue⟩
  exact hstands.standsFor.not_overflows ⟨n, rfl, hn⟩

/-- Two values stand in a row: as the items of a list, as the symbols of a text, or as the names of a
record. -/
inductive Gives : Json → Json → Json → Prop
  | list (x y : Json) : Gives (.list [x, y]) x y
  | text (s t : Symbol) : Gives (.text [s, t]) (.text [s]) (.text [t])
  | record (k l : Text) (x y : Json) : Gives (.record [(k, x), (l, y)]) (.text k) (.text l)

theorem gives_iff : d.Gives x y ↔ d.pair? = some (x, y) := by
  constructor
  · intro h
    cases h <;> rfl
  · intro h
    unfold pair? at h
    split at h
    · obtain ⟨rfl, rfl⟩ := Prod.mk.inj (Option.some.inj h)
      exact .list _ _
    · obtain ⟨rfl, rfl⟩ := Prod.mk.inj (Option.some.inj h)
      exact .record _ _ _ _
    · obtain ⟨rfl, rfl⟩ := Prod.mk.inj (Option.some.inj h)
      exact .text _ _
    · cases h

/-- There is one way to take two values in a row. -/
theorem Gives.unique {x' y' : Json} (h : d.Gives x y) (h' : d.Gives x' y') : x = x' ∧ y = y' :=
  Prod.mk.inj (Option.some.inj ((gives_iff.mp h).symm.trans (gives_iff.mp h')))

/-- A value is a position: a list of two numbers. -/
def IsPosition (d : Json) (p : Point Float) : Prop :=
  ∃ x y, d = .list [x, y] ∧ x.IsNumber p.x ∧ y.IsNumber p.y

/-- A value is read as a position: two values in a row that stand for numbers. -/
def Yields (d : Json) (p : Point Float) : Prop :=
  ∃ x y, d.Gives x y ∧ x.StandsFor p.x ∧ y.StandsFor p.y

/-- Of two values in a row one is an integer beyond the range of doubles, and there is nothing wrong
with what comes before it. -/
def PairOverflows (d : Json) : Prop :=
  ∃ x y, d.Gives x y ∧ (x.Overflows ∨ (∃ a, x.StandsFor a) ∧ y.Overflows)

/-- The errors of a position that are not about malformed contents: for an integer beyond the range
of doubles, or else for what is in the way of spelling the value. -/
inductive PositionEscapes (d : Json) : Error → Prop
  | number (hoverflows : d.PairOverflows) : PositionEscapes d .numberTooLarge
  | spelling {e : Error} (hoverflows : ¬d.PairOverflows) (he : d.Obstacle maxLevels .value e) :
    PositionEscapes d e

/-- Two values in a row, if there are any, are the items of a list, and none of them is a stretch. -/
def IsPlain (d : Json) : Prop :=
  ∀ x y, d.Gives x y → d = .list [x, y] ∧ ¬x.Stretches ∧ ¬y.Stretches

theorem Gives.yields_iff (h : d.Gives x y) :
    d.Yields p ↔ x.StandsFor p.x ∧ y.StandsFor p.y := by
  constructor
  · rintro ⟨x', y', h', hstands⟩
    obtain ⟨rfl, rfl⟩ := h.unique h'
    exact hstands
  · exact fun hstands => ⟨x, y, h, hstands⟩

theorem Gives.pairOverflows_iff (h : d.Gives x y) :
    d.PairOverflows ↔ x.Overflows ∨ (∃ a, x.StandsFor a) ∧ y.Overflows := by
  constructor
  · rintro ⟨x', y', h', hoverflows⟩
    obtain ⟨rfl, rfl⟩ := h.unique h'
    exact hoverflows
  · exact fun hoverflows => ⟨x, y, h, hoverflows⟩

/-- Every position is read as itself. -/
theorem IsPosition.yields (h : d.IsPosition p) : d.Yields p := by
  obtain ⟨x, y, rfl, hx, hy⟩ := h
  exact ⟨x, y, .list x y, hx.standsFor, hy.standsFor⟩

/-- Every position is plain. -/
theorem IsPosition.isPlain (h : d.IsPosition p) : d.IsPlain := by
  obtain ⟨x, y, rfl, hx, hy⟩ := h
  intro x' y' hgives
  obtain ⟨rfl, rfl⟩ := (Gives.list x y).unique hgives
  exact ⟨rfl, hx.not_stretches, hy.not_stretches⟩

/-- A plain value is read as a position only if it is one. -/
theorem IsPlain.yields_iff (h : d.IsPlain) : d.Yields p ↔ d.IsPosition p := by
  constructor
  · rintro ⟨x, y, hgives, hx, hy⟩
    obtain ⟨rfl, hplainx, hplainy⟩ := h x y hgives
    exact ⟨x, y, rfl, hx.isNumber hplainx, hy.isNumber hplainy⟩
  · exact IsPosition.yields

/-- A plain value holds no integer beyond the range of doubles. -/
theorem IsPlain.not_pairOverflows (h : d.IsPlain) : ¬d.PairOverflows := by
  rintro ⟨x, y, hgives, hoverflows⟩
  obtain ⟨-, hplainx, hplainy⟩ := h x y hgives
  rcases hoverflows with hx | ⟨-, hy⟩
  · exact hplainx hx.stretches
  · exact hplainy hy.stretches

/-- Of a plain value nothing but what is in the way of spelling it escapes. -/
theorem IsPlain.positionEscapes_iff {e : Error} (h : d.IsPlain) :
    d.PositionEscapes e ↔ d.Obstacle maxLevels .value e := by
  constructor
  · rintro (hoverflows | ⟨-, he⟩)
    · exact absurd hoverflows h.not_pairOverflows
    · exact he
  · exact .spelling h.not_pairOverflows

/-- The integers that are numbers have not too many digits. -/
theorem IsNumber.natAbs_lt (h : d.IsNumber a) :
    ∀ n ∈ d.integers, n.natAbs < 10 ^ Number.maxDigits := by
  obtain rfl | ⟨n, rfl, hvalue⟩ := h
  · exact List.forall_mem_nil _
  · have hfinite := Number.isFinite_iff.mpr
      ⟨_, Number.toRat?_ofInt_of_isExact (Number.isExact_of_toRat? hvalue)⟩
    rw [integers, List.forall_mem_singleton]
    exact ((Number.isFinite_ofInt n).mp hfinite).trans (by decide +kernel)

/-- Every position can be spelled. -/
theorem IsPosition.not_obstacle {deep : Nesting} {e : Error} (h : d.IsPosition p) :
    ¬d.Obstacle maxLevels deep e := by
  obtain ⟨x, y, rfl, hx, hy⟩ := h
  have hfilled {z : Json} {a : Float} (hz : z.IsNumber a) : z.filled = 0 := by
    obtain rfl | ⟨n, rfl, -⟩ := hz <;> rw [filled]
  refine Json.not_obstacle ?_ ?_
  · rw [filled, filledItems_le_iff]
    intro z hz
    rcases List.mem_pair.mp hz with rfl | rfl
    · rw [hfilled hx]
      decide
    · rw [hfilled hy]
      decide
  · intro n hn
    rw [integers] at hn
    obtain ⟨z, hz, hmem⟩ := mem_integersOfItems.mp hn
    rcases List.mem_pair.mp hz with rfl | rfl
    · exact hx.natAbs_lt n hmem
    · exact hy.natAbs_lt n hmem

/-- Of null nothing escapes. -/
theorem not_positionEscapes_null {e : Error} : ¬Json.null.PositionEscapes e := by
  rintro (⟨x, y, hgives, -⟩ | ⟨-, he⟩)
  · cases hgives
  · exact not_obstacle_of_checkSpelling (d := .null) rfl he

/-- No error that escapes is about malformed contents. -/
theorem PositionEscapes.not_isMalformed {e : Error} (h : d.PositionEscapes e) : ¬e.IsMalformed := by
  obtain hoverflows | ⟨-, hlong | hdeep⟩ := h <;> exact nofun

end Json

open Json

/-- A position is read, or it has an integer beyond the range of doubles, or it is refused. -/
theorem Element.positionOfJson_eq (id : Text) (v : Json) :
    (∃ p, v.Yields p ∧ positionOfJson id v = .ok p) ∨
    ((∀ p, ¬v.Yields p) ∧ v.PairOverflows ∧ positionOfJson id v = .error .numberTooLarge) ∨
    ((∀ p, ¬v.Yields p) ∧ ¬v.PairOverflows ∧
      positionOfJson id v = refuse v (.badPosition id v)) := by
  unfold positionOfJson
  cases hpair : v.pair? with
  | none =>
    have hnone (x y : Json) : ¬v.Gives x y := by
      rw [gives_iff, hpair]
      exact nofun
    exact .inr (.inr ⟨fun p ⟨x, y, hgives, _⟩ => hnone x y hgives,
      fun ⟨x, y, hgives, _⟩ => hnone x y hgives, rfl⟩)
  | some pair =>
    obtain ⟨x, y⟩ := pair
    have hgives : v.Gives x y := gives_iff.mpr hpair
    simp only [hgives.yields_iff, hgives.pairOverflows_iff]
    rcases toFloat_cases x with ⟨a, hx, hread⟩ | ⟨hx, hread⟩ | ⟨hnone, hx, w, hread⟩ <;>
      rw [hread]
    · rcases toFloat_cases y with ⟨b, hy, hread⟩ | ⟨hy, hread⟩ | ⟨hnone, hy, w, hread⟩ <;>
        rw [hread]
      · exact .inl ⟨⟨a, b⟩, ⟨hx, hy⟩, rfl⟩
      · exact .inr (.inl ⟨fun p hp => hp.2.not_overflows hy, .inr ⟨⟨a, hx⟩, hy⟩, rfl⟩)
      · exact .inr (.inr ⟨fun p hp => hnone p.y hp.2,
          fun h => h.elim hx.not_overflows fun h => hy h.2, rfl⟩)
    · exact .inr (.inl ⟨fun p hp => hp.1.not_overflows hx, .inl hx, rfl⟩)
    · exact .inr (.inr ⟨fun p hp => hnone p.x hp.1,
        fun h => h.elim hx fun ⟨⟨a, ha⟩, _⟩ => hnone a ha, rfl⟩)

/-- A position is read, or an error escapes, or the position is malformed. -/
theorem Element.positionOfJson_cases (id : Text) (v : Json) :
    (∃ p, v.Yields p ∧ positionOfJson id v = .ok p) ∨
    ((∀ p, ¬v.Yields p) ∧ ∃ e, v.PositionEscapes e ∧ positionOfJson id v = .error e) ∨
    ((∀ p, ¬v.Yields p) ∧ (∀ e, ¬v.PositionEscapes e) ∧
      positionOfJson id v = .error (.malformed (.badPosition id v))) := by
  rcases positionOfJson_eq id v with hread | ⟨hnone, hoverflows, hread⟩ | ⟨hnone, hnot, hread⟩
  · exact .inl hread
  · exact .inr (.inl ⟨hnone, _, .number hoverflows, hread⟩)
  · rw [hread, refuse]
    -- the message of a refusal has to spell the value
    rcases v.spell_cases with ⟨hspell, hfree⟩ | ⟨e, he, hspell⟩
    · refine .inr (.inr ⟨hnone, ?_, by rw [hspell]; rfl⟩)
      rintro e (hoverflows | ⟨-, he⟩)
      · exact hnot hoverflows
      · exact hfree e he
    · exact .inr (.inl ⟨hnone, e, .spelling hnot he, by rw [hspell]; rfl⟩)

/-- What is read at the place of a position; null stands for none. -/
def Element.placeOfJson (id : Text) (v : Json) : Except Error (Option (Point Float)) :=
  if v = .null then .ok none else some <$> positionOfJson id v

/-- A record describes an element with an id, a name and some kind, and has a value for its
position. -/
structure Json.Describes (node : Json) (id : Text) (v : Json) : Prop where
  name : ∃ name, Element.nameOfJson id node = .ok name
  id : ∃ idValue, node.given? "id" = some idValue ∧ idValue.asText = .ok id
  kind : ∃ kindValue t kind, node.given? "type" = some kindValue ∧ kindValue.asText = .ok t ∧
    Kind.ofName? t = some kind
  position : node.get? "position" = some v

/-- A position does not matter to the rest of an element. -/
theorem Json.Describes.ofJson_eq {node : Json} (h : node.Describes id v) :
    ∃ e : Element, e.id = id ∧
      Element.ofJson node = (fun position => { e with position }) <$> Element.placeOfJson id v := by
  obtain ⟨⟨name, hname⟩, ⟨idValue, hid, hidText⟩, ⟨kindValue, t, kind, hkind, ht, hkindName⟩,
    hposition⟩ := h
  have hrecord : Part.node.fields node = .ok () := by
    cases node with
    | record fields => rfl
    | _ => cases hposition
  have hkindText : Kind.ofJson kindValue = .ok kind := by
    rw [Kind.ofJson, ht, ok_bind, hkindName]
    rfl
  refine ⟨{ id, name, kind, position := none
            technology := node.given? "technology", description := node.given? "description" },
    rfl, ?_⟩
  unfold Element.ofJson Element.placeOfJson
  rw [hrecord, Part.required_eq_ok.mpr hid, Part.required_eq_ok.mpr hkind]
  simp only [ok_bind, hidText, hname, hkindText]
  rcases eq_or_ne v .null with rfl | hne
  · have hgiven : node.given? "position" = none := by rw [given?, hposition]
    rw [hgiven, if_pos rfl]
    rfl
  · have hgiven : node.given? "position" = some v := given?_eq_some_iff.mpr ⟨hposition, hne⟩
    rw [hgiven, if_neg hne]
    dsimp only
    cases Element.positionOfJson id v with
    | ok p => rfl
    | error e => rfl

/-- A document describes a model, but for the value that stands for the position of the element at a
place. -/
structure Json.Offers (d : Json) (place : Nat) (id : Text) (v : Json) : Prop where
  nodes : ∃ before node after, d.get? "nodes" = some (.list (before ++ node :: after)) ∧
    before.length = place ∧ node.Describes id v ∧
    ∀ other ∈ before ++ after, ∃ e, Element.ofJson other = .ok e
  edges : ∃ edges, d.get? "edges" = some (.list edges) ∧
    ∀ edge ∈ edges, ∃ r, Relation.ofJson edge = .ok r

/-- A position does not matter to the rest of a model. -/
theorem Json.Offers.ofJson_eq (h : d.Offers place id v) :
    ∃ (e : Element) (model : Option (Point Float) → Model), e.id = id ∧
      (∀ position, (model position).elements[place]? = some { e with position }) ∧
      Model.ofJson d = model <$> Element.placeOfJson id v := by
  obtain ⟨before, node, after, hnodes, rfl, hnode, hothers⟩ := h.nodes
  obtain ⟨edges, hedges, hrelations⟩ := h.edges
  have hrecord : Part.model.fields d = .ok () := by
    cases d with
    | record fields => rfl
    | _ => cases hnodes
  have hreads (others : List Json) (hsub : others ⊆ before ++ after) :
      ∃ es, others.mapM Element.ofJson = .ok es := by
    obtain ⟨es, hes, -⟩ := mapM_eq_ok (P := fun _ => True) fun other hother =>
      (hothers other (hsub hother)).imp fun e he => ⟨he, trivial⟩
    exact ⟨es, hes⟩
  obtain ⟨first, hfirst⟩ := hreads before (List.subset_append_left _ _)
  obtain ⟨last, hlast⟩ := hreads after (List.subset_append_right _ _)
  obtain ⟨relations, hrelations', -⟩ := mapM_eq_ok (P := fun _ => True) fun edge hedge =>
    (hrelations edge hedge).imp fun r hr => ⟨hr, trivial⟩
  obtain ⟨e, he, hread⟩ := hnode.ofJson_eq
  refine ⟨e, fun position => { elements := first ++ { e with position } :: last, relations }, he,
    fun position => ?_, ?_⟩
  · rw [← length_of_mapM_eq_ok hfirst, List.getElem?_append_right le_rfl, Nat.sub_self]
    rfl
  · unfold Model.ofJson Model.arrayOfJson
    rw [hrecord, hnodes, hedges]
    simp only [ok_bind, List.mapM_append, List.mapM_cons, hfirst, hlast, hread, hrelations']
    cases Element.placeOfJson id v with
    | ok position => rfl
    | error e => rfl

/-- What becomes of a document by the value that stands for a position: it is accepted if this is
null or read as a position, which the element at the place then has; and it is refused with an error
that names the element, if no other error escapes. -/
structure Json.ReadsPosition (d : Json) (place : Nat) (id : Text) (v : Json)
    (reads : Point Float → Prop) (escapes : Error → Prop) : Prop where
  accepted : (∃ m, Model.ofJson d = .ok m) ↔ v = .null ∨ ∃ p, reads p
  stored : ∀ m, Model.ofJson d = .ok m → ∃ e, m.elements[place]? = some e ∧ e.id = id ∧
    (v = .null ∧ e.position = none ∨ ∃ p, reads p ∧ e.position = some p)
  refused : ∀ e, Model.ofJson d = .error e → escapes e ∨
    (∀ e', ¬escapes e') ∧ e = .malformed (.badPosition id v) ∧
      e.message = "Node '" ++ id ++ "' has malformed position " ++ v.shown

/-- A document is read as the value that stands for a position is. -/
theorem Json.Offers.readsPosition (h : d.Offers place id v) :
    d.ReadsPosition place id v v.Yields v.PositionEscapes := by
  obtain ⟨e, model, hid, hplace, hread⟩ := h.ofJson_eq
  rw [Element.placeOfJson] at hread
  have haccepted {position : Option (Point Float)} (hok : Model.ofJson d = .ok (model position))
      (hposition : v = .null ∧ position = none ∨ ∃ p, v.Yields p ∧ position = some p) :
      d.ReadsPosition place id v v.Yields v.PositionEscapes := by
    refine ⟨iff_of_true ⟨_, hok⟩ (hposition.imp And.left fun ⟨p, hp, _⟩ => ⟨p, hp⟩), ?_, ?_⟩
    · intro m hm
      obtain rfl := Except.ok.inj (hok.symm.trans hm)
      exact ⟨_, hplace position, hid, hposition⟩
    · intro error herror
      cases hok.symm.trans herror
  have hrefused {error : Error} (hne : v ≠ .null) (hnone : ∀ p, ¬v.Yields p)
      (herror : Model.ofJson d = .error error)
      (hcause : v.PositionEscapes error ∨
        (∀ e, ¬v.PositionEscapes e) ∧ error = .malformed (.badPosition id v)) :
      d.ReadsPosition place id v v.Yields v.PositionEscapes := by
    refine ⟨iff_of_false ?_ (not_or.mpr ⟨hne, not_exists.mpr hnone⟩), ?_, ?_⟩
    · rintro ⟨m, hm⟩
      cases hm.symm.trans herror
    · intro m hm
      cases hm.symm.trans herror
    · intro error' herror'
      obtain rfl := Except.error.inj (herror.symm.trans herror')
      exact hcause.imp_right fun ⟨hnot, hmalformed⟩ => ⟨hnot, hmalformed, by rw [hmalformed]; rfl⟩
  rcases eq_or_ne v .null with hnull | hne
  · rw [if_pos hnull] at hread
    exact haccepted hread (.inl ⟨hnull, rfl⟩)
  · rw [if_neg hne] at hread
    rcases Element.positionOfJson_cases id v with
      ⟨p, hp, hposition⟩ | ⟨hnone, error, hescapes, hposition⟩ | ⟨hnone, hnot, hposition⟩ <;>
      rw [hposition] at hread
    · exact haccepted hread (.inr ⟨p, hp, rfl⟩)
    · exact hrefused hne hnone hread (.inl hescapes)
    · exact hrefused hne hnone hread (.inr ⟨hnot, rfl⟩)

/-- For a plain value it is as it should be: null and positions are accepted as they are, and
everything else is malformed, unless it cannot be spelled. -/
theorem Json.Offers.readsPosition_of_isPlain (h : d.Offers place id v) (hplain : v.IsPlain) :
    d.ReadsPosition place id v v.IsPosition (v.Obstacle maxLevels .value) := by
  have hreads : v.Yields = v.IsPosition := funext fun _ => propext hplain.yields_iff
  have hescapes : v.PositionEscapes = v.Obstacle maxLevels .value :=
    funext fun _ => propext hplain.positionEscapes_iff
  rw [← hreads, ← hescapes]
  exact h.readsPosition

namespace Model

/-- A document is accepted if the value that stands for a position is null or is read as a position,
which is then stored; otherwise it is malformed, or it has an integer beyond the range of doubles,
or the value cannot be spelled. For plain values, which all positions are, being read as a position is
being one, and all positions can be spelled. Where this is not so a document is accepted that should
not be, or fails otherwise than it should. -/
theorem ofJson_reads_position (h : d.Offers place id v) :
    d.ReadsPosition place id v v.Yields v.PositionEscapes ∧
    (∀ p, v.IsPosition p → v.IsPlain ∧ ∀ e, ¬v.PositionEscapes e) ∧
    (v.IsPlain → d.ReadsPosition place id v v.IsPosition (v.Obstacle maxLevels .value)) ∧
    (d.ReadsPosition place id v v.IsPosition (fun _ => False) ↔
      (∀ p, v.Yields p → v.IsPosition p) ∧ ∀ e, ¬v.PositionEscapes e) := by
  have hpositions (p : Point Float) (hp : v.IsPosition p) :
      v.IsPlain ∧ ∀ e, ¬v.PositionEscapes e :=
    ⟨hp.isPlain, fun _ he => hp.not_obstacle (hp.isPlain.positionEscapes_iff.mp he)⟩
  refine ⟨h.readsPosition, hpositions, h.readsPosition_of_isPlain, ?_, ?_⟩
  · intro hclaim
    constructor
    · intro p hp
      rcases hclaim.accepted.mp (h.readsPosition.accepted.mpr (.inr ⟨p, hp⟩)) with rfl | ⟨q, hq⟩
      · obtain ⟨x, y, hgives, -⟩ := hp
        cases hgives
      · exact hq.isPlain.yields_iff.mp hp
    · intro e he
      cases hread : Model.ofJson d with
      | ok m =>
        rcases hclaim.accepted.mp ⟨m, hread⟩ with rfl | ⟨p, hp⟩
        · exact not_positionEscapes_null he
        · exact (hpositions p hp).2 e he
      | error error =>
        rcases h.readsPosition.refused error hread with hescapes | ⟨hnot, -⟩
        · rcases hclaim.refused error hread with hfalse | ⟨-, hmalformed, -⟩
          · exact hfalse
          · exact hescapes.not_isMalformed ⟨_, hmalformed⟩
        · exact hnot e he
  · rintro ⟨hreads, hnot⟩
    have hreads' : v.Yields = v.IsPosition :=
      funext fun p => propext ⟨hreads p, IsPosition.yields⟩
    have hescapes : v.PositionEscapes = fun _ => False := funext fun e => eq_false (hnot e)
    rw [← hreads', ← hescapes]
    exact h.readsPosition

/-- A person whose position is an integer and a double is read with it. -/
theorem ofJson_reads_position_of_person :
    let v : Json := .list [.int 1, .float 2.5]
    let d : Json := .record [("nodes", .list [.record [("id", .text "A"), ("type", .text "person"),
      ("position", v)]]), ("edges", .list [])]
    d.Offers 0 "A" v ∧ v.IsPosition ⟨1.0, 2.5⟩ ∧ ∃ m, Model.ofJson d = .ok m := by
  intro v d
  have hoffers : d.Offers 0 "A" v := by
    refine ⟨⟨[], _, [], rfl, rfl, ⟨⟨_, rfl⟩, ⟨_, rfl, rfl⟩, ⟨_, _, .person, rfl, rfl, ?_⟩, rfl⟩,
      List.forall_mem_nil _⟩, [], rfl, List.forall_mem_nil _⟩
    decide +kernel
  have hposition : v.IsPosition ⟨1.0, 2.5⟩ :=
    ⟨_, _, rfl, .inr ⟨1, rfl, by decide +kernel⟩, .inl rfl⟩
  obtain ⟨-, hplain, hreads, -⟩ := ofJson_reads_position hoffers
  exact ⟨hoffers, hposition,
    (hreads (hplain _ hposition).1).accepted.mpr (.inr ⟨_, hposition⟩)⟩

/-- A text of two digits is no position, but is read as one. -/
theorem text_taken_for_position :
    (Json.text "12" ≠ .null ∧ ∀ p, ¬(Json.text "12").IsPosition p) ∧
      (Model.ofJson (.record [("nodes", .list [.record [("id", .text "A"), ("type", .text "person"),
        ("position", .text "12")]]), ("edges", .list [])])).toOption.map
          (fun m => m.elements.map (·.position)) = some [some ⟨1.0, 2.0⟩] := by
  refine ⟨⟨nofun, ?_⟩, by decide +kernel⟩
  rintro p ⟨x, y, hlist, -⟩
  cases hlist

end Model

end Landscape
