import Landscape.Detection
import Landscape.Export.Drawing
import Landscape.Proofs.Entries
import Landscape.Proofs.Layout.Resolution

/-!
# What a drawing shows

A drawing finds its points by id. Where several elements share an id the last position that one of
them has is drawn for all of them, and the first one is what crossings are counted with. So a drawing
shows the layout, each element with a position where it is and no other one, exactly if elements that
share an id have the same position or none of them has one; and then its arrows run where the
segments do.
-/

namespace Landscape

namespace Model

variable {m : Model} {id : Text} {e : Element}

/-- The positions of the elements with an id, in order. -/
def placements (m : Model) (id : Text) : List (Point Float) :=
  (m.elements.filter (·.id == id)).filterMap (·.position)

/-- Whether an id names an element that has a position. -/
def isPlaced (m : Model) (id : Text) : Bool :=
  m.elements.any fun e => e.id == id && e.position.isSome

/-- Elements that share an id have the same position, or none of them has one. -/
def TwinsAgree (m : Model) : Prop :=
  ∀ e ∈ m.elements, ∀ e' ∈ m.elements, e.id = e'.id → e.position = e'.position

theorem mem_placements_iff {p : Point Float} :
    p ∈ m.placements id ↔ ∃ e ∈ m.elements, e.id = id ∧ e.position = some p := by
  simp only [placements, List.mem_filterMap, List.mem_filter, beq_iff_eq, and_assoc]

/-- An id without positions names no element that has one. -/
theorem placements_eq_nil_iff : m.placements id = [] ↔ m.isPlaced id = false := by
  simp only [List.eq_nil_iff_forall_not_mem, mem_placements_iff, isPlaced, List.any_eq_false,
    Bool.and_eq_true, beq_iff_eq, Option.isSome_iff_exists]
  constructor
  · rintro h e he ⟨hid, p, hp⟩
    exact h p ⟨e, he, hid, hp⟩
  · rintro h p ⟨e, he, hid, hp⟩
    exact h e he ⟨hid, p, hp⟩

/-- An id has a last position exactly when it is placed. -/
theorem getLast?_placements_eq_none_iff :
    (m.placements id).getLast? = none ↔ m.isPlaced id = false := by
  rw [List.getLast?_eq_none_iff, placements_eq_nil_iff]

/-- The positions with their ids, those of one id picked out. -/
theorem placements_eq (m : Model) (id : Text) :
    m.placements id =
      ((m.elements.filterMap fun e => e.position.map (e.id, ·)).filter (·.1 == id)).map Prod.snd := by
  unfold placements
  induction m.elements with
  | nil => rfl
  | cons e elements ih =>
    cases hp : e.position with
    | none =>
      by_cases hid : e.id = id
      · simp [hid, hp, ih]
      · simp [hid, hp, ih]
    | some p =>
      by_cases hid : e.id = id
      · simp [hid, hp, ih]
      · simp [hid, hp, ih]

/-- Crossings are counted with the first position of an id. -/
theorem lookup_positionsById_eq_head? (m : Model) (id : Text) :
    (Layout.positionsById m).lookup id = (m.placements id).head? := by
  rw [Layout.positionsById_eq, Entries.lookup_foldl_add, placements_eq, List.head?_map,
    List.head?_filter, List.lookup_nil, Option.none_or]

/-- The last position of an id is drawn. -/
theorem lookup_positions (m : Model) (id : Text) :
    (Drawing.positions m).lookup id = (m.placements id).getLast? := by
  have hpositions : Drawing.positions m =
      (m.elements.filterMap fun e => e.position.map (e.id, ·)).foldl
        (fun found p => Entries.put found p.1 p.2) [] := by
    rw [List.foldl_filterMap, Drawing.positions]
    congr 1
    funext found e
    cases e.position <;> rfl
  rw [hpositions, Entries.lookup_foldl_put, placements_eq, List.getLast?_map, List.lookup_nil,
    Option.or_none]

/-- Where twins agree, every position of an id is that of each element with the id. -/
theorem TwinsAgree.position_eq (h : m.TwinsAgree) (he : e ∈ m.elements) {p : Point Float}
    (hp : p ∈ m.placements e.id) : e.position = some p := by
  obtain ⟨e', he', hid, hp'⟩ := mem_placements_iff.mp hp
  rw [h e he e' he' hid.symm, hp']

/-- Where twins agree, the last position of an id is that of each element with the id. -/
theorem TwinsAgree.getLast?_placements (h : m.TwinsAgree) (he : e ∈ m.elements) :
    (m.placements e.id).getLast? = e.position := by
  cases hlast : (m.placements e.id).getLast? with
  | some p => exact (h.position_eq he (List.mem_of_getLast? hlast)).symm
  | none =>
    rw [List.getLast?_eq_none_iff] at hlast
    cases hp : e.position with
    | none => rfl
    | some p =>
      have hmem : p ∈ m.placements e.id := mem_placements_iff.mpr ⟨e, he, rfl, hp⟩
      rw [hlast] at hmem
      cases hmem

/-- Where twins agree, the first and the last position of an id are the same. -/
theorem TwinsAgree.head?_placements (h : m.TwinsAgree) (id : Text) :
    (m.placements id).head? = (m.placements id).getLast? := by
  cases hfirst : (m.placements id).head? with
  | none =>
    rw [List.head?_eq_none_iff] at hfirst
    rw [hfirst]
    rfl
  | some p =>
    obtain ⟨e, he, rfl, hp⟩ := mem_placements_iff.mp (List.mem_of_head? hfirst)
    rw [h.getLast?_placements he, hp]

/-- Twins agree where the last position of its id is that of each element. -/
theorem twinsAgree_of_getLast?
    (h : ∀ e ∈ m.elements, (m.placements e.id).getLast? = e.position) : m.TwinsAgree := by
  intro e he e' he' hid
  rw [← h e he, ← h e' he', hid]

end Model

namespace Drawing

variable {m : Model} {d : Drawing} {style : Style}

/--
What a drawing shows of a model: the points at which its elements are marked, each in the group of
its kind, and named, and the arrows for the relations whose ends are placed.
-/
structure Shows (d : Drawing) (m : Model) (style : Style) (marked : Element → Option (Point Float))
    (joins : Relation → DrawnArrow → Prop) : Prop where
  /-- The markers of a kind are the marks of the elements of this kind, in order. -/
  markers : ∀ kind, (d.groups.filter (·.kind = kind)).flatMap (·.points) =
    (m.elements.filter (·.kind = kind)).filterMap marked
  /-- The names stand at the marks. -/
  names : d.names =
    if style.showNames then m.elements.filterMap fun e => (marked e).map (e.name, ·) else []
  /-- There is an arrow for each relation whose ends both name an element with a position. -/
  arrows : List.Forall₂ joins
    (m.relations.filter fun r => m.isPlaced r.source && m.isPlaced r.target) d.arrows

/-- An arrow runs between the last positions of the ends of its relation. -/
def JoinsLast (m : Model) (r : Relation) (a : DrawnArrow) : Prop :=
  (m.placements r.source).getLast? = some a.start ∧ (m.placements r.target).getLast? = some a.finish

/-- An arrow runs between the positions that crossings are counted with, and so it runs where the
segment of its relation does, if there is one. -/
structure FollowsSegment (m : Model) (r : Relation) (a : DrawnArrow) : Prop where
  start : (Layout.positionsById m).lookup r.source = some a.start
  finish : (Layout.positionsById m).lookup r.target = some a.finish
  segment : Layout.segment? (Layout.positionsById m) r =
    if r.isLoop then none else some ⟨r.source, r.target, a.start, a.finish⟩

/-- The points of a group are those of its kind, and without any there is no group. -/
theorem points_group? (found : List (Text × Point Float)) (severities : List (Text × Severity))
    (m : Model) (kind : Kind) :
    (group? found severities m kind).toList.flatMap (·.points) =
      (m.elements.filter (·.kind = kind)).filterMap fun e => found.lookup e.id := by
  have hmembers : (m.elements.filterMap fun e =>
      if e.kind = kind then (found.lookup e.id).map (e.id, ·) else none).map Prod.snd =
      (m.elements.filter (·.kind = kind)).filterMap fun e => found.lookup e.id := by
    rw [List.map_filterMap, List.filterMap_filter]
    congr 1
    funext e
    by_cases hkind : e.kind = kind
    · simp [hkind, Function.comp_def]
    · simp [hkind]
  rw [← hmembers, group?]
  split
  next hempty => simp [List.isEmpty_iff.mp hempty]
  next => simp

/-- A group is of the kind that it is made for. -/
theorem kind_of_group? {found : List (Text × Point Float)} {severities : List (Text × Severity)}
    {kind : Kind} {g : DrawnGroup} (h : group? found severities m kind = some g) : g.kind = kind := by
  dsimp only [group?] at h
  split at h
  · cases h
  · obtain rfl := Option.some.inj h
    rfl

/-- Among groups that are made kind by kind, those of one kind are the one that is made for it. -/
theorem filter_kind_filterMap {make : Kind → Option DrawnGroup}
    (hmake : ∀ {kind g}, make kind = some g → g.kind = kind) (kind : Kind) :
    (Kind.all.filterMap make).filter (·.kind = kind) = (make kind).toList := by
  have hpicked (other : Kind) : (make other).filter (fun g => decide (g.kind = kind)) =
      if other = kind then make kind else none := by
    cases hother : make other with
    | none =>
      split
      next h => rw [← h, hother, Option.filter_none]
      next => rfl
    | some g =>
      rw [Option.filter_some, hmake hother]
      by_cases h : other = kind
      · simp [h, ← hother]
      · simp [h]
  rw [List.filter_filterMap, funext hpicked]
  cases make kind with
  | none => simp
  | some g => cases kind <;> rfl

/-- The arrows are those of the relations whose ends are placed. -/
theorem forall₂_arrows (m : Model) (cycle : List Text) :
    List.Forall₂ (JoinsLast m) (m.relations.filter fun r => m.isPlaced r.source && m.isPlaced r.target)
      (m.relations.filterMap (arrow? (positions m) cycle)) := by
  refine Layout.forall₂_filterMap (fun r _ hkept => ?_) fun r _ hdropped => ?_
  · have hplaced {id : Text} (h : m.isPlaced id = true) :
        ∃ p, (m.placements id).getLast? = some p := by
      rw [← Option.ne_none_iff_exists', Ne, Model.getLast?_placements_eq_none_iff, h]
      exact (nomatch ·)
    rw [Bool.and_eq_true] at hkept
    obtain ⟨p, hp⟩ := hplaced hkept.1
    obtain ⟨q, hq⟩ := hplaced hkept.2
    have harrow : arrow? (positions m) cycle r =
        some (if cycle.contains r.source && cycle.contains r.target then
          ⟨p, q, Palette.cycle, 3.0⟩ else ⟨p, q, Palette.relation, lineWidth r.weight⟩) := by
      simp [arrow?, Model.lookup_positions, hp, hq]
    refine ⟨_, harrow, ?_⟩
    split
    · exact ⟨hp, hq⟩
    · exact ⟨hp, hq⟩
  · have hnone {id : Text} (h : m.isPlaced id = false) : (positions m).lookup id = none := by
      rw [Model.lookup_positions, Model.getLast?_placements_eq_none_iff.mpr h]
    rw [arrow?]
    cases hsource : m.isPlaced r.source with
    | false => simp [hnone hsource]
    | true =>
      have htarget : m.isPlaced r.target = false := by simpa [hsource] using hdropped
      simp [hnone htarget]

/-- A drawing is made wherever an element has a position, and it shows the last positions. -/
theorem exists_shows_last (h : ∃ e ∈ m.elements, e.position.isSome = true) (findings : List Finding)
    (path : Text) (style : Style) : ∃ d, ofModel m findings path style = .ok d ∧
      d.Shows m style (fun e => (m.placements e.id).getLast?) (JoinsLast m) := by
  have hpositions : (positions m).isEmpty = false := by
    obtain ⟨e, he, hp⟩ := h
    have hplaced : m.isPlaced e.id = true := List.any_eq_true.mpr ⟨e, he, by simpa using hp⟩
    rw [Bool.eq_false_iff]
    intro hempty
    have hnone : (positions m).lookup e.id = none := by rw [List.isEmpty_iff.mp hempty]; rfl
    rw [Model.lookup_positions, Model.getLast?_placements_eq_none_iff, hplaced] at hnone
    cases hnone
  have hofModel : ∃ d, ofModel m findings path style = .ok d ∧
      d.groups = Kind.all.filterMap (group? (positions m) (severities findings) m) ∧
      d.names = (if style.showNames then
        m.elements.filterMap fun e => ((positions m).lookup e.id).map (e.name, ·) else []) ∧
      d.arrows = m.relations.filterMap (arrow? (positions m) (cycleElements findings)) := by
    refine ⟨_, by rw [ofModel, hpositions]; rfl, rfl, rfl, rfl⟩
  obtain ⟨d, hd, hgroups, hnames, harrows⟩ := hofModel
  refine ⟨d, hd, fun kind => ?_, ?_, ?_⟩
  · rw [hgroups, filter_kind_filterMap kind_of_group?, points_group?]
    simp only [Model.lookup_positions]
  · rw [hnames]
    simp only [Model.lookup_positions]
  · rw [harrows]
    exact forall₂_arrows m (cycleElements findings)

/-- Where items are kept at least as often as by another partial function, the same list comes out
only if the same is made of each item. -/
theorem eq_of_filterMap_eq {α β : Type} {f g : α → Option β} {items : List α}
    (hle : ∀ a ∈ items, (g a).isSome = true → (f a).isSome = true)
    (h : items.filterMap f = items.filterMap g) : ∀ a ∈ items, f a = g a := by
  induction items with
  | nil => exact fun _ ha => nomatch ha
  | cons a items ih =>
    rw [List.forall_mem_cons] at hle ⊢
    obtain ⟨ha, hle⟩ := hle
    have hlength : (items.filterMap g).length ≤ (items.filterMap f).length := by
      rw [List.length_filterMap_eq_countP, List.length_filterMap_eq_countP]
      exact List.countP_mono_left hle
    cases hf : f a with
    | none =>
      cases hg : g a with
      | none =>
        rw [List.filterMap_cons_none hf, List.filterMap_cons_none hg] at h
        exact ⟨rfl, ih hle h⟩
      | some b =>
        have hsome := ha (by rw [hg]; rfl)
        rw [hf] at hsome
        cases hsome
    | some b =>
      rw [List.filterMap_cons_some hf] at h
      cases hg : g a with
      | none =>
        -- one item more is kept here, and none is made up for it among the others
        rw [List.filterMap_cons_none hg] at h
        have hmore := congrArg List.length h
        rw [List.length_cons] at hmore
        omega
      | some c =>
        rw [List.filterMap_cons_some hg] at h
        obtain ⟨rfl, hrest⟩ := List.cons.inj h
        exact ⟨rfl, ih hle hrest⟩

/-- Where twins agree, an arrow between last positions runs where the segment does. -/
theorem JoinsLast.followsSegment (h : m.TwinsAgree) {r : Relation} {a : DrawnArrow}
    (ha : JoinsLast m r a) : FollowsSegment m r a := by
  have hstart : (Layout.positionsById m).lookup r.source = some a.start := by
    rw [Model.lookup_positionsById_eq_head?, h.head?_placements, ha.1]
  have hfinish : (Layout.positionsById m).lookup r.target = some a.finish := by
    rw [Model.lookup_positionsById_eq_head?, h.head?_placements, ha.2]
  refine ⟨hstart, hfinish, ?_⟩
  cases hloop : r.isLoop with
  | true => simp [Layout.segment?, hloop]
  | false => simp [Layout.segment?, hloop, hstart, hfinish]

/-- What shows the last positions shows the layout exactly where twins agree. -/
theorem Shows.layout_iff
    (h : d.Shows m style (fun e => (m.placements e.id).getLast?) (JoinsLast m)) :
    d.Shows m style (·.position) (FollowsSegment m) ↔ m.TwinsAgree := by
  constructor
  · intro hlayout
    refine Model.twinsAgree_of_getLast? fun e he => ?_
    have hmarks := (h.markers e.kind).symm.trans (hlayout.markers e.kind)
    refine eq_of_filterMap_eq (fun e' he' hp => ?_) hmarks e
      (List.mem_filter.mpr ⟨he, decide_eq_true rfl⟩)
    -- an element with a position is among those that its id is drawn for
    have hplaced : m.isPlaced e'.id = true :=
      List.any_eq_true.mpr ⟨e', (List.mem_filter.mp he').1, by simpa using hp⟩
    rw [Option.isSome_iff_ne_none, Ne, Model.getLast?_placements_eq_none_iff, hplaced]
    exact (nomatch ·)
  · intro htwins
    have hmarked : ∀ e ∈ m.elements, (m.placements e.id).getLast? = e.position :=
      fun e he => htwins.getLast?_placements he
    refine ⟨fun kind => ?_, ?_, h.arrows.imp fun _ _ ha => ha.followsSegment htwins⟩
    · rw [h.markers kind]
      exact List.filterMap_congr fun e he => hmarked e (List.mem_filter.mp he).1
    · rw [h.names]
      congr 1
      exact List.filterMap_congr fun e he => by rw [hmarked e he]

/--
A model in which an element has a position is drawn, and the drawing shows the last positions: each
element of which the id is placed is marked, in the group of its kind, at the last position that an
element with its id has, its name stands there too, and each relation whose ends are placed has one
arrow, between the last positions of its ends. It shows the layout, each element with a position at
its own one and no other element, and the arrows where crossings are counted, exactly if elements that
share an id have the same position or none of them has one.
-/
theorem drawing_shows_layout (m : Model) (h : ∃ e ∈ m.elements, e.position.isSome = true)
    (findings : List Finding) (path : Text) (style : Style) :
    ∃ d, ofModel m findings path style = .ok d ∧
      d.Shows m style (fun e => (m.placements e.id).getLast?) (JoinsLast m) ∧
      (d.Shows m style (·.position) (FollowsSegment m) ↔ m.TwinsAgree) := by
  obtain ⟨d, hd, hlast⟩ := exists_shows_last h findings path style
  exact ⟨d, hd, hlast, hlast.layout_iff⟩

/-- Two elements share an id and a place, one element has no position, and there are a loop, a
relation that is drawn, and two that lead nowhere. -/
theorem drawing_shows_layout_of_twins :
    let m : Model :=
      { elements := [{ id := "a", name := "A", kind := .system, position := some ⟨1.0, 2.0⟩ },
          { id := "b", name := "B", kind := .person, position := some ⟨3.0, 0.0⟩ },
          { id := "a", name := "C", kind := .person, position := some ⟨1.0, 2.0⟩ },
          { id := "d", name := "D", kind := .person }]
        relations := [{ source := "b", target := "a" }, { source := "a", target := "a" },
          { source := "a", target := "d" }, { source := "c", target := "b" }] }
    (∃ e ∈ m.elements, e.position.isSome = true) ∧ m.TwinsAgree ∧
      ∃ d, ofModel m [.ofIsolated "d"] "layout.png" = .ok d ∧
        d.Shows m {} (·.position) (FollowsSegment m) := by
  intro m
  have hplaced : ∃ e ∈ m.elements, e.position.isSome = true := ⟨_, List.mem_cons_self, rfl⟩
  have htwins : m.TwinsAgree := by
    unfold Model.TwinsAgree
    decide +kernel
  obtain ⟨d, hd, -, hlayout⟩ := drawing_shows_layout m hplaced [.ofIsolated "d"] "layout.png" {}
  exact ⟨hplaced, htwins, d, hd, hlayout.mpr htwins⟩

/-- An element without a position that shares its id with one that has a position is drawn upon it:
two markers where one element has a position. -/
theorem unplaced_twin_is_drawn :
    let m : Model :=
      { elements := [{ id := "a", name := "A", kind := .system, position := some ⟨0.0, 0.0⟩ },
          { id := "a", name := "B", kind := .system }] }
    (∃ e ∈ m.elements, e.position.isSome = true) ∧
      ¬∃ d, ofModel m [] "layout.png" = .ok d ∧ d.Shows m {} (·.position) (FollowsSegment m) := by
  intro m
  refine ⟨⟨_, List.mem_cons_self, rfl⟩, ?_⟩
  rintro ⟨d, hd, hshows⟩
  have hmarkers := hshows.markers .system
  obtain rfl := Except.ok.inj hd
  exact absurd hmarkers (by decide +kernel)

end Drawing

end Landscape
