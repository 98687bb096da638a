import Landscape.Layout.Quality
import Landscape.Proofs.Json.Numbers
import Landscape.Proofs.Text.Encoding

/-!
# Fingerprints of graphs

A fingerprint is computed from one line for each element and each relation, and an id stands in its
line as it is. Ids in which no line seems to begin leave the lines as they were; sources without an
arrow leave the ends of a relation as they were. Then equal bytes come from equal graphs, and so do
equal fingerprints unless two digests collide. Other ids can imitate lines and arrows: hardly any
graph is the only one that has its fingerprint.
-/

namespace Landscape

namespace Number

/-- Different doubles have different texts. -/
theorem text_injective : Function.Injective text := by
  intro x y h
  by_cases hfinite : 'n' ∈ (text x).toList
  · have hword (z : Float) (hz : 'n' ∈ (text z).toList) : z = notANumber ∧ text z = "nan" ∨
        ∃ negative, z = signed negative infinity ∧ text z = withSign negative "inf" :=
      (text_cases z).resolve_left fun hfinite => finite_iff_notMem_text.mp hfinite hz
    rcases hword x hfinite, hword y (h ▸ hfinite) with ⟨⟨rfl, hx⟩ | ⟨b, rfl, hx⟩,
      ⟨rfl, hy⟩ | ⟨c, rfl, hy⟩⟩
    · rfl
    · exact absurd (hx.symm.trans (h.trans hy)) (by cases c <;> decide)
    · exact absurd (hx.symm.trans (h.trans hy)) (by cases b <;> decide)
    · have hall : ∀ b c, withSign b "inf" = withSign c "inf" → b = c := by decide
      rw [hall b c (hx.symm.trans (h.trans hy))]
  · obtain ⟨_, _, _, hx⟩ := finite_iff_notMem_text.mpr hfinite
    obtain ⟨_, _, _, hy⟩ := finite_iff_notMem_text.mpr (h ▸ hfinite)
    have hend : Json.Delimited [] := fun c hc => nomatch hc
    have hread := Json.number_text hx hend
    rw [h, Json.number_text hy hend] at hread
    simpa using hread.symm

end Number

namespace Layout

/-- Where a text is cut is determined if neither first part goes on in the second one. -/
theorem cut_inj {t t' u u' : Text} (h : t ++ u = t' ++ u')
    (hmore : ∀ more, t' = t ++ more → u = more ++ u' → more = [])
    (hmore' : ∀ more, t = t' ++ more → u' = more ++ u → more = []) : t = t' ∧ u = u' := by
  have ht : t = t' := by
    rcases List.append_eq_append_iff.mp h with ⟨more, ht, hu⟩ | ⟨more, ht, hu⟩
    · rw [ht, hmore more ht hu, List.append_nil]
    · rw [ht, hmore' more ht hu, List.append_nil]
  subst ht
  exact ⟨rfl, List.append_cancel_left h⟩

/-- A text is cut at the last separator. -/
theorem cut_at_last {s : Symbol} {t t' u u' : Text} (hu : s ∉ u) (hu' : s ∉ u')
    (h : t ++ s :: u = t' ++ s :: u') : t = t' ∧ u = u' := by
  have hnil {more u u' : Text} (hu : s ∉ u) (h : s :: u = more ++ s :: u') : more = [] := by
    cases more with
    | nil => rfl
    | cons a more =>
      rw [(List.cons.inj h).2] at hu
      exact absurd (List.mem_append_right more List.mem_cons_self) hu
  obtain ⟨ht, hcut⟩ := cut_inj h (fun _ _ => hnil hu) (fun _ _ => hnil hu')
  exact ⟨ht, (List.cons.inj hcut).2⟩

/-- A text is cut at the first arrow. -/
theorem cut_at_arrow {s s' t t' : Text} (hs : ¬("->" : Text) <:+: s)
    (hs' : ¬("->" : Text) <:+: s') (h : s ++ ("->" ++ t) = s' ++ ("->" ++ t')) :
    s = s' ∧ t = t' := by
  have hnil {s s' t t' more : Text} (hs : ¬("->" : Text) <:+: s') (hmore : s' = s ++ more)
      (h : .char '-' :: .char '>' :: t = more ++ .char '-' :: .char '>' :: t') : more = [] := by
    cases more with
    | nil => rfl
    | cons a more =>
      obtain ⟨rfl, htail⟩ := List.cons.inj h
      cases more with
      | nil => exact absurd (List.cons.inj htail).1 (by decide)
      | cons b more =>
        obtain ⟨rfl, -⟩ := List.cons.inj htail
        exact absurd ⟨s, more, hmore ▸ List.append_assoc s _ more⟩ hs
  obtain ⟨hs, hcut⟩ := cut_inj h (fun _ => hnil hs') (fun _ => hnil hs)
  exact ⟨hs, List.append_cancel_left hcut⟩

/-- What a line of a fingerprint begins with. -/
def lineHeads : List Text := ["n:", "e:"]

/-- A line: it begins and ends like one, and no other one seems to begin within it. -/
structure IsLine (line : Text) : Prop where
  head : ∃ head ∈ lineHeads, head <+: line
  feed : ("\n" : Text) <:+ line
  unbroken : ∀ head ∈ lineHeads, ¬("\n" ++ head : Text) <:+: line

/-- What follows a line: another one, or nothing. -/
def Continues (rest : Text) : Prop := rest = [] ∨ ∃ head ∈ lineHeads, head <+: rest

theorem continues_flatten {lines : List Text} (h : ∀ line ∈ lines, IsLine line) :
    Continues lines.flatten := by
  cases lines with
  | nil => exact .inl rfl
  | cons line rest =>
    obtain ⟨head, hmem, hhead⟩ := (h line List.mem_cons_self).head
    exact .inr ⟨head, hmem, hhead.trans (List.prefix_append _ _)⟩

/-- A line does not go on in a text that continues it. -/
theorem IsLine.eq_nil_of_append {line more rest : Text} (hline : IsLine line)
    (hmore : IsLine (line ++ more)) (hrest : Continues (more ++ rest)) : more = [] := by
  by_contra hne
  have hfeed : .char '\n' ∈ more := by
    obtain ⟨body, hbody⟩ := hmore.feed
    have hlast : (line ++ more).getLast? = some (.char '\n') :=
      hbody ▸ List.getLast?_append_of_ne_nil body (by decide)
    rw [List.getLast?_append_of_ne_nil line hne] at hlast
    exact List.mem_of_getLast? hlast
  rcases hrest with hnil | ⟨head, hmem, hhead⟩
  · exact hne (List.append_eq_nil_iff.mp hnil).1
  rcases List.prefix_or_prefix_of_prefix hhead (List.prefix_append more rest) with hle | hle
  · obtain ⟨body, hbody⟩ := hline.feed
    obtain ⟨tail, htail⟩ := hle
    refine hmore.unbroken head hmem ⟨body, tail, ?_⟩
    rw [← hbody, ← htail]
    simp only [List.append_assoc]
  · have hall : ∀ head ∈ lineHeads, .char '\n' ∉ head := by decide
    exact hall head hmem (hle.subset hfeed)

/-- Lines in a row are told apart. -/
theorem eq_of_flatten_eq {lines lines' : List Text} (h : ∀ line ∈ lines, IsLine line)
    (h' : ∀ line ∈ lines', IsLine line) (heq : lines.flatten = lines'.flatten) :
    lines = lines' := by
  have hnonempty {line : Text} (hline : IsLine line) : line ≠ [] := by
    obtain ⟨body, rfl⟩ := hline.feed
    exact List.append_ne_nil_of_right_ne_nil body (by decide)
  induction lines generalizing lines' with
  | nil =>
    cases lines' with
    | nil => rfl
    | cons line' rest' =>
      rw [List.flatten_nil, List.flatten_cons, eq_comm, List.append_eq_nil_iff] at heq
      exact absurd heq.1 (hnonempty (h' line' List.mem_cons_self))
  | cons line rest ih =>
    cases lines' with
    | nil =>
      rw [List.flatten_nil, List.flatten_cons, List.append_eq_nil_iff] at heq
      exact absurd heq.1 (hnonempty (h line List.mem_cons_self))
    | cons line' rest' =>
      rw [List.forall_mem_cons] at h h'
      rw [List.flatten_cons, List.flatten_cons] at heq
      obtain ⟨rfl, hrest⟩ := cut_inj heq
        (fun more hline hrest =>
          h.1.eq_nil_of_append (hline ▸ h'.1) (hrest ▸ continues_flatten h.2))
        (fun more hline hrest =>
          h'.1.eq_nil_of_append (hline ▸ h.1) (hrest ▸ continues_flatten h'.2))
      rw [ih h.2 h'.2 hrest]

/-- Items that agree in one respect agree in another one if it depends on the first. -/
theorem map_eq_map_of_forall {α β γ : Type} {f : α → β} {g : α → γ} {as bs : List α}
    (hfg : ∀ a ∈ as, ∀ b ∈ bs, f a = f b → g a = g b) (h : as.map f = bs.map f) :
    as.map g = bs.map g := by
  induction as generalizing bs with
  | nil =>
    obtain rfl := List.map_eq_nil_iff.mp h.symm
    rfl
  | cons a as ih =>
    obtain ⟨b, bs, rfl, hb, hbs⟩ := List.map_eq_cons_iff.mp h.symm
    have hrest := ih (fun a ha b hb => hfg a (List.mem_cons_of_mem _ ha) b (List.mem_cons_of_mem _ hb))
      hbs.symm
    rw [List.map_cons, List.map_cons, hfg a List.mem_cons_self b List.mem_cons_self hb.symm, hrest]

variable {m m' : Model} {e e' : Element} {r r' : Relation} {bytes bytes' : List UInt8}

/-- The two ends of a relation with an arrow between them. -/
def arrowText (r : Relation) : Text := r.source ++ ("->" ++ r.target)

/-- A line for an element says its id. -/
theorem elementLine_inj (h : elementLine e = elementLine e') : e.id = e'.id :=
  List.append_cancel_left (List.append_cancel_right h)

/-- A line for a relation is the arrow and the weight behind a colon. -/
theorem relationLine_eq (r : Relation) : relationLine r =
    "e:" ++ (arrowText r ++ .char ':' :: Text.ofString (Number.text r.weight)) ++ "\n" := by
  unfold relationLine arrowText
  simp only [List.append_assoc]
  rfl

/-- The text of a weight holds no character that is in no number. -/
theorem notMem_weightText {c : Char} (hdigit : c.isDigit = false) (hc : c ∉ ".e-+naif".toList)
    (x : Float) : .char c ∉ Text.ofString (Number.text x) := by
  intro hmem
  obtain ⟨d, hd, hcd⟩ := List.mem_map.mp hmem
  exact Number.notMem_text hdigit hc x (Symbol.char.inj hcd ▸ hd)

/-- A line for a relation says its arrow and its weight. -/
theorem relationLine_inj (h : relationLine r = relationLine r') :
    (arrowText r, r.weight) = (arrowText r', r'.weight) := by
  have hcolon := notMem_weightText (c := ':') (by decide) (by decide)
  rw [relationLine_eq, relationLine_eq] at h
  obtain ⟨harrow, hweight⟩ := cut_at_last (hcolon r.weight) (hcolon r'.weight)
    (List.append_cancel_left (List.append_cancel_right h))
  rw [harrow, Number.text_injective (Text.ofString_inj.mp hweight)]

/-- Lines for elements and lines for relations are kept apart. -/
theorem fingerprintLines_inj (h : fingerprintLines m = fingerprintLines m') :
    m.elements.map elementLine = m'.elements.map elementLine ∧
      m.relations.map relationLine = m'.relations.map relationLine := by
  have hfilter (m : Model) : (fingerprintLines m).filter (·.head? == some (.char 'n')) =
      m.elements.map elementLine := by
    have helements : ∀ line ∈ m.elements.map elementLine, line.head? == some (.char 'n') :=
      List.forall_mem_map.mpr fun _ _ => rfl
    have hrelations : ∀ line ∈ m.relations.map relationLine, ¬line.head? == some (.char 'n') :=
      List.forall_mem_map.mpr fun _ _ => (by decide : ¬some (Symbol.char 'e') == some (.char 'n'))
    unfold fingerprintLines
    rw [List.filter_append, List.filter_eq_self.mpr helements,
      List.filter_eq_nil_iff.mpr hrelations, List.append_nil]
  have helements : m.elements.map elementLine = m'.elements.map elementLine := by
    rw [← hfilter m, h, hfilter m']
  refine ⟨helements, ?_⟩
  unfold fingerprintLines at h
  rw [helements] at h
  exact List.append_cancel_left h

/-- The bytes for a fingerprint are those of the lines in a row. -/
theorem fingerprintBytes_eq_ok_iff :
    fingerprintBytes m = .ok bytes ↔ Text.encodeUtf8 (fingerprintLines m).flatten = .ok bytes := by
  rw [Text.encodeUtf8_flatten_eq_ok_iff]
  unfold fingerprintBytes
  cases (fingerprintLines m).mapM Text.encodeUtf8 with
  | error e => simp [Except.mapError]
  | ok parts => simp [Except.mapError, pure_eq_ok, eq_comm]

/-- There are bytes for a fingerprint exactly when the ids have bytes. -/
theorem exists_fingerprintBytes_iff : (∃ bytes, fingerprintBytes m = .ok bytes) ↔
    (∀ e ∈ m.elements, ∃ bytes, Text.encodeUtf8 e.id = .ok bytes) ∧
      ∀ r ∈ m.relations, (∃ bytes, Text.encodeUtf8 r.source = .ok bytes) ∧
        ∃ bytes, Text.encodeUtf8 r.target = .ok bytes := by
  simp only [fingerprintBytes_eq_ok_iff, Text.exists_encodeUtf8_flatten, fingerprintLines,
    List.forall_mem_append, List.forall_mem_map, elementLine, relationLine,
    Text.exists_encodeUtf8_append, Text.exists_encodeUtf8_ofString, true_and, and_true]

/-- Equal bytes are those of equal texts. -/
theorem bytes_eq_iff (h : fingerprintBytes m = .ok bytes) (h' : fingerprintBytes m' = .ok bytes') :
    bytes = bytes' ↔ (fingerprintLines m).flatten = (fingerprintLines m').flatten := by
  rw [fingerprintBytes_eq_ok_iff] at h h'
  constructor
  · rintro rfl
    exact Text.encodeUtf8_inj h h'
  · intro htext
    rw [htext, h'] at h
    exact (Except.ok.inj h).symm

/-- No line of a model seems to begin within another one. -/
def Unbroken (m : Model) : Prop :=
  ∀ line ∈ fingerprintLines m, ∀ head ∈ lineHeads, ¬("\n" ++ head : Text) <:+: line

/-- No line seems to begin in a text whose only line feed is at its end. -/
theorem not_infix_of_notMem {body : Text} (hbody : .char '\n' ∉ body) :
    ∀ head ∈ lineHeads, ¬("\n" ++ head : Text) <:+: body ++ "\n" := by
  intro head hmem hwithin
  rcases List.infix_concat_iff.mp hwithin with ⟨before, hbefore⟩ | hwithin
  · have hcolon : ∀ head ∈ lineHeads, ("\n" ++ head : Text).getLast? = some (.char ':') := by decide
    have hne : ("\n" ++ head : Text) ≠ [] := List.cons_ne_nil _ _
    have hlast := congrArg List.getLast? hbefore
    rw [List.getLast?_append_of_ne_nil before hne, hcolon head hmem, List.getLast?_concat] at hlast
    exact absurd hlast (by decide)
  · exact hbody (hwithin.subset List.mem_cons_self)

/-- A model is unbroken if no id in it has a line feed. -/
theorem unbroken_of_notMem (hids : ∀ e ∈ m.elements, .char '\n' ∉ e.id)
    (hends : ∀ r ∈ m.relations, .char '\n' ∉ r.source ∧ .char '\n' ∉ r.target) : Unbroken m := by
  have hpart : ∀ part ∈ (["n:", "e:", "->", ":"] : List Text), .char '\n' ∉ part := by decide
  intro line hline
  rcases List.mem_append.mp hline with he | hr
  · obtain ⟨e, hmem, rfl⟩ := List.mem_map.mp he
    exact not_infix_of_notMem (List.not_mem_append (hpart _ (by decide)) (hids e hmem))
  · obtain ⟨r, hmem, rfl⟩ := List.mem_map.mp hr
    obtain ⟨hsource, htarget⟩ := hends r hmem
    refine not_infix_of_notMem ?_
    simp only [List.mem_append, not_or]
    exact ⟨⟨⟨⟨⟨hpart _ (by decide), hsource⟩, hpart _ (by decide)⟩, htarget⟩, hpart _ (by decide)⟩,
      notMem_weightText (by decide) (by decide) r.weight⟩

/-- The lines of an unbroken model are lines. -/
theorem Unbroken.isLine (hm : Unbroken m) : ∀ line ∈ fingerprintLines m, IsLine line := by
  intro line hmem
  rcases List.mem_append.mp hmem with he | hr
  · obtain ⟨e, -, rfl⟩ := List.mem_map.mp he
    refine ⟨⟨"n:", by decide, ?_⟩, List.suffix_append _ _, hm _ hmem⟩
    exact (List.prefix_append _ _).trans (List.prefix_append _ _)
  · obtain ⟨r, -, rfl⟩ := List.mem_map.mp hr
    refine ⟨⟨"e:", by decide, ?_⟩, List.suffix_append _ _, hm _ hmem⟩
    rw [relationLine_eq]
    exact (List.prefix_append _ _).trans (List.prefix_append _ _)

/-- Models that declare the same ids, arrows and weights in the same order. -/
structure SameArrows (m m' : Model) : Prop where
  ids : m.elements.map (·.id) = m'.elements.map (·.id)
  arrows : m.relations.map (fun r => (arrowText r, r.weight)) =
    m'.relations.map fun r => (arrowText r, r.weight)

/-- Models that declare the same ids and the same relations in the same order. -/
structure SameGraph (m m' : Model) : Prop where
  ids : m.elements.map (·.id) = m'.elements.map (·.id)
  relations : m.relations.map (fun r => (r.source, r.target, r.weight)) =
    m'.relations.map fun r => (r.source, r.target, r.weight)

/-- The lines of a model are determined by what they say. -/
theorem SameArrows.fingerprintLines_eq (h : SameArrows m m') :
    fingerprintLines m = fingerprintLines m' := by
  have hids : m.elements.map elementLine = m'.elements.map elementLine := by
    refine map_eq_map_of_forall (fun e _ e' _ hid => ?_) h.ids
    unfold elementLine
    rw [hid]
  have harrows : m.relations.map relationLine = m'.relations.map relationLine := by
    refine map_eq_map_of_forall (fun r _ r' _ harrow => ?_) h.arrows
    obtain ⟨harrow, hweight⟩ := Prod.mk.inj harrow
    rw [relationLine_eq, relationLine_eq, harrow, hweight]
  rw [fingerprintLines, hids, harrows, fingerprintLines]

/-- Sources without an arrow tell which relation an arrow stands for. -/
theorem sameArrows_iff_sameGraph
    (hsources : ∀ r ∈ m.relations ++ m'.relations, ¬("->" : Text) <:+: r.source) :
    SameArrows m m' ↔ SameGraph m m' := by
  rw [List.forall_mem_append] at hsources
  constructor
  · rintro ⟨hids, harrows⟩
    refine ⟨hids, map_eq_map_of_forall (fun r hr r' hr' h => ?_) harrows⟩
    obtain ⟨harrow, hweight⟩ := Prod.mk.inj h
    obtain ⟨hsource, htarget⟩ := cut_at_arrow (hsources.1 r hr) (hsources.2 r' hr') harrow
    rw [hsource, htarget, hweight]
  · rintro ⟨hids, hrelations⟩
    refine ⟨hids, map_eq_map_of_forall (fun r _ r' _ h => ?_) hrelations⟩
    obtain ⟨hsource, h⟩ := Prod.mk.inj h
    obtain ⟨htarget, hweight⟩ := Prod.mk.inj h
    rw [arrowText, arrowText, hsource, htarget, hweight]

/-- The bytes for the fingerprints of two unbroken models are equal exactly when the models have the
same ids, arrows and weights. If moreover no source holds an arrow, they are equal exactly when the
models are the same graph, and equal fingerprints are those of the same graph unless the digests of
different bytes collide. -/
theorem fingerprint_tells_graphs (h : fingerprintBytes m = .ok bytes)
    (h' : fingerprintBytes m' = .ok bytes') (hm : Unbroken m) (hm' : Unbroken m') :
    (bytes = bytes' ↔ SameArrows m m') ∧
    ((∀ r ∈ m.relations ++ m'.relations, ¬("->" : Text) <:+: r.source) →
      (bytes = bytes' ↔ SameGraph m m') ∧
      (fingerprint m = fingerprint m' →
        SameGraph m m' ∨ bytes ≠ bytes' ∧ fingerprintOf bytes = fingerprintOf bytes')) := by
  have hbytes : bytes = bytes' ↔ SameArrows m m' := by
    rw [bytes_eq_iff h h']
    constructor
    · intro heq
      obtain ⟨helements, hrelations⟩ :=
        fingerprintLines_inj (eq_of_flatten_eq hm.isLine hm'.isLine heq)
      exact ⟨map_eq_map_of_forall (fun _ _ _ _ => elementLine_inj) helements,
        map_eq_map_of_forall (fun _ _ _ _ => relationLine_inj) hrelations⟩
    · intro hsame
      rw [hsame.fingerprintLines_eq]
  refine ⟨hbytes, fun hsources => ?_⟩
  have hgraph : bytes = bytes' ↔ SameGraph m m' :=
    hbytes.trans (sameArrows_iff_sameGraph hsources)
  refine ⟨hgraph, fun hequal => ?_⟩
  by_cases hsame : bytes = bytes'
  · exact .inl (hgraph.mp hsame)
  · rw [fingerprint, fingerprint, h, h', map_ok, map_ok] at hequal
    exact .inr ⟨hsame, Except.ok.inj hequal⟩

/-- A relation is told from the one the other way round. -/
theorem fingerprint_tells_graphs_of_reversal :
    let a : Element := ⟨"A", "A", .system, none, none, none⟩
    let b : Element := ⟨"B", "B", .system, none, none, none⟩
    let m : Model := { elements := [a, b], relations := [{ source := "A", target := "B" }] }
    let m' : Model := { elements := [a, b], relations := [{ source := "B", target := "A" }] }
    ∃ bytes bytes', fingerprintBytes m = .ok bytes ∧ fingerprintBytes m' = .ok bytes' ∧
      Unbroken m ∧ Unbroken m' ∧ bytes ≠ bytes' := by
  intro a b m m'
  obtain ⟨bytes, h⟩ := (exists_fingerprintBytes_iff (m := m)).mpr (by simp [m, a, b])
  obtain ⟨bytes', h'⟩ := (exists_fingerprintBytes_iff (m := m')).mpr (by simp [m', a, b])
  have hm : Unbroken m := unbroken_of_notMem (by decide) (by decide)
  have hm' : Unbroken m' := unbroken_of_notMem (by decide) (by decide)
  have hgraph := ((fingerprint_tells_graphs h h' hm hm').2 (by decide)).1
  refine ⟨bytes, bytes', h, h', hm, hm', fun hbytes => ?_⟩
  have hends := congrArg (List.map Prod.fst) (hgraph.mp hbytes).relations
  exact absurd hends (by decide)

/-- Hardly any graph is the only one that has its fingerprint: where there are two lines, one line
can stand for both. -/
theorem exists_imitation (h : fingerprintBytes m = .ok bytes)
    (hlines : 2 ≤ m.elements.length + m.relations.length) :
    ∃ m', fingerprintBytes m' = .ok bytes ∧
      m'.elements.length + m'.relations.length < m.elements.length + m.relations.length := by
  simp only [fingerprintBytes_eq_ok_iff] at h ⊢
  obtain ⟨elements, relations, matrix⟩ := m
  rcases elements with - | ⟨e, - | ⟨e', es⟩⟩
  · rcases relations with - | ⟨r, - | ⟨r', rs⟩⟩
    · exact absurd hlines (by simp)
    · exact absurd hlines (by simp)
    · let both : Relation := { r' with
        source := r.source
        target := r.target ++ ":" ++ Number.text r.weight ++ "\n" ++ "e:" ++ arrowText r' }
      refine ⟨{ relations := both :: rs }, ?_, by simp⟩
      rw [← h]
      simp [fingerprintLines, relationLine, arrowText, both]
  · rcases relations with - | ⟨r, rs⟩
    · exact absurd hlines (by simp)
    · let both : Element := { e with
        id := e.id ++ "\n" ++ "e:" ++ arrowText r ++ ":" ++ Number.text r.weight }
      refine ⟨{ elements := [both], relations := rs }, ?_, by simp⟩
      rw [← h]
      simp [fingerprintLines, elementLine, relationLine, arrowText, both]
  · let both : Element := { e with id := e.id ++ "\n" ++ "n:" ++ e'.id }
    refine ⟨{ elements := both :: es, relations }, ?_, by simp⟩
    rw [← h]
    simp [fingerprintLines, elementLine, both]

/-- An id that holds a line for another element, and an arrow that can be cut in two ways. -/
theorem different_graphs_share_bytes :
    let element (id : Text) : Element := ⟨id, id, .system, none, none, none⟩
    let relation (source target : Text) : Relation := { source, target }
    (∃ bytes, fingerprintBytes { elements := [element "A\nn:B"] } = .ok bytes ∧
        fingerprintBytes { elements := [element "A", element "B"] } = .ok bytes) ∧
      [element "A\nn:B"].map (·.id) ≠ [element "A", element "B"].map (·.id) ∧
      (∃ bytes, fingerprintBytes { relations := [relation "A->B" "C"] } = .ok bytes ∧
        fingerprintBytes { relations := [relation "A" "B->C"] } = .ok bytes) ∧
      [relation "A->B" "C"].map (fun r => (r.source, r.target, r.weight)) ≠
        [relation "A" "B->C"].map fun r => (r.source, r.target, r.weight) := by
  intro element relation
  have hrelation : relationLine (relation "A->B" "C") = relationLine (relation "A" "B->C") := by
    rw [relationLine_eq, relationLine_eq]
    rfl
  refine ⟨?_, by decide, ?_, ?_⟩
  · obtain ⟨bytes, h⟩ := (exists_fingerprintBytes_iff
      (m := { elements := [element "A\nn:B"] })).mpr (by simp [element])
    exact ⟨bytes, h, fingerprintBytes_eq_ok_iff.mpr (fingerprintBytes_eq_ok_iff.mp h)⟩
  · obtain ⟨bytes, h⟩ := (exists_fingerprintBytes_iff
      (m := { relations := [relation "A->B" "C"] })).mpr (by simp [relation])
    refine ⟨bytes, h, ?_⟩
    rw [← h, fingerprintBytes, fingerprintBytes, fingerprintLines, fingerprintLines]
    simp only [List.map_cons, hrelation]
  · intro h
    have hends := congrArg (List.map Prod.fst) h
    exact absurd hends (by decide)

end Layout

end Landscape
