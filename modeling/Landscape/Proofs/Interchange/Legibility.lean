import Landscape.Proofs.Interchange.Origins
import Landscape.Proofs.Json.Acceptance
import Landscape.Storage

/-!
# Legible models

What is written for a model can be read back when its texts and values can, and then so can those of
every model that comes from such a source: values are handed on as they stand, and a spelling that
is made up for a value consists of characters. The values in a model lie three levels below the
document that it is read from, and again below the one that is written for it.
-/

namespace Landscape

/-- An element whose texts can be read back, and its values with so many levels of nesting. -/
structure Element.Fits (levels : Nat) (e : Element) : Prop where
  id : Json.IsJoined e.id
  name : Json.IsJoined e.name
  technology : ∀ d ∈ e.technology, d.Fits levels
  description : ∀ d ∈ e.description, d.Fits levels

/-- A relation whose texts can be read back, and its values with so many levels of nesting. -/
structure Relation.Fits (levels : Nat) (r : Relation) : Prop where
  source : Json.IsJoined r.source
  target : Json.IsJoined r.target
  label : ∀ d ∈ r.label, d.Fits levels

/-- A model whose texts, values and counts can be read back. -/
structure Model.Fits (levels : Nat) (m : Model) : Prop where
  elements : ∀ e ∈ m.elements, e.Fits levels
  relations : ∀ r ∈ m.relations, r.Fits levels
  element_count : m.elements.length < 10 ^ Number.maxDigits
  relation_count : m.relations.length < 10 ^ Number.maxDigits

/-- A source whose text or values can be read back. -/
def Source.Legible : Source → Prop
  | .description t => Json.IsJoined t
  | .document d => d.Legible

/-- How many lists and records of a source are nested in each other. -/
def Source.nesting : Source → Nat
  | .description _ => 0
  | .document d => d.nesting

namespace Json

/-- A string has no halves to be joined. -/
theorem isJoined_ofString (s : String) : IsJoined s := isJoined_ofChars s.toList

/-- A part of a text has no halves to be joined if the text has none. -/
theorem IsJoined.part {part t : Text} (ht : IsJoined t) (h : part <:+: t) : IsJoined part := by
  obtain ⟨before, after, rfl⟩ := h
  exact (List.IsChain.left_of_append ht).right_of_append

/-- A text that can be read back is a value that can. -/
theorem fits_text {t : Text} (ht : IsJoined t) (levels : Nat) : (Json.text t).Fits levels :=
  .scalar (s := .text t) ht levels

/-- A double can be read back. -/
theorem fits_float (x : Float) (levels : Nat) : (Json.float x).Fits levels :=
  .scalar (s := .float x) trivial levels

/-- The text that a legible value stands for can be read back. -/
theorem Legible.isJoined_of_asText {d : Json} {t : Text} (h : d.Legible)
    (ht : d.asText = .ok t) : IsJoined t := by
  rcases asText_eq_ok ht with rfl | ⟨-, rfl⟩
  · cases h with
    | scalar hs => exact hs
  · exact isJoined_ofString _

/-- The integers of a legible value have not too many digits. -/
theorem Legible.natAbs_lt {d : Json} (h : d.Legible) :
    ∀ n ∈ d.integers, n.natAbs < 10 ^ Number.maxDigits := by
  induction h with
  | @scalar s hs =>
    cases s with
    | int n =>
      rw [integers]
      exact List.forall_mem_singleton.mpr hs
    | _ => exact List.forall_mem_nil _
  | list _ ih =>
    intro n hn
    rw [integers] at hn
    obtain ⟨x, hx, hn⟩ := mem_integersOfItems.mp hn
    exact ih x hx n hn
  | record _ _ _ ih =>
    intro n hn
    rw [integers] at hn
    obtain ⟨f, hf, hn⟩ := mem_integersOfFields.mp hn
    exact ih f hf n hn

/-- Nothing is in the way of following a value that can be read back, however shallowly. -/
theorem Fits.not_obstacle {levels levels' : Nat} {d : Json} (h : d.Fits levels)
    (hle : levels ≤ levels') (deep : Nesting) (e : Error) : ¬d.Obstacle levels' deep e :=
  Json.not_obstacle ((filled_le_nesting d).trans (h.nesting_le.trans hle)) h.legible.natAbs_lt

/-- A field lies one level below its record. -/
theorem Fits.get? {levels : Nat} {d v : Json} {name : Text} (h : d.Fits (levels + 1))
    (hget : d.get? name = some v) : v.Fits levels := by
  cases d with
  | scalar s => cases hget
  | list xs => cases hget
  | record fs =>
    obtain ⟨before, after, rfl, -⟩ := List.lookup_eq_some_iff.mp hget
    exact h.fields.values (name, v) (by simp)

/-- A given field lies one level below its record. -/
theorem Fits.given? {levels : Nat} {d v : Json} {name : Text} (h : d.Fits (levels + 1))
    (hgiven : v ∈ d.given? name) : v.Fits levels :=
  h.get? (given?_eq_some_iff.mp hgiven).1

/-- The name of a field that may be left out stands at most once. -/
theorem keys_fieldOf (name : Text) (value : Option Json) :
    (Entries.keys (fieldOf name value)).Sublist [name] := by
  cases value with
  | none => exact List.nil_sublist _
  | some d => exact List.Sublist.refl _

/-- A field that may be left out has its name and its value. -/
theorem mem_fieldOf {name : Text} {value : Option Json} {f : Text × Json} :
    f ∈ fieldOf name value ↔ f.1 = name ∧ f.2 ∈ value := by
  obtain ⟨k, d⟩ := f
  cases value with
  | none => simp [fieldOf]
  | some d' => simp [fieldOf, eq_comm]

end Json

variable {levels : Nat}

/-- What is written for an element lies one level above its values and its position. -/
theorem Element.Fits.toJson {e : Element} (h : e.Fits levels) (hlevels : 1 ≤ levels) :
    e.toJson.Fits (levels + 1) := by
  have hposition : ∀ d ∈ e.position.map (fun p => Json.list [.float p.x, .float p.y]),
      d.Fits levels := by
    intro d hd
    obtain ⟨p, -, rfl⟩ := Option.map_eq_some_iff.mp hd
    have hpair : (Json.list [.float p.x, .float p.y]).Fits 1 := by
      refine .list fun x hx => ?_
      rcases List.mem_pair.mp hx with rfl | rfl
      · exact Json.fits_float _ 0
      · exact Json.fits_float _ 0
    exact hpair.mono hlevels
  refine Json.FieldsFit.record ⟨?_, ?_, ?_⟩
  · have hnames : ([("id" : Text), "name", "type"] ++ [("technology" : Text)] ++
        [("description" : Text)] ++ [("position" : Text)]).Nodup := by decide
    refine List.Nodup.sublist ?_ hnames
    simp only [Entries.keys, List.map_append]
    exact (((List.Sublist.refl _).append (Json.keys_fieldOf _ _)).append
      (Json.keys_fieldOf _ _)).append (Json.keys_fieldOf _ _)
  · intro f hf
    simp only [List.mem_append, List.mem_cons, List.not_mem_nil, or_false, Json.mem_fieldOf] at hf
    rcases hf with (((rfl | rfl | rfl) | ⟨hname, -⟩) | ⟨hname, -⟩) | ⟨hname, -⟩
    · exact Json.isJoined_ofString _
    · exact Json.isJoined_ofString _
    · exact Json.isJoined_ofString _
    · exact hname ▸ Json.isJoined_ofString _
    · exact hname ▸ Json.isJoined_ofString _
    · exact hname ▸ Json.isJoined_ofString _
  · intro f hf
    simp only [List.mem_append, List.mem_cons, List.not_mem_nil, or_false, Json.mem_fieldOf] at hf
    rcases hf with (((rfl | rfl | rfl) | ⟨-, hd⟩) | ⟨-, hd⟩) | ⟨-, hd⟩
    · exact Json.fits_text h.id levels
    · exact Json.fits_text h.name levels
    · exact Json.fits_text (Json.isJoined_ofString _) levels
    · exact h.technology _ hd
    · exact h.description _ hd
    · exact hposition _ hd

/-- What is written for a relation lies one level above its label. -/
theorem Relation.Fits.toJson {r : Relation} (h : r.Fits levels) : r.toJson.Fits (levels + 1) := by
  have hlabel : (r.label.getD .null).Fits levels := by
    cases hr : r.label with
    | none => exact .scalar (s := .null) trivial levels
    | some d => exact h.label d hr
  refine Json.FieldsFit.record ⟨?_, ?_, ?_⟩
  · exact (by decide : ([("from" : Text), "to", "label", "weight"]).Nodup)
  · simp only [List.forall_mem_cons]
    exact ⟨Json.isJoined_ofString _, Json.isJoined_ofString _, Json.isJoined_ofString _,
      Json.isJoined_ofString _, List.forall_mem_nil _⟩
  · simp only [List.forall_mem_cons]
    exact ⟨Json.fits_text h.source _, Json.fits_text h.target _, hlabel, Json.fits_float _ _,
      List.forall_mem_nil _⟩

/-- What is written for a model lies three levels above the values in it. -/
theorem Model.Fits.toJson {m : Model} (h : m.Fits levels) (hlevels : 1 ≤ levels) :
    m.toJson.Fits (levels + 3) := by
  have hnodes : (Json.list (m.elements.map Element.toJson)).Fits (levels + 2) :=
    .list (List.forall_mem_map.mpr fun e he => (h.elements e he).toJson hlevels)
  have hedges : (Json.list (m.relations.map Relation.toJson)).Fits (levels + 2) :=
    .list (List.forall_mem_map.mpr fun r hr => (h.relations r hr).toJson)
  have hcount {n : Nat} (hn : n < 10 ^ Number.maxDigits) : (Json.int n).Fits (levels + 2) :=
    .scalar (s := .int n) hn _
  refine Json.FieldsFit.record ⟨?_, ?_, ?_⟩
  · exact (by decide : ([("nodes" : Text), "edges", "node_count", "edge_count"]).Nodup)
  · simp only [List.forall_mem_cons]
    exact ⟨Json.isJoined_ofString _, Json.isJoined_ofString _, Json.isJoined_ofString _,
      Json.isJoined_ofString _, List.forall_mem_nil _⟩
  · simp only [List.forall_mem_cons]
    exact ⟨hnodes, hedges, hcount h.element_count, hcount h.relation_count, List.forall_mem_nil _⟩

/-- What a file is read as can be read back. -/
theorem Json.fits_of_ofBytes {bytes : List UInt8} {d : Json} (h : Json.ofBytes bytes = .ok d) :
    d.Fits Json.maxDepth := by
  unfold Json.ofBytes at h
  obtain ⟨cs, -, h⟩ := bind_eq_ok_iff.mp h
  have hread := mapError_eq_ok_iff.mp h
  unfold Json.readChars at hread
  split at hread
  next d' hdocument =>
    obtain rfl := Except.ok.inj hread
    exact Json.fits_of_document hdocument
  · cases hread

/-- The values in a described model are texts, which can be read back when the description can. -/
theorem Description.fits_parse {t : Text} (ht : Json.IsJoined t) (levels : Nat) :
    (∀ e ∈ (parse t).elements, e.Fits levels) ∧ ∀ r ∈ (parse t).relations, r.Fits levels := by
  have hpart {part : Option Text} (hpart : PartOf t part) :
      ∀ d ∈ part.map Json.text, d.Fits levels := by
    intro d hd
    obtain ⟨q, hq, rfl⟩ := Option.map_eq_some_iff.mp hd
    exact Json.fits_text (ht.part (hpart q hq)) levels
  refine ⟨fun e he => ?_, fun r hr => ?_⟩
  · obtain ⟨-, hid, hname, hdescription, technology, htechnology, heq⟩ := mem_elements_parse he
    exact ⟨ht.part hid, ht.part hname, heq ▸ hpart htechnology, by
      rw [hdescription]
      rintro _ ⟨⟩⟩
  · obtain ⟨hsource, htarget, label, hlabel, heq⟩ := mem_relations_parse hr
    exact ⟨ht.part hsource, ht.part htarget, heq ▸ hpart hlabel⟩

/-- The values in an element lie one level below the record that it is read from. -/
theorem Element.fits_of_ofJson {d : Json} {e : Element} (hd : d.Fits (levels + 1))
    (h : Element.ofJson d = .ok e) : e.Fits levels := by
  obtain ⟨id, hget, hid, hname, htechnology, hdescription⟩ := Element.ofJson_eq_ok h
  have hid' := (hd.get? hget).legible.isJoined_of_asText hid
  refine ⟨hid', ?_, fun v hv => hd.given? (htechnology ▸ hv),
    fun v hv => hd.given? (hdescription ▸ hv)⟩
  rcases hname with heq | ⟨name, hget', -, heq⟩
  · exact heq ▸ hid'
  · exact (hd.get? hget').legible.isJoined_of_asText heq

/-- The label of a relation lies one level below the record that it is read from. -/
theorem Relation.fits_of_ofJson {d : Json} {r : Relation} (hd : d.Fits (levels + 1))
    (h : Relation.ofJson d = .ok r) : r.Fits levels := by
  obtain ⟨source, target, hget, hget', hsource, htarget, hlabel⟩ := Relation.ofJson_eq_ok h
  exact ⟨(hd.get? hget).legible.isJoined_of_asText hsource,
    (hd.get? hget').legible.isJoined_of_asText htarget, fun v hv => hd.given? (hlabel ▸ hv)⟩

/-- The values in a model lie three levels below the document that it is read from. -/
theorem Model.fits_of_ofJson {d : Json} {m : Model} (hd : d.Fits (levels + 3))
    (h : Model.ofJson d = .ok m) :
    (∀ e ∈ m.elements, e.Fits levels) ∧ ∀ r ∈ m.relations, r.Fits levels := by
  obtain ⟨nodes, edges, hnodes, hedges, helements, hrelations⟩ := Model.ofJson_eq_ok h
  refine ⟨fun e he => ?_, fun r hr => ?_⟩
  · obtain ⟨node, hnode, hread⟩ := helements e he
    exact Element.fits_of_ofJson ((hd.get? hnodes).of_mem node hnode) hread
  · obtain ⟨edge, hedge, hread⟩ := hrelations r hr
    exact Relation.fits_of_ofJson ((hd.get? hedges).of_mem edge hedge) hread

/-- The parts of a model that comes from a legible source can be read back, and the values in them
lie three levels below the source if that is a document. -/
theorem Obtained.parts_fit {source : Source} {m : Model} (h : Obtained source m)
    (hsource : source.Legible) (hlevels : source.nesting ≤ levels + 3) :
    (∀ e ∈ m.elements, e.Fits levels) ∧ ∀ r ∈ m.relations, r.Fits levels :=
  h.forall_mem (P := Element.Fits levels) (Q := Relation.Fits levels)
    (fun e position he => ⟨he.id, he.name, he.technology, he.description⟩)
    (fun m hm => by
      cases source with
      | description t =>
        obtain rfl := Except.ok.inj hm
        exact Description.fits_parse hsource levels
      | document d => exact Model.fits_of_ofJson ⟨hsource, hlevels⟩ hm)

/-- A model that comes from a legible source can be read back if its counts can. -/
theorem Obtained.fits {source : Source} {m : Model} (h : Obtained source m)
    (hsource : source.Legible) (hlevels : source.nesting ≤ levels + 3)
    (helement_count : m.elements.length < 10 ^ Number.maxDigits)
    (hrelation_count : m.relations.length < 10 ^ Number.maxDigits) : m.Fits levels := by
  obtain ⟨helements, hrelations⟩ := h.parts_fit hsource hlevels
  exact ⟨helements, hrelations, helement_count, hrelation_count⟩

end Landscape
