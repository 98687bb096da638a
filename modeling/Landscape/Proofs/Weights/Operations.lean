import Landscape.Export.Dot
import Landscape.Interchange
import Landscape.Model.Edit
import Landscape.Proofs.Layout.Placement
import Landscape.Proofs.Weights.Reference

/-!
# The cached matrix under edits, layouts and exports

A matrix is trusted while its side is the number of elements. Elements can be declared behind the
back of the cache, but they only become more, and nothing here changes an id or a relation that
stands: a matrix of the right side is the one that would be built now.
-/

namespace Landscape

namespace Model

/-- What can be done with a model. -/
inductive Operation where
  | addElement (e : Element)
  | addRelation (r : Relation)
  | build
  /-- Append an element and leave the cached matrix. -/
  | pushElement (e : Element)
  /-- Move the first element with an id. -/
  | move (id : Text) (p : Point Float)
  | layOut (plan : Layout.Plan) (fallback : Nat)
  | detect (limits : Limits)
  | exportDocument
  | exportDot (findings : List Finding)
  | exportPositions

/-- What an operation tells. -/
inductive Answer where
  | done
  | moved (found : Bool)
  | laidOut (outcome : Except Error Layout.Outcome)
  | findings (findings : List Finding)
  | document (d : Json)
  | text (t : Except Error Text)

/-- Do an operation; one that fails leaves the model as it was. -/
def perform (m : Model) : Operation → Answer × Model
  | .addElement e => (.done, m.addElement e)
  | .addRelation r => (.done, m.addRelation r)
  | .build => (.done, m.build)
  | .pushElement e => (.done, m.pushElement e)
  | .move id p =>
    match m.move? id p with
    | some m' => (.moved true, m')
    | none => (.moved false, m)
  | .layOut plan fallback =>
    match Layout.run plan fallback m with
    | .ok (m', outcome) => (.laidOut (.ok outcome), m')
    | .error e => (.laidOut (.error e), m)
  | .detect limits => (.findings (m.detect limits), m)
  | .exportDocument => (.document m.toJson, m)
  | .exportDot findings => (.text (Dot.render m findings), m)
  | .exportPositions => (.text (Dot.renderPinned m), m)

/-- The model after operations. -/
def after (m : Model) : List Operation → Model
  | [] => m
  | op :: ops => (m.perform op).2.after ops

/-- A cached matrix has no more rows than there are elements, and if it has as many then it is the
matrix of the current elements and relations. -/
def CacheSound (m : Model) : Prop :=
  ∀ weights, m.matrix = some weights → weights.length ≤ m.elements.length ∧
    (weights.length = m.elements.length → m.elements ≠ [] ∧ weights = m.reference)

variable {m m' : Model}

/-- A model without a cached matrix has none that is wrong. -/
theorem cacheSound_of_none (h : m.matrix = none) : m.CacheSound := by
  intro weights hweights
  rw [h] at hweights
  cases hweights

/-- Nothing is lost by a change that keeps the ids, the relations and the cached matrix. -/
theorem CacheSound.congr (h : m.CacheSound) (hids : m'.elements.map (·.id) = m.elements.map (·.id))
    (hrelations : m'.relations = m.relations) (hmatrix : m'.matrix = m.matrix) :
    m'.CacheSound := by
  intro weights hweights
  rw [hmatrix] at hweights
  obtain ⟨hle, heq⟩ := h weights hweights
  have hlength : m'.elements.length = m.elements.length := by
    simpa using congrArg List.length hids
  rw [hlength, reference_congr hids hrelations]
  refine ⟨hle, fun hside => ⟨?_, (heq hside).2⟩⟩
  rw [← List.length_pos_iff, hlength, List.length_pos_iff]
  exact (heq hside).1

/-- The matrix that is built is right. -/
theorem cacheSound_build (m : Model) : m.build.CacheSound := by
  intro weights hweights
  change (if m.elements.isEmpty then none else some m.weights) = some weights at hweights
  split at hweights
  · cases hweights
  next hne =>
    obtain rfl := Option.some.inj hweights
    have hreference : m.build.reference = m.reference := reference_congr rfl rfl
    rw [hreference, weights_eq_reference]
    refine ⟨Nat.le_of_eq (Matrix.length_table _ _), fun _ => ⟨?_, rfl⟩⟩
    exact mt List.isEmpty_iff.mpr hne

/-- An element that is appended makes the cached matrix too small. -/
theorem CacheSound.pushElement (h : m.CacheSound) (e : Element) : (m.pushElement e).CacheSound := by
  intro weights hweights
  obtain ⟨hle, _⟩ := h weights hweights
  have hlength : (m.pushElement e).elements.length = m.elements.length + 1 := by
    simp [Model.pushElement]
  rw [hlength]
  exact ⟨by omega, fun hside => by omega⟩

/-- An element that moves keeps its id. -/
theorem CacheSound.move (h : m.CacheSound) {id : Text} {p : Point Float}
    (hmove : m.move? id p = some m') : m'.CacheSound := by
  simp only [move?, update?, Option.map_eq_some_iff] at hmove
  obtain ⟨i, _, rfl⟩ := hmove
  refine h.congr (List.ext_getElem? fun j => ?_) rfl rfl
  simp only [List.getElem?_map, List.getElem?_modify]
  cases m.elements[j]? with
  | none => rfl
  | some e => split <;> rfl

/-- A layout keeps ids and relations. -/
theorem CacheSound.layOut (h : m.CacheSound) {plan : Layout.Plan} {fallback : Nat}
    {outcome : Layout.Outcome} (hrun : Layout.run plan fallback m = .ok (m', outcome)) :
    m'.CacheSound := by
  obtain ⟨positions, hpositions, rfl⟩ := Layout.run_eq_ok hrun
  exact h.congr (Layout.map_place _ (fun _ _ => rfl) (Layout.length_of_positionsOf hpositions))
    rfl rfl

/-- No operation makes a cached matrix wrong. -/
theorem CacheSound.perform (h : m.CacheSound) (op : Operation) : (m.perform op).2.CacheSound := by
  cases op with
  | addElement e => exact cacheSound_of_none rfl
  | addRelation r => exact cacheSound_of_none rfl
  | build => exact cacheSound_build m
  | pushElement e => exact h.pushElement e
  | move id p =>
    simp only [Model.perform]
    split
    next hmove => exact h.move hmove
    · exact h
  | layOut plan fallback =>
    simp only [Model.perform]
    split
    next hrun => exact h.layOut hrun
    · exact h
  | detect limits => exact h
  | exportDocument => exact h
  | exportDot findings => exact h
  | exportPositions => exact h

/-- No sequence of operations makes a cached matrix wrong. -/
theorem CacheSound.after (h : m.CacheSound) (ops : List Operation) : (m.after ops).CacheSound := by
  induction ops generalizing m with
  | nil => exact h
  | cons op ops ih => exact ih (h.perform op)

/-- A matrix that is trusted is right. -/
theorem CacheSound.matrix? (h : m.CacheSound) {weights : Matrix}
    (hweights : m.matrix? = some weights) : m.elements ≠ [] ∧ weights = m.reference := by
  obtain ⟨hcached, hside⟩ := matrix?_eq_some_iff.mp hweights
  exact (h weights hcached).2 hside

/--
Whatever is done with a model that starts empty, a matrix that is trusted is that of the current
elements and relations, and there are elements. A layout is refused where no matrix is trusted, and
one that succeeds was computed from this matrix.
-/
theorem trusted_matrix_is_reference (ops : List Operation) :
    let m := after {} ops
    (m.hasMatrix = true → m.elements ≠ [] ∧ m.matrix = some m.reference) ∧
    ∀ plan fallback,
      (m.hasMatrix = false → Layout.run plan fallback m =
        .error (if m.elements.isEmpty then .emptyModel else .matrixNotBuilt)) ∧
      ∀ m' outcome, Layout.run plan fallback m = .ok (m', outcome) →
        ∃ seed, plan.seedOr fallback = .ok seed ∧
          m' = Layout.place m (Layout.simulate plan m.reference
            (Layout.initialPositions seed m.elements.length plan.side)) := by
  intro m
  have hsound : m.CacheSound := (cacheSound_of_none rfl).after ops
  refine ⟨fun h => ?_, fun plan fallback => ⟨Layout.run_of_hasMatrix_eq_false, ?_⟩⟩
  · obtain ⟨weights, hweights⟩ := Option.isSome_iff_exists.mp h
    obtain ⟨hne, rfl⟩ := hsound.matrix? hweights
    exact ⟨hne, (matrix?_eq_some_iff.mp hweights).1⟩
  · intro m' outcome hrun
    obtain ⟨positions, hpositions, rfl⟩ := Layout.run_eq_ok hrun
    obtain ⟨-, -, -, weights, seed, hweights, hseed, rfl⟩ :=
      Layout.positionsOf_eq_ok_iff.mp hpositions
    obtain ⟨_, rfl⟩ := hsound.matrix? hweights
    exact ⟨seed, hseed, rfl⟩

/-- A matrix that is built again after an element was appended, and a layout that uses it. -/
theorem trusted_matrix_after_append :
    let ops : List Operation :=
      [.addElement { id := "a", name := "A", kind := .system }, .build,
        .addRelation { source := "a", target := "b", weight := 2.0 },
        .pushElement { id := "b", name := "B", kind := .person }, .build]
    let m := after {} ops
    let plan : Layout.Plan := ⟨0, 0.1, 1.0, 1.0, some 7⟩
    (m.hasMatrix = true ∧ m.elements ≠ [] ∧ m.matrix = some m.reference) ∧
      ∃ m' outcome, Layout.run plan 0 m = .ok (m', outcome) ∧
        ∃ seed, plan.seedOr 0 = .ok seed ∧
          m' = Layout.place m (Layout.simulate plan m.reference
            (Layout.initialPositions seed m.elements.length plan.side)) := by
  intro ops m plan
  have hmatrix : m.hasMatrix = true := by decide +kernel
  have hsteps : plan.iterations < 10 ^ Number.maxDigits := by decide +kernel
  have hside : plan.side.isFinite = true := by decide +kernel
  obtain ⟨weights, hweights⟩ := Option.isSome_iff_exists.mp hmatrix
  have hpositions : Layout.positionsOf plan 0 m = .ok _ := Layout.positionsOf_eq_ok_iff.mpr
    ⟨rfl, hsteps, hside, weights, 7, hweights, rfl, rfl⟩
  have hrun : ∃ m' outcome, Layout.run plan 0 m = .ok (m', outcome) := by
    unfold Layout.run
    rw [hpositions]
    exact ⟨_, _, rfl⟩
  obtain ⟨m', outcome, hrun⟩ := hrun
  obtain ⟨htrusted, hlayouts⟩ := trusted_matrix_is_reference ops
  exact ⟨⟨hmatrix, htrusted hmatrix⟩, m', outcome, hrun, (hlayouts plan 0).2 m' outcome hrun⟩

end Model

end Landscape
