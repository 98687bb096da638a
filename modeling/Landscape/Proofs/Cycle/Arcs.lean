import Landscape.Cycle.Search
import Mathlib.Logic.Relation
import Mathlib.Data.List.Chain

/-!
# Arcs, reachability and directed cycles

The relations of a model are the arcs of a graph on ids. An id that no element has is a vertex like
any other, several relations between the same ids are one arc, and a relation may lead from an id to
itself. What a search of this graph finds or misses is said in terms of these notions alone.
-/

namespace Landscape.Model

/-- A relation leads from one id to another. -/
def Leads (m : Model) (a b : Text) : Prop := ∃ r ∈ m.relations, r.source = a ∧ r.target = b

/-- Relations, perhaps none, lead from one id to another. -/
def Reaches (m : Model) : Text → Text → Prop := Relation.ReflTransGen m.Leads

/-- An id lies on a directed cycle: at least one relation leads from it, and in the end back. -/
def OnCycle (m : Model) (a : Text) : Prop := Relation.TransGen m.Leads a a

/-- An id is reached from that of an element. -/
def IsReached (m : Model) (a : Text) : Prop := ∃ e ∈ m.elements, m.Reaches e.id a

/-- The ids of a directed cycle, each of them once, in the order of the relations between them. -/
structure IsCycle (m : Model) (ids : List Text) : Prop where
  ne_nil : ids ≠ []
  nodup : ids.Nodup
  /-- A relation leads from each id to the next one. -/
  chain : ids.IsChain m.Leads
  /-- A relation leads from the last id to the first one. -/
  closes : m.Leads (ids.getLast ne_nil) (ids.head ne_nil)

variable {m : Model} {a b : Text}

/-- The targets that the search looks at are those that the relations of an id lead to. -/
theorem mem_targets : b ∈ m.targets a ↔ m.Leads a b := by
  simp [targets, Leads, and_assoc]

/-- What is reached from an id that elements reach is reached as well. -/
theorem IsReached.step (h : m.IsReached a) (hab : m.Leads a b) : m.IsReached b := by
  obtain ⟨e, he, hea⟩ := h
  exact ⟨e, he, Relation.ReflTransGen.tail hea hab⟩

/-- The id of an element is reached without any relation. -/
theorem isReached_id {e : Element} (he : e ∈ m.elements) : m.IsReached e.id :=
  ⟨e, he, Relation.ReflTransGen.refl⟩

/-- No way leads out of a set of ids that no single relation leaves. -/
theorem Reaches.mem_of_closed {S : Text → Prop} (hS : ∀ a b, S a → m.Leads a b → S b)
    (h : m.Reaches a b) (ha : S a) : S b := by
  induction h with
  | refl => exact ha
  | tail _ hbc ih => exact hS _ _ ih hbc

/-- The first id of a chain of relations reaches all the others. -/
theorem reaches_of_isChain {ids : List Text} (h : (a :: ids).IsChain m.Leads) :
    ∀ b ∈ a :: ids, m.Reaches a b :=
  h.induction (m.Reaches a) (a :: ids) (fun _ _ hbc hab => Relation.ReflTransGen.tail hab hbc)
    fun _ => Relation.ReflTransGen.refl

/-- A cycle goes through its first id. -/
theorem IsCycle.onCycle_head {ids : List Text} (h : m.IsCycle ids) :
    m.OnCycle (ids.head h.ne_nil) := by
  obtain ⟨hne, _, hchain, hcloses⟩ := h
  cases ids with
  | nil => exact absurd rfl hne
  | cons c ids =>
    have hlast := reaches_of_isChain hchain _ (List.getLast_mem hne)
    exact Relation.TransGen.tail' hlast hcloses

end Landscape.Model
