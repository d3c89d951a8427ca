import Inventory.Proofs.Graph.Cells

/-!
Graphs that are kept as they should be: each edge at both of its ends and to a node that is there, and no uid
beyond the last one given out.
-/

namespace Inventory.Graph

variable {g : Graph} {u t : Uid} {p : String}

structure Intact (g : Graph) : Prop where
  fresh : ∀ u, g.contains u = true → u.value ≤ g.lastUid
  mirrored : ∀ s p t, t ∈ g.edges s p ↔ s ∈ g.sources t p
  closed : ∀ s p t, t ∈ g.edges s p → g.contains t = true

theorem contains_of_mem_edges (h : t ∈ g.edges u p) : g.contains u = true := by
  refine Classical.byContradiction fun hu => ?_
  rw [edges_of_not_contains g p hu] at h
  exact OrderedSet.not_mem_empty h

theorem contains_of_values (h : g.values u p ≠ []) : g.contains u = true :=
  Classical.byContradiction fun hu => h (values_of_not_contains g p hu)

theorem contains_of_mem_values {v : Json} (h : v ∈ g.values u p) : g.contains u = true :=
  contains_of_values (List.ne_nil_of_mem h)

namespace Intact

theorem empty : Intact empty := by
  constructor
  · intro u h
    cases h
  · intro s p t
    simp [edges, sources, Graph.empty]
  · intro s p t h
    simp [edges, Graph.empty] at h

theorem not_contains_next (h : Intact g) : ¬g.contains ⟨g.lastUid + 1⟩ = true := by
  intro hc
  have hle : g.lastUid + 1 ≤ g.lastUid := h.fresh _ hc
  omega

theorem allocate (h : Intact g) : Intact g.allocate.2 := by
  have hn := h.not_contains_next
  constructor
  · intro u hu
    rw [contains_allocate, Bool.or_eq_true, decide_eq_true_eq] at hu
    rw [lastUid_allocate]
    rcases hu with hu | rfl
    · exact Nat.le_succ_of_le (h.fresh u hu)
    · exact Nat.le_refl _
  · intro s p t
    rw [edges_allocate _ _ _ hn, sources_allocate]
    exact h.mirrored s p t
  · intro s p t ht
    rw [edges_allocate _ _ _ hn] at ht
    simp [h.closed s p t ht]

theorem of_edges {g' : Graph} (h : Intact g) (hc : ∀ w, g'.contains w = g.contains w) (hl : g'.lastUid = g.lastUid)
    (he : ∀ w q, g'.edges w q = g.edges w q) (hs : ∀ w q, g'.sources w q = g.sources w q) : Intact g' := by
  constructor
  · intro u hu
    rw [hc] at hu
    rw [hl]
    exact h.fresh u hu
  · intro s p t
    rw [he, hs]
    exact h.mirrored s p t
  · intro s p t ht
    rw [he] at ht
    rw [hc]
    exact h.closed s p t ht

theorem setValue (h : Intact g) (v : Json) : Intact (g.setValue u p v) :=
  h.of_edges (fun w => contains_setValue g u w p v) (lastUid_setValue g u p v) (fun w q => edges_setValue g u w p q v)
    fun w q => by simp [sources]

theorem addEdge (h : Intact g) (ht : g.contains t = true) : Intact (g.addEdge u p t) := by
  constructor
  · intro w hw
    rw [contains_addEdge] at hw
    rw [lastUid_addEdge]
    exact h.fresh w hw
  · intro s q v
    rw [mem_edges_addEdge, mem_sources_addEdge, h.mirrored]
    tauto
  · intro s q v hv
    rw [contains_addEdge]
    rcases (mem_edges_addEdge ..).1 hv with hv | ⟨-, -, -, rfl⟩
    · exact h.closed s q v hv
    · exact ht

theorem removeEdge (h : Intact g) : Intact (g.removeEdge u p t) := by
  constructor
  · intro w hw
    rw [contains_removeEdge] at hw
    rw [lastUid_removeEdge]
    exact h.fresh w hw
  · intro s q v
    rw [mem_edges_removeEdge, mem_sources_removeEdge, h.mirrored]
    tauto
  · intro s q v hv
    rw [contains_removeEdge]
    exact h.closed s q v ((mem_edges_removeEdge ..).1 hv).1

theorem clearEdges (h : Intact g) : Intact (g.clearEdges u p) :=
  clearEdges_induction g u p h fun _ _ h => h.removeEdge

theorem setEdge (h : Intact g) (ht : g.contains t = true) : Intact (g.setEdge u p t) := by
  unfold Graph.setEdge
  split
  · exact h.addEdge ht
  · exact h.clearEdges.addEdge (by simpa using ht)

theorem clearAll (h : Intact g) : Intact (g.clearAll u) := by
  refine clearAll_induction g u ?_ (fun _ _ h => h.clearEdges) fun _ => h
  refine h.of_edges (fun w => contains_modifyNode g u w _) (lastUid_modifyNode g u _) (fun w q => ?_) fun w q => ?_
  · by_cases hw : w = u
    · subst hw
      cases hn : g.nodes.get? w <;> simp [edges, get?_modifyNode, hn]
    · exact edges_modifyNode_of_ne g q _ hw
  · simp [sources]

end Intact

end Inventory.Graph
