import Inventory.Proofs.Graph.Cells

/-!
Graphs that keep no list of values and no set of edges once it has become empty.
-/

namespace Inventory

structure Node.Filled (n : Node) : Prop where
  values : ∀ p vs, n.values.get? p = some vs → vs ≠ []
  edges : ∀ p s, n.edges.get? p = some s → s.isEmpty = false

namespace Graph

variable {g : Graph} {u t : Uid} {p : String} {v : Json}

def Filled (g : Graph) : Prop := ∀ u n, g.nodes.get? u = some n → n.Filled

theorem keep_eq_some {s r : UidSet} (h : keep s = some r) : r.isEmpty = false := by
  unfold keep at h
  split at h
  · cases h
  · rename_i hne
    cases h
    exact Bool.eq_false_iff.2 hne

namespace Filled

theorem empty : Filled empty := by
  intro u n h
  cases h

theorem allocate (h : Filled g) : Filled g.allocate.2 := by
  intro u n hn
  simp only [Graph.allocate, Table.get?_insert] at hn
  split at hn
  · cases hn
    constructor
    · intro p vs hvs
      cases hvs
    · intro p s hs
      cases hs
  · exact h u n hn

theorem modifyNode (h : Filled g) {f : Node → Node} (hf : ∀ n : Node, n.Filled → (f n).Filled) :
    Filled (g.modifyNode u f) := by
  intro w n hn
  rw [get?_modifyNode] at hn
  split at hn
  · obtain ⟨m, hm, rfl⟩ := Option.map_eq_some_iff.1 hn
    exact hf m (h u m hm)
  · exact h w n hn

theorem modifyValues (h : Filled g) (f : List Json → List Json) : Filled (g.modifyValues u p f) := by
  refine h.modifyNode fun n hn => ⟨fun q vs hvs => ?_, hn.edges⟩
  rw [Table.get?_alter] at hvs
  split at hvs
  · split at hvs
    · cases hvs
    · rename_i hne
      cases hvs
      exact hne
  · exact hn.values q vs hvs

theorem modifyEdges (h : Filled g) (f : UidSet → UidSet) : Filled (g.modifyEdges u p f) := by
  refine h.modifyNode fun n hn => ⟨hn.values, fun q s hs => ?_⟩
  rw [Table.get?_alter] at hs
  split at hs
  · exact keep_eq_some hs
  · exact hn.edges q s hs

theorem addEdge (h : Filled g) : Filled (g.addEdge u p t) := by
  unfold Graph.addEdge
  split
  · exact h.modifyEdges _
  · exact h

theorem removeEdge (h : Filled g) : Filled (g.removeEdge u p t) := h.modifyEdges _

theorem clearEdges (h : Filled g) : Filled (g.clearEdges u p) :=
  clearEdges_induction g u p h fun _ _ h => h.removeEdge

theorem setEdge (h : Filled g) : Filled (g.setEdge u p t) := by
  unfold Graph.setEdge
  split
  · exact h.addEdge
  · exact h.clearEdges.addEdge

theorem clearPredicate (h : Filled g) : Filled (g.clearPredicate u p) := (h.modifyValues _).clearEdges

theorem clearAll (h : Filled g) : Filled (g.clearAll u) := by
  refine clearAll_induction g u (h.modifyNode fun n hn => ⟨?_, hn.edges⟩) (fun _ _ h => h.clearEdges) fun _ => h
  intro p vs hvs
  cases hvs

end Filled

end Graph

end Inventory
