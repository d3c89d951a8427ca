import Inventory.Graph.Basic
import Inventory.Proofs.Comparison
import Mathlib.Tactic.Tauto

/-!
What a graph holds after a change, cell by cell: the values and the edges of one node under one predicate. Each
change of a graph writes the cells of one node, and leaves the others as they are.
-/

namespace Inventory.Graph

variable (g : Graph) (u w t : Uid) (p q : String)

/-- The values of a cell after one more is set. -/
def put (list : Bool) (vs : List Json) (v : Json) : List Json :=
  if list then (if vs.any v.same then vs else vs ++ [v]) else [v]

/-- The edges of a cell after one more is set. -/
def link (keeps : Bool) (s : UidSet) (t : Uid) : UidSet := if keeps then s.insert t else OrderedSet.empty.insert t

theorem put_put (list : Bool) (vs : List Json) (v : Json) : put list (put list vs v) v = put list vs v := by
  have hv : v.same v = true := v.same_refl
  cases list with
  | false => rfl
  | true =>
      by_cases h : vs.any v.same = true
      · simp [put, h]
      · simp [put, h, hv]

theorem mem_put_str {list : Bool} {vs : List Json} {v s : String} :
    .str s ∈ put list vs (.str v) ↔ s = v ∨ (list = true ∧ .str s ∈ vs) := by
  cases list with
  | false => simp [put]
  | true =>
      by_cases h : vs.any (Json.str v).same = true
      · have hv : Json.str v ∈ vs := by
          obtain ⟨j, hj, he⟩ := List.any_eq_true.1 h
          rwa [Json.same_str_iff.1 he] at hj
        simp only [put, h, if_true, true_and]
        constructor
        · exact Or.inr
        · rintro (rfl | hs)
          · exact hv
          · exact hs
      · simp [put, h, or_comm]

theorem mem_link {keeps : Bool} {s : UidSet} {t v : Uid} : v ∈ link keeps s t ↔ v = t ∨ (keeps = true ∧ v ∈ s) := by
  cases keeps <;> simp [link]

theorem contains_iff {u : Uid} : g.contains u = true ↔ u ∈ g.uids := Table.get?_isSome_iff

theorem values_of_not_contains {u : Uid} (h : ¬g.contains u = true) : g.values u p = [] := by
  have hn : g.nodes.get? u = none := by simpa [contains, Table.contains] using h
  simp [values, hn]

theorem edges_of_not_contains {u : Uid} (h : ¬g.contains u = true) : g.edges u p = .empty := by
  have hn : g.nodes.get? u = none := by simpa [contains, Table.contains] using h
  simp [edges, hn]

section ModifyNode

variable (f : Node → Node)

theorem get?_modifyNode :
    (g.modifyNode u f).nodes.get? w = if w = u then (g.nodes.get? u).map f else g.nodes.get? w := by
  unfold modifyNode
  cases h : g.nodes.get? u with
  | none => by_cases hw : w = u <;> simp [hw, h]
  | some n => simp

@[simp]
theorem contains_modifyNode : (g.modifyNode u f).contains w = g.contains w := by
  simp only [contains, Table.contains, get?_modifyNode]
  by_cases hw : w = u <;> simp [hw]

@[simp]
theorem lastUid_modifyNode : (g.modifyNode u f).lastUid = g.lastUid := by
  unfold modifyNode
  split <;> rfl

@[simp]
theorem reverse_modifyNode : (g.modifyNode u f).reverse = g.reverse := by
  unfold modifyNode
  split <;> rfl

@[simp]
theorem predicates_modifyNode : (g.modifyNode u f).predicates = g.predicates := by
  unfold modifyNode
  split <;> rfl

theorem values_modifyNode_of_ne {u w : Uid} (h : w ≠ u) : (g.modifyNode u f).values w q = g.values w q := by
  simp [values, get?_modifyNode, h]

theorem edges_modifyNode_of_ne {u w : Uid} (h : w ≠ u) : (g.modifyNode u f).edges w q = g.edges w q := by
  simp [edges, get?_modifyNode, h]

end ModifyNode

section Values

variable (f : List Json → List Json) (v : Json)

theorem values_modifyValues :
    (g.modifyValues u p f).values w q =
      if g.contains u ∧ w = u ∧ q = p then f (g.values u p) else g.values w q := by
  by_cases hw : w = u
  · subst hw
    cases hn : g.nodes.get? w with
    | none => simp [modifyValues, values, get?_modifyNode, hn, contains, Table.contains]
    | some n =>
        by_cases hq : q = p
        · subst hq
          simp only [modifyValues, values, get?_modifyNode, hn, contains, Table.contains, if_true, Option.map_some,
            Option.bind_some, Table.get?_alter, Option.isSome_some, and_self]
          split <;> simp_all
        · simp [modifyValues, values, get?_modifyNode, hn, hq]
  · simp [modifyValues, values_modifyNode_of_ne _ _ _ hw, hw]

@[simp]
theorem edges_modifyValues : (g.modifyValues u p f).edges w q = g.edges w q := by
  by_cases hw : w = u
  · subst hw
    cases hn : g.nodes.get? w <;> simp [modifyValues, edges, get?_modifyNode, hn]
  · exact edges_modifyNode_of_ne _ _ _ hw

@[simp]
theorem contains_setValue : (g.setValue u p v).contains w = g.contains w := contains_modifyNode g u w _

@[simp]
theorem lastUid_setValue : (g.setValue u p v).lastUid = g.lastUid := lastUid_modifyNode g u _

@[simp]
theorem reverse_setValue : (g.setValue u p v).reverse = g.reverse := reverse_modifyNode g u _

@[simp]
theorem predicates_setValue : (g.setValue u p v).predicates = g.predicates := predicates_modifyNode g u _

@[simp]
theorem edges_setValue : (g.setValue u p v).edges w q = g.edges w q := edges_modifyValues g u w p q _

theorem values_setValue :
    (g.setValue u p v).values w q =
      if g.contains u ∧ w = u ∧ q = p then put (g.isList p) (g.values u p) v else g.values w q := by
  simp only [setValue, values_modifyValues, put]

end Values

section Edges

variable (f : UidSet → UidSet)

theorem getD_keep (s : UidSet) : (keep s).getD .empty = s := by
  unfold keep
  split
  · rename_i h
    ext a
    simp_all [OrderedSet.isEmpty, OrderedSet.mem_def, OrderedSet.empty]
  · rfl

theorem getD_keepTable (s : Table Uid UidSet) (w : Uid) : ((keepTable s).bind (·.get? w)) = s.get? w := by
  unfold keepTable
  split
  · rename_i h
    obtain ⟨es, hs⟩ := s
    obtain rfl : es = [] := List.isEmpty_iff.1 h
    rfl
  · rfl

theorem edges_modifyEdges :
    (g.modifyEdges u p f).edges w q =
      if g.contains u ∧ w = u ∧ q = p then f (g.edges u p) else g.edges w q := by
  by_cases hw : w = u
  · subst hw
    cases hn : g.nodes.get? w with
    | none => simp [modifyEdges, edges, get?_modifyNode, hn, contains, Table.contains]
    | some n =>
        by_cases hq : q = p
        · subst hq
          simp [modifyEdges, edges, get?_modifyNode, hn, contains, Table.contains, getD_keep]
        · simp [modifyEdges, edges, get?_modifyNode, hn, hq]
  · simp [modifyEdges, edges_modifyNode_of_ne _ _ _ hw, hw]

theorem sources_modifySources :
    (g.modifySources p t f).sources w q = if w = t ∧ q = p then f (g.sources t p) else g.sources w q := by
  by_cases hq : q = p
  · subst hq
    simp only [modifySources, sources, Table.get?_alter, if_true, getD_keepTable, and_true]
    by_cases hw : w = t
    · subst hw
      cases g.reverse.get? q <;> simp [getD_keep]
    · cases g.reverse.get? q <;> simp [hw]
  · simp [modifySources, sources, hq]

@[simp]
theorem values_modifyEdges : (g.modifyEdges u p f).values w q = g.values w q := by
  by_cases hw : w = u
  · subst hw
    cases hn : g.nodes.get? w <;> simp [modifyEdges, values, get?_modifyNode, hn]
  · exact values_modifyNode_of_ne _ _ _ hw

@[simp]
theorem contains_modifyEdges : (g.modifyEdges u p f).contains w = g.contains w := contains_modifyNode g u w _

@[simp]
theorem sources_modifyEdges : (g.modifyEdges u p f).sources w q = g.sources w q := by
  simp [sources, modifyEdges]

end Edges

section Links

theorem mem_edges_addEdge {v : Uid} :
    v ∈ (g.addEdge u p t).edges w q ↔ v ∈ g.edges w q ∨ (g.contains u ∧ w = u ∧ q = p ∧ v = t) := by
  unfold addEdge
  split
  · rename_i hu
    change v ∈ (g.modifyEdges u p _).edges w q ↔ _
    rw [edges_modifyEdges]
    by_cases h : w = u ∧ q = p
    · obtain ⟨rfl, rfl⟩ := h
      simp [hu, or_comm]
    · rw [if_neg (by tauto)]
      tauto
  · rename_i hu
    simp [hu]

theorem mem_sources_addEdge {v : Uid} :
    v ∈ (g.addEdge u p t).sources w q ↔ v ∈ g.sources w q ∨ (g.contains u ∧ w = t ∧ q = p ∧ v = u) := by
  unfold addEdge
  split
  · rename_i hu
    rw [sources_modifySources]
    by_cases h : w = t ∧ q = p
    · obtain ⟨rfl, rfl⟩ := h
      simp [hu, or_comm]
    · rw [if_neg h, sources_modifyEdges]
      tauto
  · rename_i hu
    simp [hu]

theorem mem_edges_removeEdge {v : Uid} :
    v ∈ (g.removeEdge u p t).edges w q ↔ v ∈ g.edges w q ∧ ¬(w = u ∧ q = p ∧ v = t) := by
  change v ∈ (g.modifyEdges u p _).edges w q ↔ _
  rw [edges_modifyEdges]
  by_cases hu : g.contains u = true
  · by_cases h : w = u ∧ q = p
    · obtain ⟨rfl, rfl⟩ := h
      simp [hu, OrderedSet.mem_erase]
    · rw [if_neg (by tauto)]
      tauto
  · by_cases hw : w = u
    · subst hw
      simp [hu, edges_of_not_contains]
    · simp [hw]

theorem mem_sources_removeEdge {v : Uid} :
    v ∈ (g.removeEdge u p t).sources w q ↔ v ∈ g.sources w q ∧ ¬(w = t ∧ q = p ∧ v = u) := by
  unfold removeEdge
  rw [sources_modifySources]
  by_cases h : w = t ∧ q = p
  · obtain ⟨rfl, rfl⟩ := h
    simp [OrderedSet.mem_erase]
  · rw [if_neg h, sources_modifyEdges]
    tauto

@[simp]
theorem values_addEdge : (g.addEdge u p t).values w q = g.values w q := by
  unfold addEdge
  split
  · exact values_modifyEdges g u w p q _
  · rfl

@[simp]
theorem contains_addEdge : (g.addEdge u p t).contains w = g.contains w := by
  unfold addEdge
  split
  · exact contains_modifyEdges g u w p _
  · rfl

@[simp]
theorem lastUid_addEdge : (g.addEdge u p t).lastUid = g.lastUid := by
  unfold addEdge
  split
  · exact lastUid_modifyNode g u _
  · rfl

@[simp]
theorem predicates_addEdge : (g.addEdge u p t).predicates = g.predicates := by
  unfold addEdge
  split
  · exact predicates_modifyNode g u _
  · rfl

@[simp]
theorem values_removeEdge : (g.removeEdge u p t).values w q = g.values w q := values_modifyEdges g u w p q _

@[simp]
theorem contains_removeEdge : (g.removeEdge u p t).contains w = g.contains w := contains_modifyEdges g u w p _

@[simp]
theorem lastUid_removeEdge : (g.removeEdge u p t).lastUid = g.lastUid := lastUid_modifyNode g u _

@[simp]
theorem predicates_removeEdge : (g.removeEdge u p t).predicates = g.predicates := predicates_modifyNode g u _

end Links

section Clearing

theorem mem_edges_clearEdges {v : Uid} : v ∈ (g.clearEdges u p).edges w q ↔ v ∈ g.edges w q ∧ ¬(w = u ∧ q = p) := by
  have fold : ∀ (ts : List Uid) (g : Graph), v ∈ (ts.foldl (fun g t => g.removeEdge u p t) g).edges w q ↔
      v ∈ g.edges w q ∧ ¬(w = u ∧ q = p ∧ v ∈ ts) := by
    intro ts
    induction ts with
    | nil => simp
    | cons t ts ih =>
        intro g
        rw [List.foldl_cons, ih, mem_edges_removeEdge, List.mem_cons]
        tauto
  rw [clearEdges, fold]
  constructor
  · rintro ⟨hv, hn⟩
    refine ⟨hv, ?_⟩
    rintro ⟨rfl, rfl⟩
    exact hn ⟨rfl, rfl, hv⟩
  · rintro ⟨hv, hn⟩
    exact ⟨hv, fun h => hn ⟨h.1, h.2.1⟩⟩

/-- Dropping edges keeps whatever dropping one edge keeps. -/
theorem clearEdges_induction {motive : Graph → Prop} (start : motive g)
    (step : ∀ g t, motive g → motive (g.removeEdge u p t)) : motive (g.clearEdges u p) := by
  unfold clearEdges
  generalize (g.edges u p).items = ts
  induction ts generalizing g with
  | nil => exact start
  | cons t ts ih => exact ih _ (step g t start)

@[simp]
theorem values_clearEdges : (g.clearEdges u p).values w q = g.values w q :=
  clearEdges_induction g u p (motive := fun h => h.values w q = g.values w q) rfl fun _ _ h => by
    rw [values_removeEdge, h]

@[simp]
theorem contains_clearEdges : (g.clearEdges u p).contains w = g.contains w :=
  clearEdges_induction g u p (motive := fun h => h.contains w = g.contains w) rfl fun _ _ h => by
    rw [contains_removeEdge, h]

@[simp]
theorem lastUid_clearEdges : (g.clearEdges u p).lastUid = g.lastUid :=
  clearEdges_induction g u p (motive := fun h => h.lastUid = g.lastUid) rfl fun _ _ h => by
    rw [lastUid_removeEdge, h]

@[simp]
theorem predicates_clearEdges : (g.clearEdges u p).predicates = g.predicates :=
  clearEdges_induction g u p (motive := fun h => h.predicates = g.predicates) rfl fun _ _ h => by
    rw [predicates_removeEdge, h]

end Clearing

section SetEdge

theorem edges_setEdge :
    (g.setEdge u p t).edges w q =
      if g.contains u ∧ w = u ∧ q = p then link (g.keepsEdges p) (g.edges u p) t else g.edges w q := by
  ext v
  unfold setEdge
  rw [mem_edges_addEdge]
  by_cases h : g.contains u = true ∧ w = u ∧ q = p
  · obtain ⟨hu, rfl, rfl⟩ := h
    by_cases hk : g.keepsEdges q = true
    · simp [hk, hu, mem_link, or_comm]
    · simp [hk, hu, mem_link, mem_edges_clearEdges]
  · rw [if_neg h]
    by_cases hk : g.keepsEdges p = true
    · rw [if_pos hk]
      tauto
    · rw [if_neg hk, mem_edges_clearEdges, contains_clearEdges]
      by_cases hu : g.contains u = true
      · tauto
      · by_cases hw : w = u
        · subst hw
          simp [hu, edges_of_not_contains]
        · simp [hw]

@[simp]
theorem values_setEdge : (g.setEdge u p t).values w q = g.values w q := by
  unfold setEdge
  split <;> simp

@[simp]
theorem contains_setEdge : (g.setEdge u p t).contains w = g.contains w := by
  unfold setEdge
  split <;> simp

@[simp]
theorem lastUid_setEdge : (g.setEdge u p t).lastUid = g.lastUid := by
  unfold setEdge
  split <;> simp

@[simp]
theorem predicates_setEdge : (g.setEdge u p t).predicates = g.predicates := by
  unfold setEdge
  split <;> simp

end SetEdge

section ClearAll

theorem clearAll_induction {motive : Graph → Prop}
    (start : motive (g.modifyNode u fun n => { n with values := .empty }))
    (step : ∀ g p, motive g → motive (g.clearEdges u p)) (absent : ¬g.contains u = true → motive g) :
    motive (g.clearAll u) := by
  unfold clearAll
  split
  · rename_i n hn
    generalize g.modifyNode u _ = g' at start ⊢
    generalize n.edges.keys = ps
    induction ps generalizing g' with
    | nil => exact start
    | cons p ps ih => exact ih _ (step g' p start)
  · rename_i hn
    exact absent (by simp [contains, Table.contains, hn])

@[simp]
theorem contains_clearAll : (g.clearAll u).contains w = g.contains w :=
  clearAll_induction g u (motive := fun h => h.contains w = g.contains w) (contains_modifyNode g u w _)
    (fun _ _ h => by rw [contains_clearEdges, h]) fun _ => rfl

@[simp]
theorem lastUid_clearAll : (g.clearAll u).lastUid = g.lastUid :=
  clearAll_induction g u (motive := fun h => h.lastUid = g.lastUid) (lastUid_modifyNode g u _)
    (fun _ _ h => by rw [lastUid_clearEdges, h]) fun _ => rfl

@[simp]
theorem predicates_clearAll : (g.clearAll u).predicates = g.predicates :=
  clearAll_induction g u (motive := fun h => h.predicates = g.predicates) (predicates_modifyNode g u _)
    (fun _ _ h => by rw [predicates_clearEdges, h]) fun _ => rfl

theorem values_clearAll : (g.clearAll u).values w q = if w = u then [] else g.values w q := by
  refine clearAll_induction g u (motive := fun h => h.values w q = if w = u then [] else g.values w q) ?_
    (fun _ _ h => by rw [values_clearEdges, h]) fun hu => ?_
  · by_cases hw : w = u
    · subst hw
      cases hn : g.nodes.get? w <;> simp [values, get?_modifyNode, hn]
    · simp [values_modifyNode_of_ne _ _ _ hw, hw]
  · by_cases hw : w = u
    · subst hw
      simp [values_of_not_contains, hu]
    · simp [hw]

theorem edges_clearAll : (g.clearAll u).edges w q = if w = u then .empty else g.edges w q := by
  have fold : ∀ (ps : List String) (g : Graph) (v : Uid),
      v ∈ (ps.foldl (fun g p => g.clearEdges u p) g).edges w q ↔ v ∈ g.edges w q ∧ ¬(w = u ∧ q ∈ ps) := by
    intro ps
    induction ps with
    | nil => simp
    | cons p ps ih =>
        intro g v
        rw [List.foldl_cons, ih, mem_edges_clearEdges, List.mem_cons]
        tauto
  ext v
  unfold clearAll
  split
  · rename_i n hn
    rw [fold]
    by_cases hw : w = u
    · subst hw
      have hk : v ∈ g.edges w q → q ∈ n.edges.keys := by
        intro hv
        rw [← Table.get?_isSome_iff, Option.isSome_iff_ne_none]
        intro hnone
        simp [edges, hn, hnone] at hv
      have he : (g.modifyNode w fun n => { n with values := .empty }).edges w q = g.edges w q := by
        simp [edges, get?_modifyNode, hn]
      rw [he]
      simp only [if_true, OrderedSet.not_mem_empty, iff_false]
      tauto
    · simp [edges_modifyNode_of_ne _ _ _ hw, hw]
  · rename_i hn
    by_cases hw : w = u
    · subst hw
      simp [edges, hn]
    · simp [hw]

end ClearAll

section Allocate

@[simp]
theorem contains_allocate : g.allocate.2.contains w = (g.contains w || decide (w = ⟨g.lastUid + 1⟩)) := by
  simp only [allocate, contains, Table.contains, Table.get?_insert]
  by_cases hw : w = ⟨g.lastUid + 1⟩ <;> simp [hw]

@[simp]
theorem sources_allocate : g.allocate.2.sources w q = g.sources w q := rfl

@[simp]
theorem lastUid_allocate : g.allocate.2.lastUid = g.lastUid + 1 := rfl

@[simp]
theorem predicates_allocate : g.allocate.2.predicates = g.predicates := rfl

theorem values_allocate (h : ¬g.contains ⟨g.lastUid + 1⟩ = true) : g.allocate.2.values w q = g.values w q := by
  by_cases hw : w = ⟨g.lastUid + 1⟩
  · subst hw
    rw [values_of_not_contains g q h]
    simp [allocate, values, Node.empty]
  · simp [allocate, values, hw]

theorem edges_allocate (h : ¬g.contains ⟨g.lastUid + 1⟩ = true) : g.allocate.2.edges w q = g.edges w q := by
  by_cases hw : w = ⟨g.lastUid + 1⟩
  · subst hw
    rw [edges_of_not_contains g q h]
    simp [allocate, edges, Node.empty]
  · simp [allocate, edges, hw]

end Allocate

end Inventory.Graph
