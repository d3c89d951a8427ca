import Inventory.Proofs.Repository.Described

/-!
Products, applications and installations: nodes that stand beside an inventory, carry predicates of their own and may
have edges to anything. None of what holds of an inventory is lost when they are added.
-/

namespace Inventory.Repository

open Inventory.Graph Store Vocabulary

variable {s : Store} {g g' : Graph} {w : Uid} {p : String} {qs : List Quad} {receipt : Receipt}

/-- The predicates that products, applications and installations carry. -/
def isEntityPredicate (p : String) : Bool :=
  p == scopes || ["product.", "application.", "instance."].any fun q => q.toList.isPrefixOf p.toList

/-- A graph with more nodes, which carry nothing but predicates of products, applications and installations. -/
structure Extended (g g' : Graph) : Prop where
  intact : g'.Intact
  schema : SameSchema g g'
  grows : ∀ w, g.contains w = true → g'.contains w = true
  old : ∀ w, g.contains w = true → Same g g' w
  fresh : ∀ w, ¬g.contains w = true → ∀ p, isEntityPredicate p = false → g'.values w p = [] ∧ g'.edges w p = .empty

theorem Extended.refl (hg : g.Intact) : Extended g g :=
  ⟨hg, .refl g, fun _ hc => hc, fun w _ => .refl g w, fun _ hc p _ =>
    ⟨values_of_not_contains g p hc, edges_of_not_contains g p hc⟩⟩

namespace Extended

variable (h : Extended g g')

include h

theorem same_of_values (hp : isEntityPredicate p = false) (hv : g'.values w p ≠ []) : Same g g' w := by
  by_cases hc : g.contains w = true
  · exact h.old w hc
  · exact absurd (h.fresh w hc p hp).1 hv

theorem same_of_mem_edges {v : Uid} (hp : isEntityPredicate p = false) (hv : v ∈ g'.edges w p) : Same g g' w := by
  by_cases hc : g.contains w = true
  · exact h.old w hc
  · rw [(h.fresh w hc p hp).2] at hv
    exact absurd hv OrderedSet.not_mem_empty

theorem coherent (hg : Coherent g) : Coherent g' := by
  refine hg.of_placed h.intact (hg.declared.of_predicates h.schema.1) fun w => ?_
  by_cases hc : g.contains w = true
  · exact .inl (h.old w hc).kept
  · refine .inr ⟨hc, ?_⟩
    obtain ⟨htype, htie⟩ := h.fresh w hc metaType (by decide +kernel)
    obtain ⟨hmark, -⟩ := h.fresh w hc typeName (by decide +kernel)
    obtain ⟨-, hparent⟩ := h.fresh w hc metaParent (by decide +kernel)
    obtain ⟨-, hsource⟩ := h.fresh w hc metaSource (by decide +kernel)
    constructor <;> simp [htype, htie, hmark, hparent, hsource]

theorem frame : Frame g g' := by
  refine ⟨fun u hu => ?_, fun w hw => ?_, fun w hc _ => .inl (h.old w hc)⟩
  · rwa [← (h.same_of_values (by decide +kernel) hu metaType).1]
  · rwa [← (h.same_of_values (by decide +kernel) (List.ne_nil_of_mem hw) typeName).1]

end Extended

section Requests

variable (hblank : ∀ q ∈ qs, ∃ label, q.subject = .blank label)
  (hp : ∀ q ∈ qs, isEntityPredicate q.predicate = true)

include hblank hp

theorem extended_of_execute (hg : g.Intact)
    (h : execute g (.of none [⟨none, qs, []⟩]) = .ok (receipt, g')) : Extended g g' := by
  obtain ⟨vars, d, ho, hh, rfl⟩ := execute_quads hg h
  have hnodes : ∀ w, g.contains w = true → ∀ q ∈ qs, w ∉ d.nodes vars q.subject := by
    intro w hc q hq hw
    obtain ⟨label, hs⟩ := hblank q hq
    rw [hs, Draft.nodes, Option.mem_toList] at hw
    exact (ho.made_new _ w hw).2 hc
  have hne : ∀ p, isEntityPredicate p = false → ∀ q ∈ qs, q.predicate ≠ p := by
    intro p hentity q hq he
    rw [← he, hp q hq] at hentity
    cases hentity
  refine ⟨ho.intact, sameSchema_of_execute h, ho.grows, fun w hc => same_of_holds hh (hnodes w hc),
    fun w hc p hentity => ?_⟩
  · rw [hh.values, hh.edges, flatMap_written_of_ne (hne p hentity), flatMap_linked_of_ne (hne p hentity)]
    exact ⟨values_of_not_contains g p hc, edges_of_not_contains g p hc⟩

theorem extended_of_write (operation : String) (hg : s.graph.Intact) :
    Extended s.graph (perform (write operation none [⟨none, qs, []⟩]) s).2.graph := by
  rcases hw : perform (write operation none [⟨none, qs, []⟩]) s with ⟨r, s'⟩
  rcases perform_execute hw with ⟨he, -⟩ | ⟨receipt, he, -⟩
  · rw [he]
    exact .refl hg
  · exact extended_of_execute hblank hp hg he

end Requests

end Inventory.Repository
