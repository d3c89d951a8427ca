import Inventory.Proofs.Graph.Filled
import Inventory.Proofs.Graph.Known

/-!
What any request makes of a graph. The steps of a request make nodes for subjects and edit cells, and each keeps the
graph as it should be and hands out uids beyond those given out before.
-/

namespace Inventory.Graph

open Store Outcome

variable {g g' : Graph} {vars : Vars} {d d' : Draft} {s : Subject} {us ts : List Uid} {u t : Uid} {p : String}
  {q : Quad} {f : Graph → Uid → Graph}

/-- What a quad that is set or deleted does to each node of its subject, on a draft that has the targets of the edges
to write. -/
inductive Edit (d : Draft) : (Graph → Uid → Graph) → Prop
  | setValue (p : String) (v : Json) : Edit d fun g u => g.setValue u p v
  | setEdges (p : String) (ts : List Uid) (h : Present d.graph ts) :
      Edit d fun g u => ts.foldl (fun g t => g.setEdge u p t) g
  | removeValue (p : String) (v : Json) : Edit d fun g u => g.removeValue u p v
  | removeEdges (p : String) (ts : List Uid) : Edit d fun g u => ts.foldl (fun g t => g.removeEdge u p t) g
  | clearPredicate (p : String) : Edit d fun g u => g.clearPredicate u p
  | clearAll : Edit d clearAll

/-- The drafts of a request on `g` after any of its steps. -/
inductive Draft.Reached (g : Graph) (vars : Vars) : Draft → Prop
  | start : Reached g vars ⟨g, .empty, .empty⟩
  | resolved {d d' : Draft} {make : Bool} {s : Subject} {us : List Uid} (hd : Reached g vars d)
      (h : resolve vars make d s = .ok (us, d')) : Reached g vars d'
  | edited {d : Draft} {f : Graph → Uid → Graph} (hd : Reached g vars d) (h : Edit d f) (us : List Uid) :
      Reached g vars (d.update us f)

section Edits

theorem Intact.modifyValues (h : g.Intact) (f : List Json → List Json) : Intact (g.modifyValues u p f) := by
  refine h.of_edges (fun w => contains_modifyNode g u w _) (lastUid_modifyNode g u _)
    (fun w q => edges_modifyValues g u w p q f) fun w q => ?_
  rw [sources, sources, Graph.modifyValues, reverse_modifyNode]

/-- What an edit keeps of a graph that has the nodes of the draft. -/
structure Maintains (g g' : Graph) : Prop where
  intact : g.Intact → g'.Intact
  filled : g.Filled → g'.Filled
  contains : ∀ w, g'.contains w = g.contains w
  lastUid : g'.lastUid = g.lastUid
  predicates : g'.predicates = g.predicates

theorem Maintains.refl (g : Graph) : Maintains g g := ⟨id, id, fun _ => rfl, rfl, rfl⟩

theorem Maintains.trans {g'' : Graph} (h : Maintains g g') (h' : Maintains g' g'') : Maintains g g'' :=
  ⟨h'.intact ∘ h.intact, h'.filled ∘ h.filled, fun w => (h'.contains w).trans (h.contains w),
    h'.lastUid.trans h.lastUid, h'.predicates.trans h.predicates⟩

theorem maintains_foldl {α : Type} {f : Graph → α → Graph} {as : List α}
    (hf : ∀ g' a, Maintains g g' → a ∈ as → Maintains g' (f g' a)) : Maintains g (as.foldl f g) :=
  List.foldlRecOn as f (Maintains.refl g) fun g' h a ha => h.trans (hf g' a h ha)

theorem maintains_setEdge (ht : g.contains t = true) : Maintains g (g.setEdge u p t) :=
  ⟨fun h => h.setEdge ht, fun h => h.setEdge, fun w => contains_setEdge g u w t p, lastUid_setEdge g u t p,
    predicates_setEdge g u t p⟩

theorem maintains_removeEdge : Maintains g (g.removeEdge u p t) :=
  ⟨fun h => h.removeEdge, fun h => h.removeEdge, fun w => contains_removeEdge g u w t p, lastUid_removeEdge g u t p,
    predicates_removeEdge g u t p⟩

theorem Edit.maintains (h : Edit d f) (hc : ∀ w, g.contains w = d.graph.contains w) (u : Uid) :
    Maintains g (f g u) := by
  cases h with
  | setValue p v =>
      exact ⟨fun h => h.setValue v, fun h => h.modifyValues _, fun w => contains_setValue g u w p v,
        lastUid_setValue g u p v, predicates_setValue g u p v⟩
  | setEdges p ts h =>
      refine maintains_foldl fun g' t hk ht => maintains_setEdge ?_
      rw [hk.contains, hc, h t ht]
  | removeValue p v =>
      exact ⟨fun h => h.modifyValues _, fun h => h.modifyValues _, fun w => contains_modifyNode g u w _,
        lastUid_modifyNode g u _, predicates_modifyNode g u _⟩
  | removeEdges p ts => exact maintains_foldl fun g' t _ _ => maintains_removeEdge
  | clearPredicate p =>
      refine ⟨fun h => (h.modifyValues _).clearEdges, fun h => h.clearPredicate, fun w => ?_, ?_, ?_⟩
      · exact (contains_clearEdges _ u w p).trans (contains_modifyNode g u w _)
      · exact (lastUid_clearEdges _ u p).trans (lastUid_modifyNode g u _)
      · exact (predicates_clearEdges _ u p).trans (predicates_modifyNode g u _)
  | clearAll =>
      exact ⟨fun h => h.clearAll, fun h => h.clearAll, fun w => contains_clearAll g u w, lastUid_clearAll g u,
        predicates_clearAll g u⟩

theorem Edit.maintains_update (h : Edit d f) (us : List Uid) : Maintains d.graph (d.update us f).graph :=
  maintains_foldl fun _ u hk _ => h.maintains hk.contains u

end Edits

/-- Drafts that keep what graphs should, and whose nodes have uids beyond those given out before. -/
structure Draft.Sound (g : Graph) (vars : Vars) (d : Draft) : Prop where
  overlay : d.Over g vars
  filled : g.Filled → d.graph.Filled
  grows : g.lastUid ≤ d.graph.lastUid
  beyond : ∀ s u, d.made? s = some u → g.lastUid < u.value

namespace Draft

theorem Reached.sound (hg : g.Intact) (h : d.Reached g vars) : d.Sound g vars := by
  induction h with
  | start =>
      refine ⟨.start hg, id, Nat.le_refl _, fun s u hs => ?_⟩
      cases s <;> cases hs
  | @resolved d d' make s us _ h ih =>
      rcases resolve_cases h with rfl | hm
      · exact ih
      · have hgrows := ih.grows
        refine ⟨hm.overlay ih.overlay, fun hf => ?_, ?_, fun t u ht => ?_⟩
        · rw [hm.graph]
          exact (ih.filled hf).allocate
        · rw [hm.graph, lastUid_allocate]
          omega
        · rcases hm.made_iff.1 ht with ⟨-, rfl⟩ | ht
          · exact Nat.lt_succ_of_le hgrows
          · exact ih.beyond t u ht
  | @edited d f _ h us ih =>
      have hk := h.maintains_update us
      refine ⟨ih.overlay.update (fun g' u hi hc => ?_) us, fun hf => hk.filled (ih.filled hf), ?_, ih.beyond⟩
      · have hk := h.maintains hc u
        exact ⟨hk.intact hi, hk.predicates, hk.contains⟩
      · rw [hk.lastUid]
        exact ih.grows

variable (hg : g.Intact) (hv : vars.Known g)
include hg hv

theorem Reached.setQuad (hd : d.Reached g vars) (h : Graph.setQuad vars d q = .ok d') : d'.Reached g vars := by
  unfold Graph.setQuad at h
  split at h
  · cases h
  · obtain ⟨⟨us, d₁⟩, hs, h⟩ := bind_ok_iff.1 h
    have h₁ := hd.resolved hs
    cases hq : q.object with
    | any =>
        rw [hq] at h
        cases h
    | value v =>
        rw [hq] at h
        cases h
        exact h₁.edited (.setValue q.predicate v) us
    | node t =>
        rw [hq] at h
        obtain ⟨⟨ts, d₂⟩, ht, h⟩ := bind_ok_iff.1 h
        cases h
        have hts := (resolve_spec hv (h₁.sound hg).overlay ht).contains
        exact (h₁.resolved ht).edited (.setEdges q.predicate ts hts) us

omit hg hv in
theorem Reached.deleteQuad (hd : d.Reached g vars) (h : Graph.deleteQuad vars d q = .ok d') :
    d'.Reached g vars := by
  obtain ⟨⟨us, d₁⟩, hs, h⟩ := bind_ok_iff.1 h
  have h₁ := hd.resolved hs
  cases hq : q.object with
  | any =>
      simp only [hq] at h
      split at h
      · cases h
        exact h₁.edited .clearAll us
      · cases h
        exact h₁.edited (.clearPredicate q.predicate) us
  | value v =>
      simp only [hq] at h
      cases h
      exact h₁.edited (.removeValue q.predicate v) us
  | node t =>
      simp only [hq] at h
      split at h
      · cases h
        exact h₁
      · obtain ⟨⟨ts, d₂⟩, ht, h⟩ := bind_ok_iff.1 h
        cases h
        exact (h₁.resolved ht).edited (.removeEdges q.predicate ts) us

omit hg hv in
theorem Reached.foldlM {α : Type} {step : Draft → α → Step Draft} {as : List α}
    (hstep : ∀ d a d', d.Reached g vars → step d a = .ok d' → d'.Reached g vars) (hd : d.Reached g vars)
    (h : as.foldlM step d = .ok d') : d'.Reached g vars := by
  induction as generalizing d with
  | nil =>
      cases h
      exact hd
  | cons a as ih =>
      rw [List.foldlM_cons] at h
      obtain ⟨d₁, h₁, h⟩ := bind_ok_iff.1 h
      exact ih (hstep d a d₁ hd h₁) h

theorem Reached.applyMutation {m : Mutation} (hd : d.Reached g vars)
    (h : Graph.applyMutation vars d m = .ok d') : d'.Reached g vars := by
  unfold Graph.applyMutation at h
  split at h
  · obtain ⟨d₁, h₁, h⟩ := bind_ok_iff.1 h
    have hd₁ : d₁.Reached g vars := .foldlM (fun _ _ _ hd h => hd.deleteQuad h) hd h₁
    exact .foldlM (fun _ _ _ hd h => hd.setQuad hg hv h) hd₁ h
  · cases h
    exact hd

theorem Reached.applyMutations {ms : List Mutation}
    (h : ms.foldlM (Graph.applyMutation vars) ⟨g, .empty, .empty⟩ = .ok d) : d.Reached g vars :=
  .foldlM (fun _ _ _ hd h => hd.applyMutation hg hv h) .start h

end Draft

/-- A node that a request has made has a uid beyond those given out before. -/
theorem lt_of_new {r : Request} {receipt : Receipt} (hg : g.Intact) (h : execute g r = .ok (receipt, g'))
    (hu : g'.contains u = true) (hn : ¬g.contains u = true) : g.lastUid < u.value := by
  obtain ⟨vars, d, ha, hd, -, rfl⟩ := execute_ok_iff.1 h
  have hs := (Draft.Reached.applyMutations hg (known_answers hg ha) hd).sound hg
  obtain ⟨subject, hm⟩ := (hs.overlay.made_all u hu).resolve_left hn
  exact hs.beyond subject u hm

end Inventory.Graph
