import Inventory.Proofs.Graph.Blocks

/-!
Whatever a query asks, its variables are bound to nodes that are there.
-/

namespace Inventory.Graph

open Query Outcome

variable {g : Graph} {vars vars' : Vars} {params : Bindings} {b : Block} {us vs : List Uid} {u : Uid}

/-- Nodes that are there. -/
def Present (g : Graph) (us : List Uid) : Prop := ∀ u ∈ us, g.contains u = true

theorem Vars.Known.extend? (hv : vars.Known g) (hu : Present g us) (name : Option String) :
    (vars.extend? name us).Known g := by
  cases name with
  | none => exact hv
  | some name =>
      intro other u h
      rcases (bound_extend name other).1 h with ⟨-, h⟩ | h
      · exact hu u h
      · exact hv other u h

theorem sift_subset {test : Uid → Eval Bool} (h : sift test us = .ok vs) : vs ⊆ us := by
  induction us generalizing vs with
  | nil =>
      cases h
      exact List.Subset.refl _
  | cons u us ih =>
      obtain ⟨ok, -, h⟩ := bind_ok_iff.1 h
      obtain ⟨rest, hr, h⟩ := bind_ok_iff.1 h
      cases h
      have hrest := ih hr
      cases ok with
      | true => exact List.cons_subset_cons u hrest
      | false => exact List.subset_cons_of_subset u hrest

theorem present_filter_uids (test : Uid → Bool) : Present g (g.uids.filter test) := by
  intro u hu
  exact mem_uids.1 (List.mem_filter.1 hu).1

theorem present_startNodes {r : Root} (h : startNodes g vars r = .ok us) : Present g us := by
  cases r with
  | eq p v =>
      cases h
      exact present_filter_uids _
  | has p =>
      cases h
      exact present_filter_uids _
  | type name =>
      cases h
      exact present_filter_uids _
  | uid refs =>
      rw [startNodes] at h
      cases hr : refSet vars refs with
      | error e =>
          rw [hr] at h
          cases h
      | ok s =>
          rw [hr] at h
          cases h
          intro u hu
          exact (List.mem_filter.1 hu).2

theorem present_blockNodes (h : blockNodes g params vars b = .ok us) : Present g us := by
  obtain ⟨start, hs, h⟩ := bind_ok_iff.1 h
  obtain ⟨kept, hk, h⟩ := bind_ok_iff.1 h
  intro u hu
  have hkept : u ∈ kept := (sorted_perm b.order kept).subset (cut_subset h hu)
  exact present_startNodes hs u (sift_subset hk hkept)

theorem present_targets (hg : g.Intact) (u : Uid) (e : Edge) : Present g (g.targets u e) := by
  intro v hv
  unfold targets at hv
  split at hv
  · exact contains_of_mem_edges ((hg.mirrored v e.predicate u).2 hv)
  · exact hg.closed u e.predicate v hv

theorem present_hop (hg : g.Intact) {e : Edge} {f : Option Filter} (h : hop g vars e f u = .ok us) : Present g us :=
  fun v hv => present_targets hg u e v (sift_subset h hv)

theorem present_hops (hg : g.Intact) {e : Edge} {f : Option Filter} {reached : List (List Uid)}
    (h : us.mapM (hop g vars e f) = .ok reached) : Present g (OrderedSet.ofList reached.flatten).items := by
  intro v hv
  obtain ⟨l, hl, hv⟩ := List.mem_flatten.1 (OrderedSet.mem_ofList.1 hv)
  obtain ⟨u, -, hu⟩ := mem_of_mapM_ok h hl
  exact present_hop hg hu v hv

mutual

theorem known_traverse (hg : g.Intact) : ∀ {us : List Uid} {vars vars' : Vars} (t : Traversal), vars.Known g →
    traverse g vars us t = .ok vars' → vars'.Known g
  | us, vars, vars', ⟨edge, filter, bind, children⟩, hv, h => by
      rw [traverse] at h
      obtain ⟨reached, hr, h⟩ := bind_ok_iff.1 h
      exact known_traverseAll hg children (hv.extend? (present_hops hg hr) bind) h

theorem known_traverseAll (hg : g.Intact) : ∀ {us : List Uid} {vars vars' : Vars} (ts : List Traversal),
    vars.Known g → traverseAll g vars us ts = .ok vars' → vars'.Known g
  | us, vars, vars', [], hv, h => by
      cases h
      exact hv
  | us, vars, vars', t :: ts, hv, h => by
      rw [traverseAll] at h
      obtain ⟨vars₁, h₁, h⟩ := bind_ok_iff.1 h
      exact known_traverseAll hg ts (known_traverse hg t hv h₁) h

end

section Repeated

variable {loop : Bool} {ts : List Traversal} {e e' : Expansion}

theorem known_takes (hv : e.vars.Known g) (hu : Present g us) (name : Option String) :
    (us.foldl (Expansion.take loop name) e).vars.Known g := by
  induction us generalizing e with
  | nil => exact hv
  | cons u us ih =>
      refine ih ?_ fun v hv => hu v (List.mem_cons_of_mem _ hv)
      unfold Expansion.take
      split
      · exact hv
      · refine hv.extend? (fun v hv => ?_) name
        rw [List.mem_singleton.1 hv]
        exact hu u List.mem_cons_self

theorem known_expandNode (hg : g.Intact) (hv : e.vars.Known g) (h : expandNode g loop u ts e = .ok e') :
    e'.vars.Known g := by
  induction ts generalizing e with
  | nil =>
      cases h
      exact hv
  | cons t ts ih =>
      obtain ⟨us, hu, h⟩ := bind_ok_iff.1 h
      exact ih (known_takes hv (present_hop hg hu) t.bind) h

theorem known_expandFrontier (hg : g.Intact) (hv : e.vars.Known g) (h : expandFrontier g loop ts us e = .ok e') :
    e'.vars.Known g := by
  induction us generalizing e with
  | nil =>
      cases h
      exact hv
  | cons u us ih =>
      obtain ⟨e₁, h₁, h⟩ := bind_ok_iff.1 h
      exact ih (known_expandNode hg hv h₁) h

theorem known_expand (hg : g.Intact) {depth : Nat} {visited : UidSet} (hv : vars.Known g)
    (h : expand g loop ts depth us visited vars = .ok vars') : vars'.Known g := by
  induction depth generalizing us visited vars with
  | zero =>
      cases h
      exact hv
  | succ depth ih =>
      obtain ⟨e, he, h⟩ := bind_ok_iff.1 h
      have hk : e.vars.Known g := known_expandFrontier hg hv he
      split at h
      · cases h
        exact hk
      · exact ih hk h

theorem known_recur (hg : g.Intact) {r : Recursion} (hv : vars.Known g) (h : recur g vars us r ts = .ok vars') :
    vars'.Known g := by
  refine known_expand hg ?_ h
  refine List.foldlRecOn ts _ hv fun vars hv t _ => ?_
  exact hv.extend? (by simp [Present]) t.bind

end Repeated

theorem known_evalBlock (hg : g.Intact) (hv : vars.Known g) (h : evalBlock g params vars b = .ok (us, vars')) :
    vars'.Known g := by
  obtain ⟨us', hu, h⟩ := bind_ok_iff.1 h
  have hk := hv.extend? (present_blockNodes hu) b.bind
  cases hr : b.recursion with
  | none =>
      rw [hr] at h
      obtain ⟨vars₁, h₁, h⟩ := bind_ok_iff.1 h
      cases h
      exact known_traverseAll hg b.traversals hk h₁
  | some r =>
      rw [hr] at h
      obtain ⟨vars₁, h₁, h⟩ := bind_ok_iff.1 h
      cases h
      exact known_recur hg hk h₁

theorem known_evalBlocks (hg : g.Intact) {bs : List Block} {answer answer' : Answer} (hv : vars.Known g)
    (h : evalBlocks g params vars answer bs = .ok (answer', vars')) : vars'.Known g := by
  induction bs generalizing vars answer with
  | nil =>
      cases h
      exact hv
  | cons b bs ih =>
      obtain ⟨⟨us, vars₁⟩, h₁, h⟩ := bind_ok_iff.1 h
      exact ih (known_evalBlock hg hv h₁) h

theorem known_answers (hg : g.Intact) {query : Option Query} {answer : Answer}
    (h : Answers g query params answer vars) : vars.Known g := by
  cases query with
  | none =>
      obtain ⟨-, rfl⟩ := h
      exact .empty
  | some q => exact known_evalBlocks hg .empty h

end Inventory.Graph
