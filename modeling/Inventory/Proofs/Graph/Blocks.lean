import Inventory.Graph.Evaluation
import Inventory.Listing.Request
import Inventory.Proofs.Comparison
import Inventory.Proofs.Graph.Drafts

/-!
Blocks whose filter never fails give the nodes that pass it, in some order.
-/

namespace Inventory.Graph

open Query Outcome Listing

variable {g : Graph} {vars vars' : Vars} {params : Bindings} {b : Block} {u : Uid} {us vs start : List Uid}
  {test : Uid → Bool}

/-- Whether a node is in one of some scopes. -/
def inScopes (g : Graph) (scopes : List String) (u : Uid) : Bool :=
  Comparison.valuesMatch (g.values u Vocabulary.scopes) (.ofStrings scopes)

theorem inScopes_iff {scopes : List String} :
    g.inScopes scopes u = true ↔ ∃ s ∈ scopes, .str s ∈ g.values u Vocabulary.scopes :=
  Comparison.valuesMatch_ofStrings_iff

section Filters

variable {f : Filter} {fs : List Filter} {c d : Bool}

theorem holds_scopeFilter (scopes : List String) :
    holds g vars u (scopeFilter scopes) = .ok (g.inScopes scopes u) := rfl

theorem holds_eq_str (p s : String) :
    holds g vars u (.eq p (.str s)) = .ok (decide (.str s ∈ g.values u p)) := by
  have : Comparison.valuesMatch (g.values u p) (.str s) = decide (.str s ∈ g.values u p) := by
    rw [Bool.eq_iff_iff, Comparison.valuesMatch_str_iff, decide_eq_true_eq]
  rw [holds, this]

theorem holdsAll_cons (hf : holds g vars u f = .ok c) (hfs : holdsAll g vars u fs = .ok d) :
    holdsAll g vars u (f :: fs) = .ok (c && d) := by
  rw [holdsAll, hf]
  cases c with
  | true => exact hfs
  | false => rfl

theorem holdsAll_singleton (hf : holds g vars u f = .ok c) : holdsAll g vars u [f] = .ok c := by
  rw [holdsAll_cons hf rfl, Bool.and_true]

end Filters

theorem passes_scopes (scopes : List String) (u : Uid) :
    passes g vars (some (scopeFilter scopes)) u = .ok (g.inScopes scopes u) := rfl

theorem sift_eq_filter {check : Uid → Eval Bool} (h : ∀ u, check u = .ok (test u)) :
    sift check us = .ok (us.filter test) := by
  induction us with
  | nil => rfl
  | cons u us ih =>
      rw [sift, h, ih, List.filter_cons]
      rfl

theorem sorted_perm (o : Option Order) (us : List Uid) : (g.sorted o us).Perm us := by
  cases o with
  | none => exact .refl _
  | some o => exact List.mergeSort_perm us _

/-- Sorting with one comparison where there are two nodes. -/
def sortedPairs (g : Graph) (o : Option Order) : List Uid → List Uid
  | [u, v] =>
    match o with
    | some o => if nodeOrder g o u v != .gt then [u, v] else [v, u]
    | none => [u, v]
  | us => g.sorted o us

theorem sorted_eq_sortedPairs (o : Option Order) (us : List Uid) : g.sorted o us = g.sortedPairs o us := by
  match us with
  | [] => rfl
  | [_] => rfl
  | [u, v] =>
      cases o with
      | none => rfl
      | some o => simp [sorted, sortedPairs, List.mergeSort, List.merge, List.MergeSort.Internal.splitInTwo]
  | _ :: _ :: _ :: _ => rfl

theorem blockNodes_eq_sortedPairs (b : Block) : blockNodes g params vars b = (do
    let start ← startNodes g vars b.root
    let kept ← sift (passes g vars b.filter) start
    cut params b (g.sortedPairs b.order kept)) := by
  simp only [blockNodes, sorted_eq_sortedPairs]

theorem cut_subset (h : cut params b us = .ok vs) : vs ⊆ us := by
  obtain ⟨offset, -, h⟩ := bind_ok_iff.1 h
  obtain ⟨first, -, h⟩ := bind_ok_iff.1 h
  cases first with
  | none =>
      cases h
      exact List.drop_subset _ _
  | some n =>
      cases h
      exact fun _ hv => List.drop_subset _ _ (List.take_subset _ _ hv)

theorem cut_eq_self (hf : b.first = none) (ho : b.offset = none) : cut params b us = .ok us := by
  rw [cut, hf, ho]
  rfl

theorem mem_uids : u ∈ g.uids ↔ g.contains u = true := (contains_iff g).symm

theorem increasing_uids (g : Graph) : g.uids.Pairwise (· < ·) := List.pairwise_map.2 g.nodes.increasing

theorem nodup_uids (g : Graph) : g.uids.Nodup := (increasing_uids g).imp fun h he => absurd (he ▸ h) Std.lt_irrefl

theorem uids_of_contains {g' : Graph} (h : ∀ w, g'.contains w = g.contains w) : g'.uids = g.uids := by
  refine OrderedSet.items_eq_of_mem_iff (increasing_uids g') (increasing_uids g) fun w => ?_
  rw [mem_uids, mem_uids, h]

theorem startNodes_uid (u : Uid) : startNodes g vars (.uid [.node u]) = .ok ([u].filter g.contains) := rfl

theorem ofList_items (s : UidSet) : OrderedSet.ofList [s.items].flatten = s := by
  ext u
  rw [OrderedSet.mem_ofList, List.flatten_singleton, OrderedSet.mem_def]

theorem startNodes_uidVar {name : String} (h : startNodes g vars (.uid (uidVar name)) = .ok us) :
    us = (vars.bound name).filter g.contains := by
  cases hv : vars.get? name with
  | none =>
      simp only [startNodes, refSet, uidVar, List.mapM_cons, refNodes, hv] at h
      cases h
  | some s =>
      have hr : refSet vars (uidVar name) = .ok (.ofList [s.items].flatten) := by
        simp only [refSet, uidVar, List.mapM_cons, List.mapM_nil, refNodes, hv]
        rfl
      rw [startNodes, hr, ofList_items] at h
      cases h
      rw [Vars.bound, hv]
      rfl

/-- A block without hops, whose filter never fails. -/
structure Plain (g : Graph) (vars : Vars) (b : Block) (start : List Uid) (test : Uid → Bool) : Prop where
  starts : startNodes g vars b.root = .ok start
  passes : ∀ u, passes g vars b.filter u = .ok (test u)
  recursion : b.recursion = none
  traversals : b.traversals = []

theorem startNodes_of_evalBlock (h : evalBlock g params vars b = .ok (us, vars')) :
    ∃ start, startNodes g vars b.root = .ok start := by
  obtain ⟨us', hus, -⟩ := bind_ok_iff.1 h
  obtain ⟨start, hs, -⟩ := bind_ok_iff.1 hus
  exact ⟨start, hs⟩

theorem blockNodes_ok (hs : startNodes g vars b.root = .ok start)
    (hp : ∀ u, g.passes vars b.filter u = .ok (test u)) (h : blockNodes g params vars b = .ok us) :
    us ⊆ start.filter test ∧
      (b.first = none → b.offset = none → us = g.sorted b.order (start.filter test)) := by
  rw [blockNodes, hs] at h
  obtain ⟨start', hst, h⟩ := bind_ok_iff.1 h
  cases hst
  rw [sift_eq_filter hp] at h
  obtain ⟨kept, hk, h⟩ := bind_ok_iff.1 h
  cases hk
  refine ⟨fun u hu => ?_, fun hf ho => ?_⟩
  · exact (sorted_perm b.order _).subset (cut_subset h hu)
  · rw [cut_eq_self hf ho] at h
    cases h
    rfl

theorem evalBlock_ok (hb : Plain g vars b start test) (h : evalBlock g params vars b = .ok (us, vars')) :
    us ⊆ start.filter test ∧ vars' = vars.extend? b.bind us ∧
      (b.first = none → b.offset = none → us = g.sorted b.order (start.filter test)) := by
  obtain ⟨us', hus, h⟩ := bind_ok_iff.1 h
  rw [hb.recursion, hb.traversals] at h
  cases h
  obtain ⟨hsub, heq⟩ := blockNodes_ok hb.starts hb.passes hus
  exact ⟨hsub, rfl, heq⟩

theorem bound_extend (name other : String) :
    u ∈ (vars.extend name us).bound other ↔ (other = name ∧ u ∈ us) ∨ u ∈ vars.bound other := by
  unfold Vars.extend Vars.bound
  rw [Table.get?_insert]
  by_cases h : other = name
  · subst h
    simp [← OrderedSet.mem_def]
  · simp [h]

theorem mem_bound_extend_empty {name other : String} :
    u ∈ (Vars.extend .empty name us).bound other ↔ other = name ∧ u ∈ us := by
  rw [bound_extend]
  exact or_iff_left fun h => by cases h

/-- What is bound to a new variable in the order of sets. -/
theorem bound_extend_empty (name : String) (h : us.Pairwise (· < ·)) :
    (Vars.extend .empty name us).bound name = us := by
  have hi : (Vars.extend .empty name us).bound name = (OrderedSet.ofList us).items := by
    simp [Vars.extend, Vars.bound, OrderedSet.ofList]
  rw [hi]
  exact OrderedSet.items_eq_of_mem_iff (OrderedSet.ofList us).increasing h fun _ => OrderedSet.mem_ofList

theorem bound_nodup (vars : Vars) (name : String) : (vars.bound name).Nodup :=
  ((vars.get? name).getD .empty).increasing.imp fun h he => absurd (he ▸ h) Std.lt_irrefl

theorem project_rows {s : Selection} {ss : List Selection} (h : countLabel? s = none) :
    project g us (s :: ss) = us.map fun u => g.row u (s :: ss) := by
  unfold project
  rw [List.mapM_cons, h]
  rfl

theorem rows_insert (a : Answer) (name : String) (rows : List Json) : Answer.rows (a.insert name rows) name = rows := by
  simp [Answer.rows]

theorem rows_insert_of_ne (a : Answer) {name other : String} (h : other ≠ name) (rows : List Json) :
    Answer.rows (a.insert name rows) other = a.rows other := by
  simp [Answer.rows, h]

theorem evaluate_block {q name : String} {ps : List (String × String)} {answer : Answer}
    (hb : Plain g .empty b start test) (hn : b.name = some name) (hf : b.first = none) (ho : b.offset = none)
    (h : evaluate g ⟨q, ps, [b]⟩ params = .ok (answer, vars)) :
    answer.rows name = project g (g.sorted b.order (start.filter test)) b.selections := by
  obtain ⟨⟨us, vars'⟩, he, h⟩ := bind_ok_iff.1 h
  obtain ⟨-, -, hus⟩ := evalBlock_ok hb he
  rw [hn] at h
  cases h
  rw [hus hf ho, rows_insert]

theorem evaluate_rows {q name : String} {ps : List (String × String)} {answer : Answer} {s : Selection}
    {ss : List Selection} (hb : Plain g .empty b start test) (hn : b.name = some name) (hf : b.first = none)
    (ho : b.offset = none) (hsel : b.selections = s :: ss) (hc : countLabel? s = none)
    (h : evaluate g ⟨q, ps, [b]⟩ params = .ok (answer, vars)) :
    answer.rows name = (g.sorted b.order (start.filter test)).map fun u => g.row u (s :: ss) := by
  rw [evaluate_block hb hn hf ho h, hsel, project_rows hc]

theorem evaluate_count {q name label : String} {ps : List (String × String)} {answer : Answer}
    (hb : Plain g .empty b start test) (hn : b.name = some name) (hf : b.first = none) (ho : b.offset = none)
    (hsel : b.selections = [.count label]) (h : evaluate g ⟨q, ps, [b]⟩ params = .ok (answer, vars)) :
    answer.rows name = [.ofFields [(label, .ofNat (start.filter test).length)]] := by
  rw [evaluate_block hb hn hf ho h, hsel, ← (sorted_perm b.order (start.filter test)).length_eq]
  rfl

theorem evalBlocks_var {name : String} {bs : List Block} {answer answer' : Answer} (hb : Plain g vars b start test)
    (hn : b.name = none) (hv : b.bind = some name) (hf : b.first = none) (ho : b.offset = none)
    (h : evalBlocks g params vars answer (b :: bs) = .ok (answer', vars')) :
    ∃ us, (∀ u, u ∈ us ↔ u ∈ start ∧ test u = true) ∧
      evalBlocks g params (vars.extend name us) answer bs = .ok (answer', vars') := by
  obtain ⟨⟨us, vars₁⟩, he, h⟩ := bind_ok_iff.1 h
  obtain ⟨-, rfl, hus⟩ := evalBlock_ok hb he
  rw [hv, hn] at h
  refine ⟨us, fun u => ?_, h⟩
  rw [hus hf ho, (sorted_perm b.order _).mem_iff, List.mem_filter]

end Inventory.Graph
