import Inventory.Proofs.Documents
import Inventory.Proofs.Graph.Blocks
import Mathlib.Data.List.Perm.Subperm

/-!
Blocks that are sure to give a result, and what it is. A variable is bound once a block has named it, even to no nodes.
-/

namespace Inventory.Graph

open Query Outcome Listing

variable {g : Graph} {vars vars' : Vars} {params : Bindings} {b : Block} {u : Uid} {us vs start : List Uid}
  {test : Uid → Bool} {name other : String}

/-- A node with one of some scopes. -/
def InScope (g : Graph) (scopes : List String) (u : Uid) : Prop :=
  ∃ s ∈ scopes, .str s ∈ g.values u Vocabulary.scopes

theorem InScope.contains {scopes : List String} (h : InScope g scopes u) : g.contains u = true := by
  obtain ⟨s, -, hs⟩ := h
  exact contains_of_mem_values hs

theorem mem_uids_of_text {p s : String} :
    u ∈ (g.uids.filter fun u => Comparison.valuesMatch (g.values u p) (.str s)) ↔ .str s ∈ g.values u p := by
  rw [List.mem_filter, Comparison.valuesMatch_str_iff]
  exact ⟨And.right, fun h => ⟨mem_uids.2 (contains_of_mem_values h), h⟩⟩

/-- A variable that blocks may use. -/
def Vars.Defined (vars : Vars) (name : String) : Prop := (vars.get? name).isSome = true

/-- Variables after more nodes have been bound to one of them. -/
structure Vars.Extends (name : String) (vars vars' : Vars) : Prop where
  others : ∀ other, other ≠ name → vars'.get? other = vars.get? other
  defined : vars.Defined name → vars'.Defined name

namespace Vars

theorem Extends.refl (name : String) (vars : Vars) : Extends name vars vars := ⟨fun _ _ => rfl, id⟩

theorem Extends.trans {vars'' : Vars} (h : Extends name vars vars') (h' : Extends name vars' vars'') :
    Extends name vars vars'' :=
  ⟨fun other ho => (h'.others other ho).trans (h.others other ho), h'.defined ∘ h.defined⟩

theorem extends_extend (vars : Vars) (name : String) (us : List Uid) : Extends name vars (vars.extend name us) := by
  constructor
  · intro other ho
    rw [extend, Table.get?_insert, if_neg ho]
  · intro _
    simp [Defined, extend]

theorem defined_extend (vars : Vars) (name : String) (us : List Uid) : (vars.extend name us).Defined name := by
  simp [Defined, extend]

theorem Extends.mono (h : Extends name vars vars') (hd : vars.Defined other) : vars'.Defined other := by
  by_cases ho : other = name
  · rw [ho] at hd ⊢
    exact h.defined hd
  · rw [Defined, h.others other ho]
    exact hd

theorem Extends.bound (h : Extends name vars vars') (ho : other ≠ name) : vars'.bound other = vars.bound other := by
  rw [Vars.bound, h.others other ho, Vars.bound]

/-- A variable has been bound to the nodes of a kind. -/
structure Collects (vars : Vars) (name : String) (kind : Uid → Prop) : Prop where
  defined : vars.Defined name
  mem : ∀ u, u ∈ vars.bound name ↔ kind u

theorem Collects.kept {kind : Uid → Prop} (h : vars.Collects name kind) (hext : Extends other vars vars')
    (hne : name ≠ other) : vars'.Collects name kind := by
  refine ⟨hext.mono h.defined, fun u => ?_⟩
  rw [hext.bound hne]
  exact h.mem u

end Vars

theorem refSet_uidVar (h : vars.Defined name) :
    ∃ s : UidSet, refSet vars (uidVar name) = .ok s ∧ s.items = vars.bound name := by
  obtain ⟨s, hs⟩ := Option.isSome_iff_exists.1 h
  refine ⟨s, ?_, by simp [Vars.bound, hs]⟩
  simp only [refSet, uidVar, List.mapM_cons, List.mapM_nil, refNodes, hs]
  exact congrArg Except.ok (ofList_items s)

theorem startNodes_bound (h : vars.Defined name) :
    startNodes g vars (.uid (uidVar name)) = .ok ((vars.bound name).filter g.contains) := by
  obtain ⟨s, hs, hi⟩ := refSet_uidVar h
  rw [startNodes, hs, ← hi]
  rfl

theorem holds_uidVar (h : vars.Defined name) :
    holds g vars u (.uid (uidVar name)) = .ok (decide (u ∈ vars.bound name)) := by
  obtain ⟨s, hs, hi⟩ := refSet_uidVar h
  rw [holds, hs, ← hi]
  rfl

theorem blockNodes_eq (hs : startNodes g vars b.root = .ok start)
    (hp : ∀ u, g.passes vars b.filter u = .ok (test u)) :
    blockNodes g params vars b = cut params b (g.sorted b.order (start.filter test)) := by
  rw [blockNodes, hs]
  change (do
    let kept ← sift (g.passes vars b.filter) start
    cut params b (g.sorted b.order kept)) = _
  rw [sift_eq_filter hp]
  rfl

theorem evalBlock_error {e : QueryFault} (hs : startNodes g vars b.root = .ok (u :: start))
    (hp : g.passes vars b.filter u = .error e) : evalBlock g params vars b = .error e := by
  rw [evalBlock, blockNodes, hs]
  change (do
    let us ← (do
      let kept ← sift (g.passes vars b.filter) (u :: start)
      cut params b (g.sorted b.order kept))
    _) = _
  rw [sift, hp]
  rfl

theorem evalBlock_plain (hb : Plain g vars b start test)
    (hc : cut params b (g.sorted b.order (start.filter test)) = .ok us) :
    evalBlock g params vars b = .ok (us, vars.extend? b.bind us) := by
  rw [evalBlock, blockNodes_eq hb.starts hb.passes, hc, hb.recursion, hb.traversals]
  rfl

/-- A block whose own filter never fails gives a result if its hops do. -/
theorem evalBlock_eq_traverseAll (hs : startNodes g vars b.root = .ok start)
    (hp : ∀ u, g.passes vars b.filter u = .ok (test u))
    (hc : cut params b (g.sorted b.order (start.filter test)) = .ok us) (hr : b.recursion = none) :
    evalBlock g params vars b = (do
      let vars ← traverseAll g (vars.extend? b.bind us) us b.traversals
      return (us, vars)) := by
  rw [evalBlock, blockNodes_eq hs hp, hc, hr]
  rfl

theorem evalBlock_hops (hs : startNodes g vars b.root = .ok start)
    (hp : ∀ u, g.passes vars b.filter u = .ok (test u))
    (hc : cut params b (g.sorted b.order (start.filter test)) = .ok us) (hr : b.recursion = none)
    (hv : traverseAll g (vars.extend? b.bind us) us b.traversals = .ok vars') :
    evalBlock g params vars b = .ok (us, vars') := by
  rw [evalBlock_eq_traverseAll hs hp hc hr, hv]
  rfl

theorem evalBlock_hops_error {e : QueryFault} (hs : startNodes g vars b.root = .ok start)
    (hp : ∀ u, g.passes vars b.filter u = .ok (test u))
    (hc : cut params b (g.sorted b.order (start.filter test)) = .ok us) (hr : b.recursion = none)
    (hv : traverseAll g (vars.extend? b.bind us) us b.traversals = .error e) :
    evalBlock g params vars b = .error e := by
  rw [evalBlock_eq_traverseAll hs hp hc hr, hv]
  rfl

theorem evalBlock_repeats {r : Recursion} (hs : startNodes g vars b.root = .ok start)
    (hp : ∀ u, g.passes vars b.filter u = .ok (test u))
    (hc : cut params b (g.sorted b.order (start.filter test)) = .ok us) (hr : b.recursion = some r)
    (hv : recur g (vars.extend? b.bind us) us r b.traversals = .ok vars') :
    evalBlock g params vars b = .ok (us, vars') := by
  rw [evalBlock, blockNodes_eq hs hp, hc, hr]
  change (do
    let vars ← recur g (vars.extend? b.bind us) us r b.traversals
    return (us, vars)) = _
  rw [hv]
  rfl

/-- A block that gives a result adds its rows, if it is named, and leaves the rest to the blocks after it. -/
theorem evalBlocks_cons {answer : Answer} {bs : List Block} (h : evalBlock g params vars b = .ok (us, vars')) :
    evalBlocks g params vars answer (b :: bs) =
      evalBlocks g params vars' (match b.name with
        | some name => answer.insert name (project g us b.selections)
        | none => answer) bs := by
  rw [evalBlocks, h]
  rfl

theorem evalBlocks_error {answer : Answer} {bs : List Block} {e : QueryFault}
    (h : evalBlock g params vars b = .error e) : evalBlocks g params vars answer (b :: bs) = .error e := by
  rw [evalBlocks, h]
  rfl

theorem evalBlock_bound (hr : b.root = .uid (uidVar name)) (hd : vars.Defined name)
    (hpresent : ∀ u ∈ vars.bound name, g.contains u = true) (hf : b.filter = none) (hfirst : b.first = none)
    (ho : b.offset = none) (hrec : b.recursion = none) (ht : b.traversals = []) :
    evalBlock g params vars b = .ok (g.sorted b.order (vars.bound name), vars.extend? b.bind
      (g.sorted b.order (vars.bound name))) := by
  have hstart : startNodes g vars b.root = .ok (vars.bound name) := by
    rw [hr, startNodes_bound hd, List.filter_eq_self.2 hpresent]
  have hpasses : ∀ u, g.passes vars b.filter u = .ok true := by
    intro u
    rw [hf]
    rfl
  have hplain : Plain g vars b (vars.bound name) fun _ => true := ⟨hstart, hpasses, hrec, ht⟩
  apply evalBlock_plain hplain
  rw [List.filter_true]
  exact cut_eq_self hfirst ho

theorem count_of_rows {answer : Answer} {block label : String} {n : Nat} (hn : n < 1 <<< 64)
    (h : answer.rows block = [.ofFields [(label, .ofNat n)]]) : answer.count block label = n := by
  have hb : Bits.isUnsigned 64 (n : Int) = true := by
    rw [Bits.isUnsigned_64_iff]
    omega
  rw [Answer.count, h]
  simp [Json.get?_ofFields, Entries.lookup, Json.ofNat, Json.nat?, hb]

theorem length_le_size (hn : us.Nodup) (hp : ∀ v ∈ us, g.contains v = true) : us.length ≤ g.size := by
  have hsub : us ⊆ g.uids := fun v hv => mem_uids.2 (hp v hv)
  have hle := (List.subperm_of_subset hn hsub).length_le
  rwa [Graph.uids, Table.keys, List.length_map] at hle

theorem count_nodes {answer : Answer} {block label : String} (hsize : g.size < 1 <<< 64) (hn : us.Nodup)
    (hp : ∀ v ∈ us, g.contains v = true) (h : answer.rows block = [.ofFields [(label, .ofNat us.length)]]) :
    answer.count block label = us.length :=
  count_of_rows (Nat.lt_of_le_of_lt (length_le_size hn hp) hsize) h

section Pages

variable {offset first : Nat}

theorem cut_page (ho : b.offset = some (.var "$offset")) (hf : b.first = some (.var "$pagesize"))
    (hoffset : pageArg params (.var "$offset") = .ok offset) (hfirst : pageArg params (.var "$pagesize") = .ok first) :
    cut params b us = .ok ((us.drop offset).take first) := by
  rw [cut, ho, hf, Option.mapM_some, Option.mapM_some, hoffset, hfirst]
  rfl

end Pages

end Inventory.Graph
