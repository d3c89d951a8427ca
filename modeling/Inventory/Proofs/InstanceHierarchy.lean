import Inventory.Proofs.Graph.Order
import Inventory.Proofs.Hierarchy
import Inventory.Proofs.StoreIntegrity
import Inventory.Repository.Instances

/-!
What the hierarchy of an instance reports: whatever so many parent edges lead to within the scopes, each instance once
and in order, whether or not parents form cycles.
-/

namespace Inventory.InstanceHierarchy

open Query Listing Hierarchy Inventory.Graph Repository Store

variable {g : Graph} {scopes : List String} {direction : Direction} {anchor u v : Uid} {depth n : Nat} {vars : Vars}
  {answer : Answer}

/-- A parent edge, followed in a direction. -/
def Adjacent (g : Graph) : Direction → Uid → Uid → Prop
  | .ancestors, u, v => v ∈ g.edges u Vocabulary.parent
  | .descendants, u, v => u ∈ g.edges v Vocabulary.parent

/-- An instance with one of the scopes. -/
def Qualifies (g : Graph) (scopes : List String) (u : Uid) : Prop :=
  g.contains u = true ∧ .str Vocabulary.equipmentMarker ∈ g.values u Vocabulary.typeName ∧ InScope g scopes u

/-- The nodes other than the anchor that one edge to `depth` edges lead to, each to a node with one of the scopes. -/
def Reached (g : Graph) (direction : Direction) (scopes : List String) (depth : Nat) (anchor v : Uid) : Prop :=
  v ≠ anchor ∧ ∃ n, 1 ≤ n ∧ n ≤ depth ∧ Hops (fun u w => Adjacent g direction u w ∧ InScope g scopes w) n anchor v

/-- What is reported of a node that has been reached. -/
def reachedRow (g : Graph) (u : Uid) : Json :=
  g.row u [.field idLabel Vocabulary.uid, .field identifierLabel Vocabulary.identifier,
    .field typeLabel Vocabulary.equipmentType]

/-- The hierarchy of an anchor is reported as it should be. -/
structure Reports (g : Graph) (direction : Direction) (scopes : List String) (depth : Nat) (anchor : Uid)
    (r : Except Failure Page) : Prop where
  notFound : (∃ what, r = .error (.notFound what)) ↔ ¬Qualifies g scopes anchor
  noData : (∃ what, r = .error (.noData what)) ↔
    Qualifies g scopes anchor ∧ ∀ v, ¬Reached g direction scopes depth anchor v
  page : Qualifies g scopes anchor → (∃ v, Reached g direction scopes depth anchor v) →
    ∃ us : List Uid, us.Nodup ∧ (∀ v, v ∈ us ↔ Reached g direction scopes depth anchor v) ∧
      us.Pairwise (Precedes g Vocabulary.identifier) ∧ r = .ok ⟨us.length, us.map (reachedRow g)⟩

section Hops

def next (g : Graph) (direction : Direction) (scopes : List String) (u : Uid) : List Uid :=
  (g.targets u (direction.edge Vocabulary.parent)).filter (g.inScopes scopes)

theorem mem_targets (hg : g.Intact) :
    v ∈ g.targets u (direction.edge Vocabulary.parent) ↔ Adjacent g direction u v := by
  cases direction with
  | ancestors => exact Iff.rfl
  | descendants => exact (hg.mirrored v Vocabulary.parent u).symm

theorem mem_next (hg : g.Intact) :
    v ∈ next g direction scopes u ↔ Adjacent g direction u v ∧ InScope g scopes v := by
  rw [next, List.mem_filter, inScopes_iff, mem_targets hg]
  exact Iff.rfl

theorem hop_next (vars : Vars) (u : Uid) :
    hop g vars (direction.edge Vocabulary.parent) (some (scopeFilter scopes)) u =
      .ok (next g direction scopes u) :=
  sift_eq_filter (passes_scopes scopes)

def qualifies (g : Graph) (scopes : List String) (u : Uid) : Bool :=
  decide (.str Vocabulary.equipmentMarker ∈ g.values u Vocabulary.typeName) && g.inScopes scopes u

theorem passes_qualifies (vars : Vars) (u : Uid) :
    passes g vars (some (.and [.eq Vocabulary.typeName (.str Vocabulary.equipmentMarker), scopeFilter scopes])) u =
      .ok (qualifies g scopes u) :=
  holdsAll_cons (holds_eq_str _ _) (holdsAll_singleton (holds_scopeFilter scopes))

/-- The anchor if it qualifies, and nothing if not. -/
def anchors (g : Graph) (scopes : List String) (anchor : Uid) : List Uid :=
  ([anchor].filter g.contains).filter (qualifies g scopes)

theorem qualifies_iff : g.contains u = true ∧ qualifies g scopes u = true ↔ Qualifies g scopes u := by
  rw [qualifies, Bool.and_eq_true, decide_eq_true_eq, inScopes_iff]
  exact Iff.rfl

theorem mem_anchors : u ∈ anchors g scopes anchor ↔ u = anchor ∧ Qualifies g scopes anchor := by
  rw [← qualifies_iff]
  exact mem_anchorsOf

theorem anchors_eq (h : Qualifies g scopes anchor) : anchors g scopes anchor = [anchor] :=
  anchorsOf_eq (qualifies_iff.2 h)

theorem anchors_eq_nil (h : ¬Qualifies g scopes anchor) : anchors g scopes anchor = [] :=
  anchorsOf_eq_nil (mt qualifies_iff.1 h)

end Hops

/-- What the query of a hierarchy answers, when `us` are the nodes in its rows. -/
structure Answered (g : Graph) (direction : Direction) (scopes : List String) (depth : Nat) (anchor : Uid)
    (answer : Answer) (us : List Uid) : Prop where
  anchored : answer.rows existsBlock = [.ofFields [(totalLabel, .ofNat (anchors g scopes anchor).length)]]
  total : answer.rows countBlock = [.ofFields [(totalLabel, .ofNat us.length)]]
  rows : answer.rows rowsBlock = us.map (reachedRow g)
  present : ∀ v ∈ us, g.contains v = true
  nodup : us.Nodup
  sorted : us.Pairwise (Precedes g Vocabulary.identifier)
  mem : Qualifies g scopes anchor → ∀ v, v ∈ us ↔ Reached g direction scopes depth anchor v

section Answers

/-- The block that binds the anchor and what it reaches. -/
def rootBlock (direction : Direction) (scopes : List String) (depth : Nat) (anchor : Uid) : Block :=
  { anchored anchor (.and [.eq Vocabulary.typeName (.str Vocabulary.equipmentMarker), scopeFilter scopes])
      (hopTo direction Vocabulary.parent (scopeFilter scopes)) with recursion := some ⟨depth, false⟩ }

/-- The variables of a hierarchy once its first block has been evaluated. -/
structure Bound (g : Graph) (direction : Direction) (scopes : List String) (depth : Nat) (anchor : Uid)
    (vars : Vars) : Prop where
  anchored : vars.Defined anchorVar
  anchors : vars.bound anchorVar = anchors g scopes anchor
  reached : vars.Collects reachedVar fun v => v ∉ InstanceHierarchy.anchors g scopes anchor ∧ ∃ n ≤ depth,
    ∃ z ∈ InstanceHierarchy.anchors g scopes anchor, Hops (fun u v => v ∈ next g direction scopes u) n z v

theorem evalBlock_root (g : Graph) (direction : Direction) (scopes : List String) (depth : Nat) (anchor : Uid)
    (params : Bindings) : ∃ vars,
      evalBlock g params .empty (rootBlock direction scopes depth anchor) = .ok (anchors g scopes anchor, vars) ∧
        Bound g direction scopes depth anchor vars := by
  obtain ⟨vars, he, hb⟩ := evalBlock_anchored (t := hopTo direction Vocabulary.parent (scopeFilter scopes))
    passes_qualifies rfl hop_next anchor depth params
  exact ⟨vars, he, hb.anchored, hb.anchors, hb.reached⟩

theorem Bound.present (h : Bound g direction scopes depth anchor vars) (hg : g.Intact) :
    ∀ v ∈ vars.bound reachedVar, g.contains v = true := by
  intro v hv
  obtain ⟨hne, n, -, z, hz, hs⟩ := (h.reached.mem v).1 hv
  have hpos : 0 < n := by
    refine Nat.pos_of_ne_zero fun h0 => ?_
    subst h0
    cases hs
    exact hne hz
  have hin : InScope g scopes v := hs.kind_of_pos (fun u v huv => ((mem_next hg).1 huv).2) hpos
  exact hin.contains

theorem Bound.mem_iff (h : Bound g direction scopes depth anchor vars) (hg : g.Intact)
    (hq : Qualifies g scopes anchor) : v ∈ vars.bound reachedVar ↔ Reached g direction scopes depth anchor v := by
  rw [h.reached.mem, anchors_eq hq, List.mem_singleton]
  constructor
  · rintro ⟨hne, n, hn, z, hz, hs⟩
    obtain rfl := List.mem_singleton.1 hz
    refine ⟨hne, n, ?_, hn, hs.mono fun u w => (mem_next hg).1⟩
    refine Nat.pos_of_ne_zero fun h0 => ?_
    subst h0
    cases hs
    exact hne rfl
  · rintro ⟨hne, n, -, hn, hs⟩
    exact ⟨hne, n, hn, anchor, List.mem_singleton_self anchor, hs.mono fun u w => (mem_next hg).2⟩

theorem evaluate_traversal (hg : g.Intact) (direction : Direction) (scopes : List String) (depth : Nat)
    (anchor : Uid) : ∃ answer vars us,
      g.evaluate (traversal anchor direction depth scopes).query
        (traversal anchor direction depth scopes).vars = .ok (answer, vars) ∧
        Answered g direction scopes depth anchor answer us := by
  obtain ⟨vars, hroot, hb⟩ := evalBlock_root g direction scopes depth anchor .empty
  have hpresent := hb.present hg
  have hanchor : ∀ u ∈ vars.bound anchorVar, g.contains u = true := by
    intro u hu
    rw [hb.anchors] at hu
    obtain ⟨rfl, hq⟩ := mem_anchors.1 hu
    exact hq.1
  have hnodup := bound_nodup vars reachedVar
  let us := g.sorted (some ⟨Vocabulary.identifier, .asc⟩) (vars.bound reachedVar)
  have hperm : us.Perm (vars.bound reachedVar) := sorted_perm _ _
  have hrows : evalBlock g .empty vars (reachedRows rowsBlock reachedVar) = .ok (us, vars) :=
    evalBlock_bound rfl hb.reached.defined hpresent rfl rfl rfl rfl rfl
  have hanswer := evalBlocks_anchored hroot rfl hb.anchored hanchor hb.reached.defined hpresent hrows rfl
  rw [hb.anchors, ← hperm.length_eq] at hanswer
  have ht := tells_answerOf (anchors g scopes anchor).length us.length (us.map (reachedRow g))
  refine ⟨_, vars, us, hanswer, ht.anchored, ht.total, ht.rows, ?_, hperm.nodup_iff.2 hnodup, ?_, ?_⟩
  · exact fun v hv => hpresent v (hperm.mem_iff.1 hv)
  · exact (pairwise_sorted hnodup).imp fun h => nodeOrder_lt_iff.1 h
  · intro hq v
    rw [hperm.mem_iff, hb.mem_iff hg hq]

end Answers

section Pages

theorem Answered.tells {us : List Uid} (h : Answered g direction scopes depth anchor answer us) :
    Tells answer (anchors g scopes anchor).length us.length (us.map (reachedRow g)) :=
  ⟨h.anchored, h.total, h.rows⟩

variable {us : List Uid} (h : Answered g direction scopes depth anchor answer us) (name : String)
include h

theorem readPage_notFound (hq : ¬Qualifies g scopes anchor) :
    Hierarchy.readPage name anchor answer = .error (.notFound s!"equipment {anchor.text}") := by
  have ht := h.tells
  rw [anchors_eq_nil hq] at ht
  exact ht.readPage_missing name anchor

theorem readPage_qualified (hsize : g.size < 1 <<< 64) (hq : Qualifies g scopes anchor) :
    Hierarchy.readPage name anchor answer =
      if us = [] then .error (.noData s!"{name} of {anchor.text}") else .ok ⟨us.length, us.map (reachedRow g)⟩ := by
  have ht := h.tells
  rw [anchors_eq hq] at ht
  exact ht.readPage_found hsize h.nodup h.present name anchor

theorem readPage_of_answered (hsize : g.size < 1 <<< 64) :
    Reports g direction scopes depth anchor (Hierarchy.readPage name anchor answer) := by
  obtain ⟨hfound, hdata, hpage⟩ := h.tells.reads anchors_eq anchors_eq_nil hsize h.nodup h.present h.mem name
  exact ⟨hfound, hdata, fun hq hsome => ⟨us, h.nodup, h.mem hq, h.sorted, hpage hq hsome⟩⟩

end Pages

section Intact

variable {s : Store} (hr : s.refusals.query = none) (hg : s.graph.Intact)
include hr hg

theorem hierarchy_answered (anchor : Uid) (direction : Direction) (depth : Nat) (scopes : List String) :
    ∃ answer us, Answered s.graph direction scopes depth anchor answer us ∧
      (perform (instanceHierarchy anchor direction (some depth) scopes) s).1 =
        Hierarchy.readPage (traversal anchor direction depth scopes).query.name anchor answer := by
  obtain ⟨answer, vars, us, he, ha⟩ := evaluate_traversal hg direction scopes depth anchor
  refine ⟨answer, us, ha, ?_⟩
  rw [instanceHierarchy, perform_bind, depthOr, perform_pure]
  simp only [readAnchored]
  rw [perform_bind, perform_read hr he]
  simp only [perform_reading]

theorem reports_of_intact (hsize : s.graph.size < 1 <<< 64) (anchor : Uid) (direction : Direction) (depth : Nat)
    (scopes : List String) : Reports s.graph direction scopes depth anchor
      (perform (instanceHierarchy anchor direction (some depth) scopes) s).1 := by
  obtain ⟨answer, us, ha, hrun⟩ := hierarchy_answered hr hg anchor direction depth scopes
  rw [hrun]
  exact readPage_of_answered ha _ hsize

/-- Depths within which the same is reached make no difference. -/
theorem hierarchy_congr {depth' : Nat} (hsize : s.graph.size < 1 <<< 64) (hq : Qualifies s.graph scopes anchor →
    ∀ v, Reached s.graph direction scopes depth' anchor v ↔ Reached s.graph direction scopes depth anchor v) :
    (perform (instanceHierarchy anchor direction (some depth') scopes) s).1 =
      (perform (instanceHierarchy anchor direction (some depth) scopes) s).1 := by
  obtain ⟨answer, us, ha, hrun⟩ := hierarchy_answered hr hg anchor direction depth scopes
  obtain ⟨answer', us', ha', hrun'⟩ := hierarchy_answered hr hg anchor direction depth' scopes
  rw [hrun, hrun']
  by_cases h : Qualifies s.graph scopes anchor
  · have hus : us' = us := by
      refine eq_of_precedes ha'.sorted ha.sorted fun v => ?_
      rw [ha'.mem h, ha.mem h, hq h]
    rw [readPage_qualified ha _ hsize h, readPage_qualified ha' _ hsize h, hus]
    rfl
  · rw [readPage_notFound ha _ h, readPage_notFound ha' _ h]

end Intact

/-- The hierarchy of an anchor, in whatever state calls have left a store of fewer than `2 ^ 64` nodes: it is not found
if it is no instance with one of the scopes, there is no data if it reaches nothing, and otherwise all that it reaches
is reported. -/
theorem reports_hierarchy {refusals : Refusals} (hr : refusals.query = none) (cs : List Call)
    (hsize : ((unused refusals).afterCalls cs).graph.size < 1 <<< 64) (anchor : Uid) (direction : Direction)
    (depth : Nat) (scopes : List String) :
    Reports ((unused refusals).afterCalls cs).graph direction scopes depth anchor
      (perform (instanceHierarchy anchor direction (some depth) scopes) ((unused refusals).afterCalls cs)).1 := by
  have hquery : ((unused refusals).afterCalls cs).refusals.query = none := by
    rw [refusals_afterCalls]
    exact hr
  exact reports_of_intact hquery (kept_unused refusals cs).intact hsize anchor direction depth scopes

/-- An instance that is made under a label, below the instance of another. -/
def instanceQuads (label parent : String) : List Quad :=
  [.text (.blank label) Vocabulary.typeName Vocabulary.equipmentMarker, .text (.blank label) Vocabulary.scopes "s1",
    .text (.blank label) Vocabulary.identifier label, .edge (.blank label) Vocabulary.parent (.blank parent)]

/-- Three instances, each below the next. -/
def ring : Call :=
  .execute (.of none [⟨none, instanceQuads "a" "b" ++ instanceQuads "b" "c" ++ instanceQuads "c" "a", []⟩])

theorem reports_ring :
    Reports ((unused .none).afterCalls [ring]).graph .ancestors ["s1"] 5 ⟨1⟩
      (perform (instanceHierarchy ⟨1⟩ .ancestors (some 5) ["s1"]) ((unused .none).afterCalls [ring])).1 := by
  have hsize : ((unused .none).afterCalls [ring]).graph.size < 1 <<< 64 := by decide +kernel
  exact reports_hierarchy rfl [ring] hsize ⟨1⟩ .ancestors 5 ["s1"]

end Inventory.InstanceHierarchy
