import Inventory.Proofs.Graph.Links
import Inventory.Proofs.InstanceHierarchy
import Inventory.Proofs.NumberTexts

/-!
What a topology reports: at each level the nodes at the end of a path of parent edges whose nodes are in scope and of
one type of the topology after another, each node once and in order.
-/

namespace Inventory.TopologyLevels

open Query Listing Hierarchy Inventory.Graph Repository Store InstanceHierarchy Text

variable {g : Graph} {direction : Direction} {scopes types levels : List String} {typeName : String} {t : Topology}
  {anchor u v w : Uid} {us : List Uid} {vars vars' : Vars} {params : Bindings} {answer : Answer} {i k : Nat}

/-- A node of a type with one of the scopes. -/
structure OfType (g : Graph) (scopes : List String) (typeName : String) (u : Uid) : Prop where
  typed : .str typeName ∈ g.values u Vocabulary.equipmentType
  inScope : InScope g scopes u

/-- A path over parent edges, through nodes in scope that are of some types one after another. -/
inductive Chain (g : Graph) (direction : Direction) (scopes : List String) : List String → Uid → Uid → Prop
  | one {typeName : String} {u : Uid} (h : OfType g scopes typeName u) : Chain g direction scopes [typeName] u u
  | more {typeName : String} {types : List String} {u v w : Uid} (h : OfType g scopes typeName u)
      (hop : Adjacent g direction u v) (rest : Chain g direction scopes types v w) :
      Chain g direction scopes (typeName :: types) u w

/-- The nodes that a topology has at a level, the anchor being at level zero. -/
def AtLevel (g : Graph) (t : Topology) (scopes : List String) (anchor : Uid) (i : Nat) (v : Uid) : Prop :=
  Chain g t.direction scopes (t.levels.take (i + 1)) anchor v

/-- The topology of an anchor is reported as it should be. -/
structure Reports (g : Graph) (t : Topology) (scopes : List String) (anchor : Uid)
    (r : Except Failure Hierarchy.Path) : Prop where
  notFound : (∃ what, r = .error (.notFound what)) ↔ ¬OfType g scopes t.anchorType anchor
  noData : (∃ what, r = .error (.noData what)) ↔
    OfType g scopes t.anchorType anchor ∧ ∀ i < t.hops, ∀ v, ¬AtLevel g t scopes anchor (i + 1) v
  path : OfType g scopes t.anchorType anchor → (∃ i < t.hops, ∃ v, AtLevel g t scopes anchor (i + 1) v) →
    ∃ reported : List Level, r = .ok ⟨t.name, anchor, reported⟩ ∧ reported.length = t.hops ∧
      ∀ i typeName, t.levels[i + 1]? = some typeName → ∃ us : List Uid, us.Nodup ∧
        (∀ v, v ∈ us ↔ AtLevel g t scopes anchor (i + 1) v) ∧ us.Pairwise (Precedes g Vocabulary.identifier) ∧
        reported[i]? = some ⟨typeName, us.map (reachedRow g)⟩

section Chains

theorem chain_one : Chain g direction scopes [typeName] u v ↔ u = v ∧ OfType g scopes typeName v := by
  constructor
  · intro h
    cases h with
    | one h => exact ⟨rfl, h⟩
    | more h hop rest => cases rest
  · rintro ⟨rfl, h⟩
    exact .one h

theorem chain_cons (hne : types ≠ []) : Chain g direction scopes (typeName :: types) u w ↔
    OfType g scopes typeName u ∧ ∃ v, Adjacent g direction u v ∧ Chain g direction scopes types v w := by
  constructor
  · intro h
    cases h with
    | one h => exact absurd rfl hne
    | more h hop rest => exact ⟨h, _, hop, rest⟩
  · rintro ⟨h, v, hop, rest⟩
    exact .more h hop rest

theorem Chain.start (h : Chain g direction scopes (typeName :: types) u v) : OfType g scopes typeName u := by
  cases h with
  | one h => exact h
  | more h => exact h

theorem Chain.last (h : Chain g direction scopes types u v) : InScope g scopes v := by
  induction h with
  | one h => exact h.inScope
  | more h hop rest ih => exact ih

theorem Topology.levels_eq (t : Topology) : t.levels = t.anchorType :: t.levels.tail := by
  obtain ⟨name, levels, direction, hlen, hblank⟩ := t
  cases levels with
  | nil => exact absurd hlen (by decide)
  | cons l ls => rfl

theorem Topology.length_tail (t : Topology) : t.levels.tail.length = t.hops := List.length_tail

theorem take_succ_ne_nil {l : List String} (h : k < l.length) : l.take (k + 1) ≠ [] := by
  cases l with
  | nil => exact absurd h (Nat.not_lt_zero k)
  | cons x xs => exact List.cons_ne_nil _ _

theorem atLevel_succ (h : i < t.hops) : AtLevel g t scopes anchor (i + 1) v ↔ OfType g scopes t.anchorType anchor ∧
    ∃ w, Adjacent g t.direction anchor w ∧ Chain g t.direction scopes (t.levels.tail.take (i + 1)) w v := by
  rw [AtLevel, Topology.levels_eq t, List.take_succ_cons, List.tail_cons]
  apply chain_cons
  apply take_succ_ne_nil
  rwa [Topology.length_tail]

theorem AtLevel.contains (h : AtLevel g t scopes anchor i v) : g.contains v = true := Chain.last h |>.contains

end Chains

section Hops

def ofType (g : Graph) (scopes : List String) (typeName : String) (u : Uid) : Bool :=
  decide (.str typeName ∈ g.values u Vocabulary.equipmentType) && g.inScopes scopes u

theorem ofType_iff : ofType g scopes typeName u = true ↔ OfType g scopes typeName u := by
  rw [ofType, Bool.and_eq_true, decide_eq_true_eq, inScopes_iff]
  exact ⟨fun h => ⟨h.1, h.2⟩, fun h => ⟨h.typed, h.inScope⟩⟩

theorem passes_typeFilter (vars : Vars) (u : Uid) :
    passes g vars (some (typeFilter typeName scopes)) u = .ok (ofType g scopes typeName u) :=
  holdsAll_cons (holds_eq_str _ _) (holdsAll_singleton (holds_scopeFilter scopes))

/-- The nodes of a type that a parent edge leads to. -/
def nextOf (g : Graph) (direction : Direction) (scopes : List String) (typeName : String) (u : Uid) : List Uid :=
  (g.targets u (direction.edge Vocabulary.parent)).filter (ofType g scopes typeName)

theorem mem_nextOf (hg : g.Intact) :
    v ∈ nextOf g direction scopes typeName u ↔ Adjacent g direction u v ∧ OfType g scopes typeName v := by
  rw [nextOf, List.mem_filter, mem_targets hg, ofType_iff]

theorem hop_nextOf (vars : Vars) (u : Uid) :
    hop g vars (direction.edge Vocabulary.parent) (some (typeFilter typeName scopes)) u =
      .ok (nextOf g direction scopes typeName u) :=
  sift_eq_filter (passes_typeFilter vars)

theorem levelVar_injective {i k : Nat} (h : levelVar i = levelVar k) : i = k :=
  Numeral.decimal_injective (String.append_right_inj "L" |>.1 h)

theorem levelBlock_injective {i k : Nat} (h : levelBlock i = levelBlock k) : i = k :=
  Numeral.decimal_injective (String.append_right_inj "Level" |>.1 h)

/-- Each level on the way of a chain of hops is bound to the nodes that the chain leads to so far. -/
theorem traverseAll_levelHops (hg : g.Intact) (direction : Direction) (scopes levels : List String) (i : Nat)
    (us : List Uid) (vars : Vars) (hempty : ∀ k, i ≤ k → vars.bound (levelVar k) = []) :
    ∃ vars', traverseAll g vars us (levelHops direction scopes i levels) = .ok vars' ∧
      (∀ k < levels.length, vars'.Collects (levelVar (i + k)) fun v =>
        ∃ u ∈ us, ∃ w, Adjacent g direction u w ∧ Chain g direction scopes (levels.take (k + 1)) w v) ∧
      ∀ name, (∀ k, i ≤ k → name ≠ levelVar k) → vars'.get? name = vars.get? name := by
  induction levels generalizing i us vars with
  | nil => exact ⟨vars, rfl, fun k hk => absurd hk (Nat.not_lt_zero k), fun _ _ => rfl⟩
  | cons typeName levels ih =>
      let reached := onward (nextOf g direction scopes typeName) us
      have hreached : ∀ v, v ∈ reached ↔ ∃ u ∈ us, Adjacent g direction u v ∧ OfType g scopes typeName v := by
        intro v
        rw [mem_onward]
        exact exists_congr fun u => and_congr_right fun _ => mem_nextOf hg
      have hext := Vars.extends_extend vars (levelVar i) reached
      have hne : ∀ k, i + 1 ≤ k → levelVar i ≠ levelVar k := by
        intro k hk he
        have := levelVar_injective he
        omega
      obtain ⟨vars', he, hlevels, hothers⟩ := ih (i + 1) reached (vars.extend (levelVar i) reached) fun k hk => by
        rw [hext.bound (hne k hk).symm]
        exact hempty k (by omega)
      refine ⟨vars', ?_, fun k hk => ?_, fun name hname => ?_⟩
      · rw [levelHops, traverseAll, traverse_eq (hop_nextOf vars)]
        change (do
          let vars ←
            traverseAll g (vars.extend (levelVar i) reached) reached (levelHops direction scopes (i + 1) levels)
          traverseAll g vars us []) = _
        rw [he]
        rfl
      · cases k with
        | zero =>
            have hget := hothers (levelVar i) hne
            refine ⟨?_, fun v => ?_⟩
            · rw [Nat.add_zero, Vars.Defined, hget]
              exact Vars.defined_extend vars (levelVar i) reached
            · have hbound : vars'.bound (levelVar i) = (vars.extend (levelVar i) reached).bound (levelVar i) := by
                rw [Vars.bound, hget, Vars.bound]
              rw [Nat.add_zero, hbound, bound_extend, hempty i (Nat.le_refl i), hreached]
              simp [chain_one]
        | succ k =>
            have hk' : k < levels.length := Nat.lt_of_succ_lt_succ hk
            have hc := hlevels k hk'
            rw [Nat.add_right_comm, Nat.add_assoc] at hc
            refine ⟨hc.defined, fun v => ?_⟩
            rw [hc.mem, List.take_succ_cons]
            simp only [chain_cons (take_succ_ne_nil hk'), hreached]
            -- the node that the first hop leads to is bound one level earlier and is where the rest starts
            constructor
            · rintro ⟨w, ⟨u, hu, huw, hw⟩, x, hwx, hx⟩
              exact ⟨u, hu, w, huw, hw, x, hwx, hx⟩
            · rintro ⟨u, hu, w, huw, hw, x, hwx, hx⟩
              exact ⟨w, ⟨u, hu, huw, hw⟩, x, hwx, hx⟩
      · rw [hothers name fun k hk => hname k (by omega), hext.others name (hname i (Nat.le_refl i))]

end Hops

section Answers

/-- The anchor if it is of a type, and nothing if not. -/
def anchors (g : Graph) (scopes : List String) (typeName : String) (anchor : Uid) : List Uid :=
  ([anchor].filter g.contains).filter (ofType g scopes typeName)

theorem increasing_anchors : (anchors g scopes typeName anchor).Pairwise (· < ·) := increasing_anchorsOf

theorem contains_ofType_iff : g.contains u = true ∧ ofType g scopes typeName u = true ↔ OfType g scopes typeName u := by
  rw [ofType_iff]
  exact and_iff_right_of_imp fun h => h.inScope.contains

theorem mem_anchors :
    u ∈ anchors g scopes typeName anchor ↔ u = anchor ∧ OfType g scopes typeName anchor := by
  rw [← contains_ofType_iff]
  exact mem_anchorsOf

theorem anchors_eq (h : OfType g scopes typeName anchor) : anchors g scopes typeName anchor = [anchor] :=
  anchorsOf_eq (contains_ofType_iff.2 h)

theorem anchors_eq_nil (h : ¬OfType g scopes typeName anchor) : anchors g scopes typeName anchor = [] :=
  anchorsOf_eq_nil (mt contains_ofType_iff.1 h)

/-- What the query of a topology answers. -/
structure Answered (g : Graph) (t : Topology) (scopes : List String) (anchor : Uid) (answer : Answer) : Prop where
  anchored : answer.rows existsBlock = [.ofFields [(totalLabel, .ofNat (anchors g scopes t.anchorType anchor).length)]]
  level : ∀ i < t.hops, ∃ us : List Uid, us.Nodup ∧ (∀ v, v ∈ us ↔ AtLevel g t scopes anchor (i + 1) v) ∧
    us.Pairwise (Precedes g Vocabulary.identifier) ∧ answer.rows (levelBlock (i + 1)) = us.map (reachedRow g)

/-- The block that binds the anchor and the nodes at each level. -/
def rootBlock (t : Topology) (scopes : List String) (anchor : Uid) : Block :=
  { ((Block.var (.uid [.node anchor])).bindAs (levelVar 0)).filtered (typeFilter t.anchorType scopes) with
    traversals := levelHops t.direction scopes 1 t.levels.tail }

/-- The variables of a topology once its first block has been evaluated. -/
structure Bound (g : Graph) (t : Topology) (scopes : List String) (anchor : Uid) (vars : Vars) : Prop where
  anchored : vars.Defined (levelVar 0)
  anchors : vars.bound (levelVar 0) = anchors g scopes t.anchorType anchor
  level : ∀ i < t.hops, vars.Collects (levelVar (i + 1)) (AtLevel g t scopes anchor (i + 1))

theorem evalBlock_root (hg : g.Intact) (t : Topology) (scopes : List String) (anchor : Uid) (params : Bindings) :
    ∃ vars, evalBlock g params .empty (rootBlock t scopes anchor) = .ok (anchors g scopes t.anchorType anchor, vars) ∧
      Bound g t scopes anchor vars := by
  have hext := Vars.extends_extend .empty (levelVar 0) (anchors g scopes t.anchorType anchor)
  have hne : ∀ k, 1 ≤ k → levelVar 0 ≠ levelVar k := fun k hk he => by
    have := levelVar_injective he
    omega
  obtain ⟨vars, hv, hlevels, hothers⟩ := traverseAll_levelHops hg t.direction scopes t.levels.tail 1
    (anchors g scopes t.anchorType anchor) (Vars.extend .empty (levelVar 0) (anchors g scopes t.anchorType anchor))
    fun k hk => by
      rw [hext.bound (hne k hk).symm]
      rfl
  have hget := hothers (levelVar 0) hne
  refine ⟨vars, ?_, ?_, ?_, fun i hi => ?_⟩
  · exact evalBlock_hops (startNodes_uid anchor) (passes_typeFilter _) (cut_eq_self rfl rfl) rfl hv
  · rw [Vars.Defined, hget]
    exact Vars.defined_extend .empty (levelVar 0) _
  · rw [Vars.bound, hget]
    exact bound_extend_empty (levelVar 0) increasing_anchors
  · rw [← Topology.length_tail t] at hi
    have hc := hlevels i hi
    rw [Nat.add_comm 1 i] at hc
    refine ⟨hc.defined, fun v => ?_⟩
    rw [Topology.length_tail] at hi
    rw [hc.mem, atLevel_succ hi]
    constructor
    · rintro ⟨u, hu, h⟩
      obtain ⟨rfl, ho⟩ := mem_anchors.1 hu
      exact ⟨ho, h⟩
    · rintro ⟨ho, h⟩
      exact ⟨anchor, mem_anchors.2 ⟨rfl, ho⟩, h⟩

theorem evalBlocks_levels (g : Graph) (params : Bindings) (is : List Nat) (answer : Answer)
    (hd : ∀ i ∈ is, vars.Defined (levelVar i)) (hp : ∀ i ∈ is, ∀ u ∈ vars.bound (levelVar i), g.contains u = true) :
    ∃ answer', evalBlocks g params vars answer (is.map fun i => reachedRows (levelBlock i) (levelVar i)) =
        .ok (answer', vars) ∧
      (∀ i ∈ is, answer'.rows (levelBlock i) =
        (g.sorted (some ⟨Vocabulary.identifier, .asc⟩) (vars.bound (levelVar i))).map (reachedRow g)) ∧
      ∀ name, (∀ i ∈ is, name ≠ levelBlock i) → answer'.rows name = answer.rows name := by
  induction is generalizing answer with
  | nil => exact ⟨answer, rfl, fun i hi => absurd hi List.not_mem_nil, fun _ _ => rfl⟩
  | cons i is ih =>
      let rows := (g.sorted (some ⟨Vocabulary.identifier, .asc⟩) (vars.bound (levelVar i))).map (reachedRow g)
      have hblock : evalBlock g params vars (reachedRows (levelBlock i) (levelVar i)) =
          .ok (g.sorted (some ⟨Vocabulary.identifier, .asc⟩) (vars.bound (levelVar i)), vars) :=
        evalBlock_bound rfl (hd i List.mem_cons_self) (hp i List.mem_cons_self) rfl rfl rfl rfl rfl
      obtain ⟨answer', he, hrows, hothers⟩ := ih (answer.insert (levelBlock i) rows)
        (fun k hk => hd k (List.mem_cons_of_mem i hk)) fun k hk => hp k (List.mem_cons_of_mem i hk)
      refine ⟨answer', ?_, fun k hk => ?_, fun name hname => ?_⟩
      · rw [List.map_cons, evalBlocks_cons hblock]
        exact he
      · by_cases hin : k ∈ is
        · exact hrows k hin
        · obtain rfl := (List.mem_cons.1 hk).resolve_right hin
          rw [hothers (levelBlock k) fun j hj he => hin (levelBlock_injective he ▸ hj)]
          exact rows_insert answer (levelBlock k) rows
      · rw [hothers name fun k hk => hname k (List.mem_cons_of_mem i hk)]
        exact rows_insert_of_ne answer (hname i List.mem_cons_self) rows

theorem existsBlock_ne (i : Nat) : existsBlock ≠ levelBlock i := by
  intro h
  have hhead := congrArg (fun s => s.toList.head?) h
  simp [existsBlock, levelBlock] at hhead

theorem evaluate_topology (hg : g.Intact) (t : Topology) (anchor : Uid) (scopes : List String) :
    ∃ answer vars, g.evaluate (topology t anchor scopes) .empty = .ok (answer, vars) ∧
      Answered g t scopes anchor answer := by
  obtain ⟨vars, hroot, hb⟩ := evalBlock_root hg t scopes anchor .empty
  have hanchor : ∀ u ∈ vars.bound (levelVar 0), g.contains u = true := by
    intro u hu
    rw [hb.anchors] at hu
    obtain ⟨rfl, ho⟩ := mem_anchors.1 hu
    exact ho.inScope.contains
  have hlevel : ∀ i ∈ List.range' 1 t.hops, vars.Collects (levelVar i) (AtLevel g t scopes anchor i) := by
    intro i hi
    obtain ⟨k, hk, rfl⟩ := List.mem_range'.1 hi
    rw [Nat.one_mul, Nat.add_comm]
    exact hb.level k hk
  obtain ⟨answer, he, hrows, hothers⟩ := evalBlocks_levels g .empty (List.range' 1 t.hops)
    (Table.empty.insert existsBlock [.ofFields [(totalLabel, .ofNat (anchors g scopes t.anchorType anchor).length)]])
    (fun i hi => (hlevel i hi).defined) fun i hi u hu => (((hlevel i hi).mem u).1 hu).contains
  refine ⟨answer, vars, ?_, ?_, fun i hi => ?_⟩
  · change evalBlocks g .empty .empty .empty (rootBlock t scopes anchor :: counted existsBlock (levelVar 0) :: _) = _
    rw [evalBlocks_cons hroot, evalBlocks_counts hb.anchored hanchor, hb.anchors]
    exact he
  · rw [hothers existsBlock fun i _ => existsBlock_ne i]
    exact rows_insert ..
  · have hmem : i + 1 ∈ List.range' 1 t.hops := List.mem_range'.2 ⟨i, hi, by omega⟩
    have hnodup := bound_nodup vars (levelVar (i + 1))
    have hperm := sorted_perm (g := g) (some ⟨Vocabulary.identifier, .asc⟩) (vars.bound (levelVar (i + 1)))
    refine ⟨_, hperm.nodup_iff.2 hnodup, fun v => ?_, ?_, hrows (i + 1) hmem⟩
    · rw [hperm.mem_iff, (hlevel (i + 1) hmem).mem]
    · exact (pairwise_sorted hnodup).imp fun h => nodeOrder_lt_iff.1 h

end Answers

section Paths

/-- The levels in an answer, each by the name of its type. -/
def levelsOf (t : Topology) (answer : Answer) : List Level :=
  t.levels.tail.zipIdx.map fun (name, i) => ⟨name, answer.rows (levelBlock (i + 1))⟩

theorem length_levelsOf (t : Topology) (answer : Answer) : (levelsOf t answer).length = t.hops := by
  rw [levelsOf, List.length_map, List.length_zipIdx, Topology.length_tail]

theorem getElem?_levelsOf (h : t.levels[i + 1]? = some typeName) :
    (levelsOf t answer)[i]? = some ⟨typeName, answer.rows (levelBlock (i + 1))⟩ := by
  rw [levelsOf, List.getElem?_map, List.getElem?_zipIdx, List.getElem?_tail, h]
  simp

theorem all_isEmpty_levelsOf : (levelsOf t answer).all (·.rows.isEmpty) = true ↔
    ∀ i < t.hops, answer.rows (levelBlock (i + 1)) = [] := by
  have hget : ∀ i (hi : i < (levelsOf t answer).length),
      (levelsOf t answer)[i].rows.isEmpty = true ↔ answer.rows (levelBlock (i + 1)) = [] := by
    intro i hi
    simp [levelsOf]
  rw [List.all_eq_true, List.forall_mem_iff_getElem]
  constructor
  · intro h i hi
    rw [← length_levelsOf t answer] at hi
    exact (hget i hi).1 (h i hi)
  · intro h i hi
    refine (hget i hi).2 (h i ?_)
    rwa [length_levelsOf] at hi

variable (h : Answered g t scopes anchor answer)
include h

theorem readPath_notFound (hq : ¬OfType g scopes t.anchorType anchor) :
    readPath t anchor answer = .error (.notFound s!"{t.anchorType} {anchor.text}") := by
  have hexists : answer.count existsBlock totalLabel = 0 := by
    refine count_of_rows (by decide) ?_
    rw [h.anchored, anchors_eq_nil hq]
    rfl
  rw [readPath, if_pos hexists]

theorem readPath_anchored (hq : OfType g scopes t.anchorType anchor) :
    readPath t anchor answer =
      if (levelsOf t answer).all (·.rows.isEmpty) then .error (.noData s!"{t.name} topology of {anchor.text}")
      else .ok ⟨t.name, anchor, levelsOf t answer⟩ := by
  have hexists : answer.count existsBlock totalLabel = 1 := by
    refine count_of_rows (by decide) ?_
    rw [h.anchored, anchors_eq hq]
    rfl
  rw [readPath, if_neg (by omega)]
  rfl

theorem rows_eq_nil_iff (hi : i < t.hops) :
    answer.rows (levelBlock (i + 1)) = [] ↔ ∀ v, ¬AtLevel g t scopes anchor (i + 1) v := by
  obtain ⟨us, -, hmem, -, hrows⟩ := h.level i hi
  rw [hrows, List.map_eq_nil_iff, List.eq_nil_iff_forall_not_mem]
  exact forall_congr' fun v => not_congr (hmem v)

theorem readPath_of_answered : Reports g t scopes anchor (readPath t anchor answer) := by
  by_cases hq : OfType g scopes t.anchorType anchor
  · rw [readPath_anchored h hq]
    have hempty : (levelsOf t answer).all (·.rows.isEmpty) = true ↔
        ∀ i < t.hops, ∀ v, ¬AtLevel g t scopes anchor (i + 1) v := by
      rw [all_isEmpty_levelsOf]
      exact forall_congr' fun i => forall_congr' fun hi => rows_eq_nil_iff h hi
    by_cases hnone : ∀ i < t.hops, ∀ v, ¬AtLevel g t scopes anchor (i + 1) v
    · rw [if_pos (hempty.2 hnone)]
      refine ⟨by simp [hq], ⟨fun _ => ⟨hq, hnone⟩, fun _ => ⟨_, rfl⟩⟩, fun _ hsome => ?_⟩
      obtain ⟨i, hi, v, hv⟩ := hsome
      exact absurd hv (hnone i hi v)
    · rw [if_neg fun hall => hnone (hempty.1 hall)]
      refine ⟨by simp [hq], by simpa [hq] using hnone, fun _ _ => ⟨_, rfl, length_levelsOf t answer, ?_⟩⟩
      intro i typeName hi
      have hlt : i < t.hops := by
        have hlength := (List.getElem?_eq_some_iff.1 hi).1
        rw [Topology.hops]
        omega
      obtain ⟨us, hnodup, hmem, hsorted, hrows⟩ := h.level i hlt
      refine ⟨us, hnodup, hmem, hsorted, ?_⟩
      rw [getElem?_levelsOf hi, hrows]
  · rw [readPath_notFound h hq]
    exact ⟨by simp [hq], by simp [hq], fun hq' => absurd hq' hq⟩

end Paths

theorem reports_of_intact {s : Store} (hr : s.refusals.query = none) (hg : s.graph.Intact) (t : Topology) (anchor : Uid)
    (scopes : List String) : Reports s.graph t scopes anchor (perform (instanceTopology t anchor scopes) s).1 := by
  obtain ⟨answer, vars, he, ha⟩ := evaluate_topology hg t anchor scopes
  have hrun : (perform (instanceTopology t anchor scopes) s).1 = readPath t anchor answer := by
    rw [instanceTopology, perform_bind, perform_read hr he]
    simp only [perform_reading]
  rw [hrun]
  exact readPath_of_answered ha

/-- The topology of an anchor, in whatever state calls have left a store: it is not found if the anchor is not in scope
and of the first type, there is no data if every level is empty, and otherwise each level has the name of its type and
all the nodes that a chain of parent edges leads to. -/
theorem reports_topology {refusals : Refusals} (hr : refusals.query = none) (cs : List Call) (t : Topology)
    (anchor : Uid) (scopes : List String) :
    Reports ((unused refusals).afterCalls cs).graph t scopes anchor
      (perform (instanceTopology t anchor scopes) ((unused refusals).afterCalls cs)).1 := by
  have hquery : ((unused refusals).afterCalls cs).refusals.query = none := by
    rw [refusals_afterCalls]
    exact hr
  exact reports_of_intact hquery (kept_unused refusals cs).intact t anchor scopes

/-- An instance of a type that is made under a label, below the instances of others. -/
def typedQuads (label typeName : String) (parents : List String) : List Quad :=
  [.text (.blank label) Vocabulary.scopes "s1", .text (.blank label) Vocabulary.equipmentType typeName,
    .text (.blank label) Vocabulary.identifier label] ++
    parents.map fun parent => .edge (.blank label) Vocabulary.parent (.blank parent)

/-- Two folders below a folder, and a file below both. -/
def folders : Call :=
  .execute (.of none [⟨none, typedQuads "top" "folder" [] ++ typedQuads "b" "folder" ["top"] ++
    typedQuads "a" "folder" ["top"] ++ typedQuads "f" "file" ["a", "b"], []⟩])

/-- From a folder through a folder in it to a file. -/
def downToFiles : Topology where
  name := "files"
  levels := ["folder", "folder", "file"]
  direction := .descendants
  two_le := by decide
  not_blank := by decide

theorem reports_folders :
    Reports ((unused .none).afterCalls [folders]).graph downToFiles ["s1"] ⟨1⟩
      (perform (instanceTopology downToFiles ⟨1⟩ ["s1"]) ((unused .none).afterCalls [folders])).1 :=
  reports_topology rfl [folders] downToFiles ⟨1⟩ ["s1"]

end Inventory.TopologyLevels
