import Inventory.Proofs.TypeDefinitions

/-!
The types below a type: those from which parent edges lead up to it by types in the scopes, so many edges at most, and
all of them where no depth is given. A way by types in the scopes need not be longer than there are such types.
-/

namespace Inventory.TypeDescendants

open Query Listing Hierarchy Inventory.Graph Repository Store Vocabulary
open TypeDefinitions (rackBelowRow)

variable {g : Graph} {s : Store} {scopes : List String} {id : String} {u v : Uid} {answer : Answer}

/-- The types of a kind are given by their names, as they are stored, or there is no data if there are none. -/
structure Lists (g : Graph) (kind : Uid → Prop) (r : Except Failure (List EquipmentType)) : Prop where
  noData : (∃ what, r = .error (.noData what)) ↔ ∀ v, ¬kind v
  types : (∃ v, kind v) → ∃ us ts, us.Nodup ∧ (∀ v, v ∈ us ↔ kind v) ∧ List.Forall₂ (StoredType g) us ts ∧
    ts.Pairwise (fun t t' => t.typeName ≤ t'.typeName) ∧ r = .ok ts

/-- The types below `u` are given: to any depth, and to all depths where none is given. -/
structure Descendants (s : Store) (scopes : List String) (id : String) (u : Uid) : Prop where
  within : ∀ depth, Lists s.graph (Below s.graph scopes depth u) (perform (typeChildren id (some depth) scopes) s).1
  all : (visibleTypes s.graph scopes).length < 1 <<< 32 →
    Lists s.graph (fun v => ∃ depth, Below s.graph scopes depth u v) (perform (typeChildren id none scopes) s).1

section Reading

theorem typeName_le {t t' : EquipmentType} (ht : StoredType g u t) (ht' : StoredType g v t')
    (h : Precedes g metaType u v) : t.typeName ≤ t'.typeName := by
  simp only [Precedes, ht.name, ht'.name, List.head?_cons] at h
  refine Comparison.le_of_compareValues ?_
  rcases h with h | ⟨h, -⟩ <;> simp [h]

theorem pairwise_typeName {us : List Uid} {ts : List EquipmentType} (h : List.Forall₂ (StoredType g) us ts)
    (hus : us.Pairwise (Precedes g metaType)) : ts.Pairwise fun t t' => t.typeName ≤ t'.typeName := by
  induction h with
  | nil => exact .nil
  | @cons u t us ts ht hts ih =>
      obtain ⟨hu, hus⟩ := List.pairwise_cons.1 hus
      refine List.pairwise_cons.2 ⟨fun t' ht' => ?_, ih hus⟩
      obtain ⟨v, hv, hv'⟩ := forall₂_right hts.flip ht'
      exact typeName_le ht hv' (hu v hv)

theorem filter_types {us : List Uid} {ts : List EquipmentType} (h : List.Forall₂ (StoredType g) us ts)
    (below : List Uid) : List.Forall₂ (StoredType g) (us.filter fun v => decide (v ∈ below))
      (ts.filter fun t => (below.map Uid.text).contains t.id) := by
  refine List.rel_filter (fun v t ht => ?_) h
  change decide (v ∈ below) = true ↔ (below.map Uid.text).contains t.id = true
  rw [decide_eq_true_eq, List.contains_iff_mem, ht.id, List.mem_map_of_injective fun _ _ => Uid.text_injective]

theorem column_ids (n : Nat) (us : List Uid) :
    (Page.column ⟨n, us.map fun v => g.row v typeRowSelections⟩ idLabel).filterMap Json.str? = us.map Uid.text := by
  induction us with
  | nil => rfl
  | cons v us ih =>
    have hid : (g.row v typeRowSelections).get? idLabel = some (.str v.text) := get?_row_id (by decide)
    rw [Page.column, List.map_cons, List.filterMap_cons, hid]
    exact congrArg (v.text :: ·) ih

/-- The types in the scopes whose ids are in the page of the query are given. -/
theorem perform_typeChildren {ts : List EquipmentType} {depth : Option Nat} {request : Listing.Request} {vars : Vars}
    (hr : s.refusals.query = none) (hid : Uid.parse? (Text.Blank.trim id) = some u)
    (ht : perform (types scopes) s = (.ok ts, s))
    (hrequest : typeTraversal u .descendants (depth.getD (defaultDepth ts.length)) scopes = request)
    (he : s.graph.evaluate request.query request.vars = .ok (answer, vars)) :
    (perform (typeChildren id depth scopes) s).1 = (Hierarchy.readPage request.query.name u answer).map fun page =>
      ts.filter fun t => ((page.column idLabel).filterMap Json.str?).contains t.id := by
  have hread : perform (read "equipment_type_children" request.query request.vars) s = (.ok answer, s) :=
    perform_read hr he
  rw [typeChildren, typeUid, hid, perform_bind]
  simp only [orNotFound, perform_pure, perform_bind, ht, hrequest, hread, perform_reading]
  cases Hierarchy.readPage request.query.name u answer <;> rfl

variable (hr : s.refusals.query = none) (hs : Coherent s.graph) (hd : Described s.graph)
  (hsize : s.graph.size < 1 <<< 64)
include hr hs hd hsize

theorem lists_typeChildren (hid : Uid.parse? (Text.Blank.trim id) = some u) (hu : u ∈ visibleTypes s.graph scopes)
    (depth : Option Nat) :
    Lists s.graph (Below s.graph scopes (depth.getD (defaultDepth (visibleTypes s.graph scopes).length)) u)
      (perform (typeChildren id depth scopes) s).1 := by
  have htyped : ∀ x y, y ∈ s.graph.edges x metaParent → s.graph.has x metaType = true := by
    intro x y hy
    simp [has, (hs.regular x).typed y hy]
  obtain ⟨us, ts, hp, hperm, hsorted, hts⟩ := perform_types hr hs hd scopes
  have hlength : ts.length = (visibleTypes s.graph scopes).length := by rw [← hts.length_eq, hperm.length_eq]
  rw [← hlength]
  obtain ⟨answer, vars, below, he, ha⟩ :=
    evaluate_typeTraversal hs.intact htyped hu (depth.getD (defaultDepth ts.length))
  have hpresent : ∀ v ∈ below, s.graph.contains v = true :=
    fun v hv => (mem_visibleTypes.1 ((ha.mem v).1 hv).visible).1
  rw [perform_typeChildren hr hid hp rfl he, ha.tells.readPage_found hsize ha.nodup hpresent]
  by_cases hnil : below = []
  · have hnone : ∀ v, ¬Below s.graph scopes (depth.getD (defaultDepth ts.length)) u v :=
      fun v hv => by simpa [hnil] using (ha.mem v).2 hv
    rw [if_pos hnil]
    exact ⟨iff_of_true ⟨_, rfl⟩ hnone, fun hsome => absurd hsome (not_exists.2 hnone)⟩
  · obtain ⟨v, hv⟩ := List.exists_mem_of_ne_nil below hnil
    have hnone : ¬∀ v, ¬Below s.graph scopes (depth.getD (defaultDepth ts.length)) u v :=
      fun h => h v ((ha.mem v).1 hv)
    have hmem : ∀ v, v ∈ us.filter (fun v => decide (v ∈ below)) ↔
        Below s.graph scopes (depth.getD (defaultDepth ts.length)) u v := by
      intro v
      rw [List.mem_filter, decide_eq_true_eq, ha.mem, hperm.mem_iff]
      exact and_iff_right_of_imp Below.visible
    rw [if_neg hnil, Except.map, column_ids]
    refine ⟨iff_of_false (by rintro ⟨what, h⟩; cases h) hnone,
      fun _ => ⟨_, _, ?_, hmem, filter_types hts below, ?_, rfl⟩⟩
    · exact (hperm.nodup_iff.2 (nodup_visibleTypes _ _)).filter _
    · exact (pairwise_typeName hts hsorted).filter _

theorem descendants_of_described (hid : Uid.parse? (Text.Blank.trim id) = some u)
    (hu : u ∈ visibleTypes s.graph scopes) : Descendants s scopes id u := by
  refine ⟨fun depth => lists_typeChildren hr hs hd hsize hid hu (some depth), fun hfew => ?_⟩
  have hdefault := lists_typeChildren hr hs hd hsize hid hu none
  have hall : (fun v => ∃ depth, Below s.graph scopes depth u v) =
      Below s.graph scopes (defaultDepth (visibleTypes s.graph scopes).length) u :=
    funext fun v => propext (below_of_le (le_defaultDepth hfew)).symm
  rw [hall]
  exact hdefault

end Reading

/-- In whatever state operations have left an inventory of fewer than `2 ^ 64` nodes, the types below a type in the
scopes given are reported. -/
theorem descendants_after {refusals : Refusals} (r : Repository) (hr : refusals.query = none) (cs : List Change)
    (hsize : (after r (bootstrapped refusals) cs).graph.size < 1 <<< 64)
    (hid : Uid.parse? (Text.Blank.trim id) = some u)
    (hu : u ∈ visibleTypes (after r (bootstrapped refusals) cs).graph scopes) :
    Descendants (after r (bootstrapped refusals) cs) scopes id u := by
  have hc := coherent_bootstrapped refusals
  have hquery : (after r (bootstrapped refusals) cs).refusals.query = none := by
    rw [refusals_after]
    exact hr
  exact descendants_of_described hquery (coherent_after hc cs) (described_after hc (described_bootstrapped refusals) cs)
    hsize hid hu

/-- The rack is below the row. -/
theorem descendants_rackBelowRow :
    (after ⟨0, .standard⟩ (bootstrapped .none) rackBelowRow).graph.size < 1 <<< 64 ∧
      Uid.parse? (Text.Blank.trim " 0x3") = some ⟨3⟩ ∧
        ⟨3⟩ ∈ visibleTypes (after ⟨0, .standard⟩ (bootstrapped .none) rackBelowRow).graph ["s1"] ∧
          (visibleTypes (after ⟨0, .standard⟩ (bootstrapped .none) rackBelowRow).graph ["s1"]).length < 1 <<< 32 ∧
            Below (after ⟨0, .standard⟩ (bootstrapped .none) rackBelowRow).graph ["s1"] 1 ⟨3⟩ ⟨5⟩ ∧
              Descendants (after ⟨0, .standard⟩ (bootstrapped .none) rackBelowRow) ["s1"] " 0x3" ⟨3⟩ := by
  have hid : Uid.parse? (Text.Blank.trim " 0x3") = some ⟨3⟩ := by decide +kernel
  obtain ⟨hsize, hfew, hrow, hrack, hedge⟩ :
      (after ⟨0, .standard⟩ (bootstrapped .none) rackBelowRow).graph.size < 1 <<< 64 ∧
        (visibleTypes (after ⟨0, .standard⟩ (bootstrapped .none) rackBelowRow).graph ["s1"]).length < 1 <<< 32 ∧
        ⟨3⟩ ∈ visibleTypes (after ⟨0, .standard⟩ (bootstrapped .none) rackBelowRow).graph ["s1"] ∧
          ⟨5⟩ ∈ visibleTypes (after ⟨0, .standard⟩ (bootstrapped .none) rackBelowRow).graph ["s1"] ∧
            ⟨3⟩ ∈ (after ⟨0, .standard⟩ (bootstrapped .none) rackBelowRow).graph.edges ⟨5⟩ metaParent := by
    decide +kernel
  have hbelow : Below (after ⟨0, .standard⟩ (bootstrapped .none) rackBelowRow).graph ["s1"] 1 ⟨3⟩ ⟨5⟩ :=
    ⟨by decide, 1, Nat.le_refl 1, .more ⟨hrack, hedge⟩ (.none _)⟩
  exact ⟨hsize, hid, hrow, hfew, hbelow, descendants_after ⟨0, .standard⟩ rfl rackBelowRow hsize hid hrow⟩

end Inventory.TypeDescendants
