import Inventory.Proofs.InstanceListing
import Inventory.Proofs.TopologyLevels

/-!
What the parents and the children of an instance report: the nodes of a type that one parent edge leads to, each once
and in order.
-/

namespace Inventory.InstanceRelatives

open Query Listing Hierarchy Inventory.Graph Repository Store TopologyLevels
open InstanceHierarchy (Adjacent mem_targets)

variable {g : Graph} {direction : Direction} {scopes : List String} {typeName : String} {t t' : EquipmentType}
  {s : ListingSpec} {anchor u v : Uid} {us : List Uid} {vars : Vars} {params : Bindings} {answer : Answer}
  {f : Filter} {o : Order} {meaning kind : Uid → Prop} {E : QueryFault → Prop} {page : List Uid → List Uid}
  {rows : Block}

/-- The nodes of a type that a parent edge leads to from an anchor of a type. -/
structure Relative (g : Graph) (direction : Direction) (scopes : List String) (anchorType typeName : String)
    (anchor v : Uid) : Prop where
  anchored : OfType g scopes anchorType anchor
  hop : Adjacent g direction anchor v
  typed : OfType g scopes typeName v

/-- A page of the nodes of a kind is reported, in order and with the number of them all, if there is an anchor. -/
structure Reports (g : Graph) (t : EquipmentType) (o : Order) (page : List Uid → List Uid) (anchored : Prop)
    (kind : Uid → Prop) (r : Except Failure Page) : Prop where
  notFound : (∃ what, r = .error (.notFound what)) ↔ ¬anchored
  noData : (∃ what, r = .error (.noData what)) ↔ anchored ∧ ∀ v, ¬kind v
  page : anchored → (∃ v, kind v) → ∃ us : List Uid, us.Nodup ∧ (∀ v, v ∈ us ↔ kind v) ∧
    us.Pairwise (fun u v => nodeOrder g o u v = .lt) ∧
    r = .ok ⟨us.length, (page us).map fun u => g.row u (projection t false)⟩

section Answers

/-- The block that binds an anchor of a type and what one hop reaches from it. -/
def rootBlock (direction : Direction) (scopes : List String) (anchorType : String) (f : Filter) (anchor : Uid) :
    Block :=
  anchored anchor (typeFilter anchorType scopes) (hopTo direction Vocabulary.parent f)

/-- The nodes of some meaning that one hop reaches. -/
def Reached (g : Graph) (direction : Direction) (scopes : List String) (anchorType : String) (meaning : Uid → Prop)
    (anchor v : Uid) : Prop :=
  OfType g scopes anchorType anchor ∧ Adjacent g direction anchor v ∧ meaning v

/-- The variables of a request once its first block has been evaluated. -/
structure Bound (g : Graph) (scopes : List String) (anchorType : String) (anchor : Uid) (kind : Uid → Prop)
    (vars : Vars) : Prop where
  anchored : vars.Defined anchorVar
  anchors : vars.bound anchorVar = anchors g scopes anchorType anchor
  reached : vars.Collects reachedVar kind

theorem evalBlock_root (hg : g.Intact) (hf : ∀ vars u, Settles E (passes g vars (some f) u) (meaning u))
    (direction : Direction) (scopes : List String) (typeName : String) (anchor : Uid) :
    (∃ vars, (∀ params, evalBlock g params .empty (rootBlock direction scopes typeName f anchor) =
        .ok (anchors g scopes typeName anchor, vars)) ∧
      Bound g scopes typeName anchor (Reached g direction scopes typeName meaning anchor) vars) ∨
    ∃ e, (∀ params, evalBlock g params .empty (rootBlock direction scopes typeName f anchor) = .error e) ∧ E e := by
  let us := anchors g scopes typeName anchor
  let vars := Vars.extend .empty anchorVar us
  have hext := Vars.extends_extend .empty anchorVar us
  rcases Settles.hops (hf vars) (direction.edge Vocabulary.parent) us with ⟨vss, hvss, hmem⟩ | ⟨e, he, hE⟩
  · let reached := (OrderedSet.ofList vss.flatten).items
    have hext' := Vars.extends_extend vars reachedVar reached
    have hempty : vars.bound reachedVar = [] := hext.bound (by decide)
    refine .inl ⟨vars.extend reachedVar reached, fun params => ?_, ?_, ?_, Vars.defined_extend vars reachedVar _,
      fun v => ?_⟩
    · refine evalBlock_hops (startNodes_uid anchor) (passes_typeFilter _) (cut_eq_self rfl rfl) rfl ?_
      change traverseAll g vars us [hopTo direction Vocabulary.parent f] = _
      rw [traverseAll, hopTo, Graph.traverse, hvss]
      rfl
    · exact hext'.mono (Vars.defined_extend .empty anchorVar us)
    · rw [hext'.bound (by decide), bound_extend_empty anchorVar increasing_anchors]
    · rw [bound_extend, hempty, ← OrderedSet.mem_def, OrderedSet.mem_ofList, hmem]
      simp only [us, mem_targets hg, mem_anchors, Reached]
      simp
  · refine .inr ⟨e, fun params => ?_, hE⟩
    refine evalBlock_hops_error (startNodes_uid anchor) (passes_typeFilter _) (cut_eq_self rfl rfl) rfl ?_
    change traverseAll g vars us [hopTo direction Vocabulary.parent f] = _
    rw [traverseAll, hopTo, Graph.traverse, he]
    rfl

/-- A block that reports a page of the nodes that have been reached, in order. -/
structure RowsBlock (g : Graph) (params : Bindings) (t : EquipmentType) (o : Order) (page : List Uid → List Uid)
    (b : Block) : Prop where
  name : b.name = some rowsBlock
  selections : b.selections = projection t false
  evaluates : ∀ vars : Vars, vars.Defined reachedVar → (∀ u ∈ vars.bound reachedVar, g.contains u = true) →
    evalBlock g params vars b = .ok (page (g.sorted (some o) (vars.bound reachedVar)), vars)

/-- What a request about the relatives of an anchor answers, when `us` are all of them. -/
structure Answered (g : Graph) (t : EquipmentType) (page : List Uid → List Uid) (scopes : List String)
    (anchorType : String) (anchor : Uid) (answer : Answer) (us : List Uid) : Prop where
  anchored : answer.rows existsBlock = [.ofFields [(totalLabel, .ofNat (anchors g scopes anchorType anchor).length)]]
  total : answer.rows countBlock = [.ofFields [(totalLabel, .ofNat us.length)]]
  rows : answer.rows rowsBlock = (page us).map fun u => g.row u (projection t false)

theorem Answered.tells (h : Answered g t page scopes typeName anchor answer us) :
    Tells answer (anchors g scopes typeName anchor).length us.length
      ((page us).map fun u => g.row u (projection t false)) :=
  ⟨h.anchored, h.total, h.rows⟩

/-- A query about the relatives of an anchor. -/
def relatives (direction : Direction) (scopes : List String) (anchorType : String) (f : Filter) (anchor : Uid)
    (name : String) (ps : List (String × String)) (rows : Block) : Query :=
  ⟨name, ps, blocks (rootBlock direction scopes anchorType f anchor) rows⟩

theorem evaluate_blocks (hg : g.Intact) (hf : ∀ vars u, Settles E (passes g vars (some f) u) (meaning u))
    (hk : ∀ v, Reached g direction scopes typeName meaning anchor v ↔ kind v) (hp : ∀ v, kind v → g.contains v = true)
    (o : Order) :
    (∃ us, Enumerates g o kind us ∧ ∀ {params t page rows}, RowsBlock g params t o page rows → ∀ name ps,
      ∃ answer vars,
        g.evaluate (relatives direction scopes typeName f anchor name ps rows) params = .ok (answer, vars) ∧
          Answered g t page scopes typeName anchor answer us) ∨
    ∃ e, (∀ params name ps rows,
      g.evaluate (relatives direction scopes typeName f anchor name ps rows) params = .error e) ∧ E e := by
  rcases evalBlock_root hg hf direction scopes typeName anchor with ⟨vars, hroot, hb⟩ | ⟨e, he, hE⟩
  · have hmem : ∀ v, v ∈ vars.bound reachedVar ↔ kind v := fun v => (hb.reached.mem v).trans (hk v)
    have hpresent : ∀ v ∈ vars.bound reachedVar, g.contains v = true := fun v hv => hp v ((hmem v).1 hv)
    have hanchor : ∀ u ∈ vars.bound anchorVar, g.contains u = true := by
      intro u hu
      rw [hb.anchors] at hu
      obtain ⟨rfl, ho⟩ := mem_anchors.1 hu
      exact ho.inScope.contains
    let us := g.sorted (some o) (vars.bound reachedVar)
    have hlength : us.length = (vars.bound reachedVar).length := (sorted_perm _ _).length_eq
    refine .inl ⟨us, enumerates_sorted (bound_nodup vars reachedVar) hmem, fun {params t page rows} hr name ps => ?_⟩
    have hrows := hr.evaluates vars hb.reached.defined hpresent
    have hanswer := evalBlocks_anchored (hroot params) rfl hb.anchored hanchor hb.reached.defined hpresent hrows hr.name
    rw [hb.anchors, ← hlength, hr.selections] at hanswer
    have ht := tells_answerOf (anchors g scopes typeName anchor).length us.length
      ((page us).map fun u => g.row u (projection t false))
    exact ⟨_, vars, hanswer, ht.anchored, ht.total, ht.rows⟩
  · exact .inr ⟨e, fun params name ps rows => evalBlocks_error (he params), hE⟩

end Answers

section Pages

variable (hus : Enumerates g o kind us) (h : Answered g t page scopes typeName anchor answer us) (name : String)
include hus h

theorem readPage_anchored (hsize : g.size < 1 <<< 64) (hp : ∀ v, kind v → g.contains v = true)
    (hq : OfType g scopes typeName anchor) : Hierarchy.readPage name anchor answer =
      if us = [] then .error (.noData s!"{name} of {anchor.text}")
      else .ok ⟨us.length, (page us).map fun u => g.row u (projection t false)⟩ := by
  have ht := h.tells
  rw [anchors_eq hq] at ht
  exact ht.readPage_found hsize hus.nodup (fun v hv => hp v ((hus.mem v).1 hv)) name anchor

theorem readPage_of_answered (hsize : g.size < 1 <<< 64) (hp : ∀ v, kind v → g.contains v = true) :
    Reports g t o page (OfType g scopes typeName anchor) kind (Hierarchy.readPage name anchor answer) := by
  obtain ⟨hfound, hdata, hpage⟩ := h.tells.reads anchors_eq anchors_eq_nil hsize hus.nodup
    (fun v hv => hp v ((hus.mem v).1 hv)) (fun _ => hus.mem) name
  exact ⟨hfound, hdata, fun hq hsome => ⟨us, hus.nodup, hus.mem, hus.sorted, hpage hq hsome⟩⟩

end Pages

section Requests

variable {store : Store} (hr : store.refusals.query = none) (hg : store.graph.Intact)
  (hsize : store.graph.size < 1 <<< 64)

theorem readAnchored_ok {operation : String} {request : Listing.Request} (hr : store.refusals.query = none)
    (h : store.graph.evaluate request.query request.vars = .ok (answer, vars)) :
    (perform (readAnchored operation anchor request) store).1 =
      Hierarchy.readPage request.query.name anchor answer := by
  rw [readAnchored, perform_bind, perform_read hr h]
  simp only [perform_reading]

theorem readAnchored_error {operation : String} {request : Listing.Request} {e : QueryFault}
    (hr : store.refusals.query = none) (h : store.graph.evaluate request.query request.vars = .error e) :
    (perform (readAnchored operation anchor request) store).1 = .error (.internal operation (.store (.query e))) := by
  rw [readAnchored, perform_bind, perform_read_error hr h]

theorem reached_ofType :
    Reached g direction scopes typeName (fun v => ofType g scopes t.typeName v = true) anchor v ↔
      Relative g direction scopes typeName t.typeName anchor v := by
  rw [Reached, ofType_iff]
  exact ⟨fun ⟨ha, hv, ht⟩ => ⟨ha, hv, ht⟩, fun ⟨ha, hv, ht⟩ => ⟨ha, hv, ht⟩⟩

theorem rowsBlock_paged (g : Graph) (t : EquipmentType) (hoffset : s.offset < 1 <<< 64)
    (hpage : s.pageSize < 1 <<< 64) :
    RowsBlock g (pageVars s) t (InstanceListing.orderOf t s) (fun us => (us.drop s.offset).take s.pageSize)
      (paged (Block.named rowsBlock (.uid (uidVar reachedVar))) t s) := by
  refine ⟨rfl, rfl, fun vars hd hp => ?_⟩
  have hplain : Plain g vars (paged (Block.named rowsBlock (.uid (uidVar reachedVar))) t s)
      ((vars.bound reachedVar).filter g.contains) fun _ => true :=
    ⟨startNodes_bound hd, fun _ => rfl, rfl, rfl⟩
  rw [List.filter_eq_self.2 hp] at hplain
  refine evalBlock_plain hplain ?_
  rw [List.filter_true]
  exact InstanceListing.cut_pageVars rfl rfl hoffset hpage

include hr hg hsize

theorem reports_relatives {operation name : String} {ps : List (String × String)}
    (hrows : RowsBlock store.graph params t o page rows) :
    Reports store.graph t o page (OfType store.graph scopes typeName anchor)
      (Relative store.graph direction scopes typeName t.typeName anchor)
      (perform (readAnchored operation anchor
        ⟨relatives direction scopes typeName (typeFilter t.typeName scopes) anchor name ps rows, params⟩) store).1 := by
  have hpresent : ∀ v, Relative store.graph direction scopes typeName t.typeName anchor v →
      store.graph.contains v = true := fun v hv => hv.typed.inScope.contains
  have htype : ∀ vars u, Settles (fun _ => False) (passes store.graph vars (some (typeFilter t.typeName scopes)) u)
      (ofType store.graph scopes t.typeName u = true) := fun vars u => .of_ok (passes_typeFilter vars u)
  rcases evaluate_blocks hg htype (fun v => reached_ofType) hpresent o with ⟨us, hus, hpages⟩ | ⟨e, -, hE⟩
  · obtain ⟨answer, vars, he, ha⟩ := hpages hrows name ps
    rw [readAnchored_ok hr he]
    exact readPage_of_answered hus ha name hsize hpresent
  · exact hE.elim

/-- The parents of one type of an instance of another, all of them and by identifier. -/
theorem reports_parents (t t' : EquipmentType) (anchor : Uid) (scopes : List String) :
    Reports store.graph t' ⟨Vocabulary.identifier, .asc⟩ id (OfType store.graph scopes t.typeName anchor)
      (Relative store.graph .ancestors scopes t.typeName t'.typeName anchor)
      (perform (instanceParents t t' anchor scopes) store).1 := by
  refine reports_relatives hr hg hsize ⟨rfl, rfl, fun vars hd hp => ?_⟩
  exact evalBlock_bound rfl hd hp rfl rfl rfl rfl rfl

/-- A page of the children of one type of an instance of another, when nothing is searched for. -/
theorem reports_children (t t' : EquipmentType) (anchor : Uid) (scopes : List String) (hs : s.filter.searches = [])
    (hoffset : s.offset < 1 <<< 64) (hpage : s.pageSize < 1 <<< 64) :
    Reports store.graph t' ⟨sortPredicate t' s.sortBy, s.sortOrder⟩ (fun us => (us.drop s.offset).take s.pageSize)
      (OfType store.graph scopes t.typeName anchor)
      (Relative store.graph .descendants scopes t.typeName t'.typeName anchor)
      (perform (instanceChildren t t' anchor s scopes) store).1 := by
  have hfilter : relationshipFilter t' s.filter = .eq Vocabulary.equipmentType (.str t'.typeName) := by
    rw [relationshipFilter, attributeFilter?, SearchFilter.ordered, hs, List.mergeSort_nil]
    rfl
  rw [instanceChildren, children, hfilter]
  exact reports_relatives hr hg hsize (rowsBlock_paged store.graph t' hoffset hpage)

end Requests

end Inventory.InstanceRelatives
