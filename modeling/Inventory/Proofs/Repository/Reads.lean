import Inventory.Proofs.Graph.Results
import Inventory.Proofs.Hierarchy
import Inventory.Proofs.Repository.Operations
import Inventory.Proofs.Repository.Rows
import Inventory.Proofs.Uid
import Inventory.Repository.Types
import Mathlib.Data.List.Perm.Subperm

/-!
What the operations that read types and sources give, in terms of the nodes of the graph.
-/

namespace Inventory.Repository

open Inventory.Graph Query Listing Hierarchy Outcome

variable {s : Store} {scopes : List String} {b : Block} {start : List Uid} {test : Uid → Bool}

theorem loadTypes_yields (operation : String) (hb : Plain s.graph .empty b start test) (hn : b.name = some typesBlock)
    (hf : b.first = none) (ho : b.offset = none) (hs : b.selections = []) :
    Yields (loadTypes operation b) s fun ts =>
      ∃ us, us.Perm (start.filter test) ∧ List.Forall₂ (Loaded s.graph) us ts := by
  refine (Yields.read _ _ _).bind fun answer => ?_
  rintro ⟨vars, he⟩
  refine (Yields.reading _).mono fun ts ht => ?_
  have hb' : Plain s.graph .empty (b.select typeSelections) start test :=
    ⟨hb.starts, hb.passes, hb.recursion, hb.traversals⟩
  have hsel : (b.select typeSelections).selections = typeSelections := by simp [Block.select, hs]
  rw [evaluate_rows hb' hn hf ho hsel rfl he] at ht
  exact ⟨_, sorted_perm _ _, loaded_of_rows ht⟩

theorem loadSources_yields (operation : String) (hb : Plain s.graph .empty b start test)
    (hn : b.name = some sourcesBlock) (hf : b.first = none) (ho : b.offset = none) (hs : b.selections = []) :
    Yields (loadSources operation b) s fun found =>
      ∃ us, us.Perm (start.filter test) ∧ List.Forall₂ (ReadsSource s.graph) us found := by
  refine (Yields.read _ _ _).bind fun answer => ?_
  rintro ⟨vars, he⟩
  refine (Yields.reading _).mono fun found hfound => ?_
  have hb' : Plain s.graph .empty (b.select sourceSelections) start test :=
    ⟨hb.starts, hb.passes, hb.recursion, hb.traversals⟩
  have hsel : (b.select sourceSelections).selections = sourceSelections := by simp [Block.select, hs]
  rw [evaluate_rows hb' hn hf ho hsel rfl he, loadRows_ok_iff, List.forall₂_map_left_iff] at hfound
  exact ⟨_, sorted_perm _ _, hfound⟩

section Blocks

variable (g : Graph) (scopes : List String)

theorem plain_types : Plain g .empty (((Block.named typesBlock (.has Vocabulary.metaType)).filtered
    (scopeFilter scopes)).orderBy Vocabulary.metaType .asc) (g.uids.filter (g.has · Vocabulary.metaType))
    (g.inScopes scopes) :=
  ⟨rfl, passes_scopes scopes, rfl, rfl⟩

theorem plain_typeById (u : Uid) : Plain g .empty ((Block.named typesBlock (.uid [.node u])).filtered
    (Filter.and [.has Vocabulary.metaType, scopeFilter scopes])) ([u].filter g.contains)
    fun u => g.has u Vocabulary.metaType && g.inScopes scopes u :=
  ⟨startNodes_uid u, passes_visible scopes, rfl, rfl⟩

theorem visibleTypes_eq : visibleTypes g scopes =
    (g.uids.filter (g.has · Vocabulary.metaType)).filter (g.inScopes scopes) := by
  rw [List.filter_filter]
  exact List.filter_congr fun u _ => Bool.and_comm _ _

end Blocks

theorem types_yields (scopes : List String) : Yields (types scopes) s fun ts =>
    ∃ us, us.Perm (visibleTypes s.graph scopes) ∧ List.Forall₂ (Loaded s.graph) us ts := by
  rw [visibleTypes_eq]
  exact loadTypes_yields _ (plain_types s.graph scopes) rfl rfl rfl rfl

theorem forall₂_right {α β : Type} {R : α → β → Prop} {as : List α} {bs : List β} {a : α} (h : List.Forall₂ R as bs)
    (ha : a ∈ as) : ∃ b ∈ bs, R a b := by
  induction h with
  | nil => cases ha
  | cons hab _ ih =>
      rcases List.mem_cons.1 ha with rfl | ha
      · exact ⟨_, by simp, hab⟩
      · obtain ⟨b, hb, hr⟩ := ih ha
        exact ⟨b, by simp [hb], hr⟩

theorem typeUid_yields (id : String) : Yields (typeUid id) s fun u => Uid.parse? id = some u :=
  Yields.orNotFound _ _

theorem typeById_yields (id : String) (scopes : List String) : Yields (typeById id scopes) s fun t =>
    ∃ u, Uid.parse? id = some u ∧ u ∈ visibleTypes s.graph scopes ∧ Loaded s.graph u t := by
  refine (typeUid_yields id).bind fun u hu => ?_
  refine (loadTypes_yields _ (plain_typeById s.graph scopes u) rfl rfl rfl rfl).bind fun ts => ?_
  rintro ⟨us, hus, hts⟩
  refine (Yields.orNotFound _ _).mono fun t ht => ?_
  obtain ⟨v, hv, hl⟩ := forall₂_head hts ht
  obtain ⟨hv, hvis⟩ := List.mem_filter.1 (hus.mem_iff.1 hv)
  obtain ⟨hv, hc⟩ := List.mem_filter.1 hv
  obtain rfl := List.mem_singleton.1 hv
  rw [Bool.and_eq_true] at hvis
  exact ⟨v, hu, mem_visibleTypes.2 ⟨hc, hvis⟩, hl⟩

theorem typeByName_yields (name : String) (scopes : List String) : Yields (typeByName name scopes) s fun t =>
    ∃ u, .str name ∈ s.graph.values u Vocabulary.metaType ∧ s.graph.inScopes scopes u = true ∧
      Loaded s.graph u t := by
  have hb : Plain s.graph .empty ((Block.named typesBlock (.eq Vocabulary.metaType (.str name))).filtered
      (scopeFilter scopes))
      (s.graph.uids.filter fun u => Comparison.valuesMatch (s.graph.values u Vocabulary.metaType) (.str name))
      (s.graph.inScopes scopes) :=
    ⟨rfl, passes_scopes scopes, rfl, rfl⟩
  refine (loadTypes_yields _ hb rfl rfl rfl rfl).bind fun ts => ?_
  rintro ⟨us, hus, hts⟩
  refine (Yields.orNotFound _ _).mono fun t ht => ?_
  obtain ⟨v, hv, hl⟩ := forall₂_head hts ht
  obtain ⟨hv, hin⟩ := List.mem_filter.1 (hus.mem_iff.1 hv)
  exact ⟨v, Comparison.valuesMatch_str_iff.1 (List.mem_filter.1 hv).2, hin, hl⟩

theorem hasInstances_yields (name : String) (scopes : List String) : Yields (hasInstances name scopes) s fun occupied =>
    occupied = false → s.graph.size < 1 <<< 64 → ∀ w, .str name ∈ s.graph.values w Vocabulary.equipmentType →
      s.graph.inScopes scopes w = false := by
  refine (Yields.read _ _ _).bind fun answer => ?_
  rintro ⟨vars, he⟩
  refine Yields.pure fun hnone hsize w hw => ?_
  have hb : Plain s.graph .empty (countOf ((Block.named countBlock (.eq Vocabulary.equipmentType (.str name))).filtered
      (scopeFilter scopes)))
      (s.graph.uids.filter fun u => Comparison.valuesMatch (s.graph.values u Vocabulary.equipmentType) (.str name))
      (s.graph.inScopes scopes) :=
    ⟨rfl, passes_scopes scopes, rfl, rfl⟩
  have hsize' : s.graph.uids.length < 1 <<< 64 := by rwa [uids, Table.keys, List.length_map]
  have hlen := Nat.le_trans (List.length_filter_le (s.graph.inScopes scopes) _) (List.length_filter_le
    (fun u => Comparison.valuesMatch (s.graph.values u Vocabulary.equipmentType) (.str name)) s.graph.uids)
  have hcount := count_of_rows (Nat.lt_of_le_of_lt hlen hsize') (evaluate_count hb rfl rfl rfl rfl he)
  have hzero : ¬0 < answer.count countBlock totalLabel := of_decide_eq_false hnone
  rw [hcount, Nat.not_lt, Nat.le_zero, List.length_eq_zero_iff, List.filter_eq_nil_iff] at hzero
  exact Bool.eq_false_iff.2 (hzero w (mem_uids_of_text.2 hw))

/-- Whether a node is a source in any of some scopes. -/
def isSourceIn (g : Graph) (scopes : List String) (u : Uid) : Bool :=
  decide (.str Vocabulary.metadataMarker ∈ g.values u Vocabulary.typeName) && g.inScopes scopes u

theorem passes_source {g : Graph} {vars : Vars} (scopes : List String) (u : Uid) :
    passes g vars (some (sourceFilter scopes)) u = .ok (isSourceIn g scopes u) :=
  holdsAll_cons (holds_eq_str _ _) (holdsAll_singleton (holds_scopeFilter scopes))

theorem sourceById_yields (id : String) (scopes : List String) : Yields (sourceById id scopes) s fun m =>
    ∃ w, Uid.parse? id = some w ∧ s.graph.contains w = true ∧ isSourceIn s.graph scopes w = true ∧
      ReadsSource s.graph w m := by
  refine (Yields.orNotFound _ _).bind fun w hw => ?_
  have hb : Plain s.graph .empty ((Block.named sourcesBlock (.uid [.node w])).filtered (sourceFilter scopes))
      ([w].filter s.graph.contains) (isSourceIn s.graph scopes) :=
    ⟨startNodes_uid w, passes_source scopes, rfl, rfl⟩
  refine (loadSources_yields _ hb rfl rfl rfl rfl).bind fun found => ?_
  rintro ⟨us, hus, hfound⟩
  refine (Yields.orNotFound _ _).mono fun source hsource => ?_
  obtain ⟨v, hv, hr⟩ := forall₂_head hfound hsource
  obtain ⟨hv, hin⟩ := List.mem_filter.1 (hus.mem_iff.1 hv)
  obtain ⟨hv, hc⟩ := List.mem_filter.1 hv
  obtain rfl := List.mem_singleton.1 hv
  exact ⟨v, hw, hc, hin, hr⟩

section Descendants

variable {g : Graph} {u : Uid} {depth : Nat} {below : List Uid} {answer : Answer} {name : String} {anchor : Uid}

theorem rows_of_readPage {page : Page} (h : Hierarchy.readPage name anchor answer = .ok page) :
    page.rows = answer.rows rowsBlock := by
  simp only [Hierarchy.readPage] at h
  split at h
  · cases h
  · split at h
    · cases h
    · cases h
      rfl

theorem text_mem_column {page : Page} (hd : Descends g scopes depth u answer below)
    (h : Hierarchy.readPage name anchor answer = .ok page) :
    ∀ v ∈ below, v.text ∈ (page.column idLabel).filterMap Json.str? := by
  intro v hv
  rw [Page.column, rows_of_readPage h, hd.tells.rows, List.filterMap_map, List.mem_filterMap]
  exact ⟨.str v.text, List.mem_filterMap.2 ⟨v, hv, get?_row_id (by decide)⟩, rfl⟩

theorem eq_nil_of_noData {f : Failure} (hd : Descends g scopes depth u answer below) (hlen : below.length < 1 <<< 64)
    (h : Hierarchy.readPage name anchor answer = .error f) (hf : f.isNoData = true) : below = [] := by
  have hcount : answer.count countBlock totalLabel = below.length := count_of_rows hlen hd.tells.total
  simp only [Hierarchy.readPage] at h
  split at h
  · cases h
    cases hf
  · split at h
    · rename_i h0
      rw [hcount] at h0
      exact List.length_eq_zero_iff.1 h0
    · cases h

theorem isNoData_ofStore (operation : String) (e : StoreError) : (Failure.ofStore operation e).isNoData = false := by
  cases e <;> rfl

theorem types_fails (scopes : List String) : Fails (types scopes) s fun e => e.isNoData = false := by
  refine Fails.bind (Fails.read _ _ _ fun e => isNoData_ofStore _ e) (Yields.read _ _ _) fun answer _ => ?_
  refine Fails.reading fun e he => ?_
  unfold loadRows at he
  split at he
  · obtain ⟨r, -, hr⟩ := mapM_error he
    unfold TypeRow.load at hr
    cases ha : r.attributes.mapM AttributeRow.load with
    | ok as =>
        rw [ha] at hr
        cases hr
    | error e' =>
        rw [ha] at hr
        cases hr
        obtain ⟨a, -, ha⟩ := mapM_error ha
        unfold AttributeRow.load at ha
        split at ha
        · cases ha
        · cases ha
          rfl
  · cases he
    rfl

theorem le_defaultDepth {n : Nat} (h : n < 1 <<< 32) : n ≤ defaultDepth n := by
  unfold defaultDepth
  rw [Nat.mod_eq_of_lt (by omega)]
  exact Nat.le_max_left n 1

/-- A set of nodes that holds all children, in some scopes, of its own and of `u`. -/
def ClosedBelow (g : Graph) (scopes : List String) (u : Uid) (below : List Uid) : Prop :=
  ∀ x, x = u ∨ x ∈ below → ∀ y ∈ childrenIn g scopes x, y = u ∨ y ∈ below

variable (hg : s.graph.Intact) (hu : u ∈ visibleTypes s.graph scopes)
  (hc : ∀ x y, y ∈ s.graph.edges x Vocabulary.metaParent → s.graph.has x Vocabulary.metaType = true)
  (hfew : (visibleTypes s.graph scopes).length < 1 <<< 32)

include hg hu hc hfew

theorem closed_of_answer {n : Nat} (hn : n = (visibleTypes s.graph scopes).length) {vars : Vars}
    (h : evaluate s.graph (typeTraversal u .descendants (defaultDepth n) scopes).query .empty = .ok (answer, vars)) :
    ∃ below, Descends s.graph scopes (defaultDepth n) u answer below ∧ ClosedBelow s.graph scopes u below ∧
      below ⊆ visibleTypes s.graph scopes := by
  subst hn
  obtain ⟨answer', vars', below, he, hd⟩ := evaluate_typeTraversal hg hc hu
    (defaultDepth (visibleTypes s.graph scopes).length)
  cases h.symm.trans he
  refine ⟨below, hd, fun x hx y hy => ?_, fun v hv => ((hd.mem v).1 hv).visible⟩
  rw [hd.mem] at hx ⊢
  exact below_of_mem_childrenIn hg hc (le_defaultDepth hfew) hx hy

theorem typeChildren_yields : Yields (typeChildren u.text none scopes) s fun ts =>
    ∃ below, ClosedBelow s.graph scopes u below ∧ ∀ v ∈ below, ∃ t ∈ ts, t.id = v.text := by
  refine (typeUid_yields _).bind fun u' hu' => ?_
  rw [Uid.trim_text] at hu'
  obtain rfl := Uid.eq_of_parse?_text hu'
  refine (types_yields scopes).bind fun all => ?_
  rintro ⟨us, hus, hall⟩
  refine (Yields.read _ _ _).bind fun answer => ?_
  rintro ⟨vars, he⟩
  obtain ⟨below, hd, hclosed, hsub⟩ := closed_of_answer hg hu hc hfew (by rw [← hus.length_eq, hall.length_eq]) he
  refine (Yields.reading _).bind fun page hpage => ?_
  refine Yields.pure ⟨below, hclosed, fun v hv => ?_⟩
  obtain ⟨t, ht, hl⟩ := forall₂_right hall (hus.mem_iff.2 (hsub hv))
  refine ⟨t, List.mem_filter.2 ⟨ht, ?_⟩, hl.id⟩
  rw [List.contains_iff_mem, hl.id]
  exact text_mem_column hd hpage v hv

theorem typeChildren_fails : Fails (typeChildren u.text none scopes) s fun e =>
    e.isNoData = true → ClosedBelow s.graph scopes u [] := by
  refine Fails.bind (Fails.orNotFound _ _ (by intro h; cases h)) (typeUid_yields _) fun u' hu' => ?_
  rw [Uid.trim_text] at hu'
  obtain rfl := Uid.eq_of_parse?_text hu'
  refine Fails.bind (fun e he h => ?_) (types_yields scopes) fun all => ?_
  · rw [types_fails scopes e he] at h
    cases h
  rintro ⟨us, hus, hall⟩
  refine Fails.bind (Fails.read _ _ _ fun e h => ?_) (Yields.read _ _ _) fun answer => ?_
  · rw [isNoData_ofStore] at h
    cases h
  rintro ⟨vars, he⟩
  obtain ⟨below, hd, hclosed, hsub⟩ := closed_of_answer hg hu hc hfew (by rw [← hus.length_eq, hall.length_eq]) he
  have hlen : below.length < 1 <<< 64 := by
    have hle := (hd.nodup.subperm hsub).length_le
    omega
  refine Fails.bind (Fails.reading fun e hpage h => ?_) (Yields.reading _) fun page _ => Fails.pure _
  obtain rfl := eq_nil_of_noData hd hlen hpage h
  exact hclosed

/-- The ids given for the types below `u` are those of a set that no child leaves. -/
theorem descendantIds_yields : Yields (descendantIds u.text scopes) s fun ids =>
    ∃ below, ClosedBelow s.graph scopes u below ∧ ∀ v ∈ below, v.text ∈ ids := by
  refine Yields.tryCatch ((typeChildren_yields hg hu hc hfew).map fun ts => ?_) fun e he => ?_
  · rintro ⟨below, hclosed, hids⟩
    refine ⟨below, hclosed, fun v hv => ?_⟩
    obtain ⟨t, ht, hid⟩ := hids v hv
    exact List.mem_map.2 ⟨t, ht, hid⟩
  · have herr : (perform (typeChildren u.text none scopes) s).1 = .error e := by
      rw [map_eq_pure_bind, perform_bind] at he
      rcases hp : perform (typeChildren u.text none scopes) s with ⟨r, s'⟩
      rw [hp] at he
      cases r with
      | ok ts => cases he
      | error e' =>
          cases he
          rfl
    by_cases hn : e.isNoData = true
    · rw [if_pos hn]
      exact Yields.pure ⟨[], typeChildren_fails hg hu hc hfew e herr hn, by simp⟩
    · rw [if_neg hn]
      exact Yields.throw e

end Descendants

end Inventory.Repository
