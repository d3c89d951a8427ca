import Inventory.Proofs.AttributeNames
import Inventory.Proofs.InstanceRelatives

/-!
Walks up and down the same edges: whatever one instance shows below it shows that instance above it, hop by hop, along
a topology and along one that is reversed, and from the children of a type back to the parents.
-/

namespace Inventory.OppositeWalks

open Query Listing Hierarchy Inventory.Graph Repository Store TopologyLevels
open InstanceHierarchy (Adjacent Qualifies Reached reachedRow)
open InstanceRelatives (Relative)

variable {g : Graph} {direction : Direction} {scopes types : List String} {typeName anchorType : String}
  {t : Topology} {e : EquipmentType} {u v w x y : Uid} {us : List Uid} {depth n : Nat} {α : Type}
  {rows : α → List Json} {row : Uid → Json} {r down up : Except Failure α}

/-- The rows of a result, none if there is no result. -/
def rowsOf (rows : α → List Json) : Except Failure α → List Json
  | .ok a => rows a
  | .error _ => []

/-- The rows of the nodes farthest from the anchor. -/
def farthest (p : Hierarchy.Path) : List Json := (p.levels.getLast?.map (·.rows)).getD []

/-- A node is among those that rows are about. -/
def Shown (js : List Json) (u : Uid) : Prop := ∃ j ∈ js, j.get? idLabel = some u.toJson

/-- There is a result, or nothing to report. -/
inductive Answers {α : Type} : Except Failure α → Prop
  | result (a : α) : Answers (.ok a)
  | notFound (what : String) : Answers (.error (.notFound what))
  | noData (what : String) : Answers (.error (.noData what))

/-- Of two nodes the first shows the other below it just when that one shows the first above it. -/
structure Agree (rows : α → List Json) (x y : Uid) (down up : Except Failure α) : Prop where
  below : Answers down
  above : Answers up
  shown : Shown (rowsOf rows down) y ↔ Shown (rowsOf rows up) x

/-- All nodes of a kind are shown, and no others. -/
structure Shows (rows : α → List Json) (kind : Uid → Prop) (r : Except Failure α) : Prop where
  answers : Answers r
  mem : ∀ v, Shown (rowsOf rows r) v ↔ kind v

/-- The rows are those of all nodes of a kind, each once. -/
structure Lists (g : Graph) (e : EquipmentType) (kind : Uid → Prop) (us : List Uid) (r : Except Failure Page) :
    Prop where
  answers : Answers r
  nodup : us.Nodup
  mem : ∀ v, v ∈ us ↔ kind v
  rows : rowsOf Page.rows r = us.map fun u => g.row u (projection e false)

/-- Walks down and walks up agree in a store, as far as some scopes go. -/
structure Opposite (s : Store) (scopes : List String) : Prop where
  hierarchies : ∀ (x y : Uid) (depth : Nat), Qualifies s.graph scopes x → Qualifies s.graph scopes y →
    Agree Page.rows x y (perform (instanceHierarchy x .descendants (some depth) scopes) s).1
      (perform (instanceHierarchy y .ancestors (some depth) scopes) s).1
  topologies : ∀ (t : Topology) (x y : Uid),
    Agree farthest x y (perform (instanceTopology t x scopes) s).1 (perform (instanceTopology t.reversed y scopes) s).1
  /-- With nothing to search for and a page that has room for all, a node is among the children of another just when
  that one is among its parents, and by their uids if no attribute has the label of the uid. -/
  relatives : ∀ (a b : EquipmentType) (x y : Uid) (spec : ListingSpec),
    let down := (perform (instanceChildren a b x spec scopes) s).1
    let up := (perform (instanceParents b a y scopes) s).1
    spec.filter.searches = [] → spec.offset = 0 → spec.pageSize < 1 <<< 64 →
    (∀ p, down = .ok p → p.total ≤ spec.pageSize) →
    ∃ children parents : List Uid,
      Lists s.graph b (Relative s.graph .descendants scopes a.typeName b.typeName x) children down ∧
      Lists s.graph a (Relative s.graph .ancestors scopes b.typeName a.typeName y) parents up ∧
      (y ∈ children ↔ x ∈ parents) ∧
      (¬AttributeNames.Shadowing a → ¬AttributeNames.Shadowing b → Agree Page.rows x y down up)

theorem Shows.agree {kind kind' : Uid → Prop} (hd : Shows rows kind down) (hu : Shows rows kind' up)
    (h : kind y ↔ kind' x) : Agree rows x y down up :=
  ⟨hd.answers, hu.answers, by rw [hd.mem, hu.mem, h]⟩

section Shown

theorem shown_map (hrow : ∀ u ∈ us, (row u).get? idLabel = some u.toJson) : Shown (us.map row) v ↔ v ∈ us := by
  constructor
  · rintro ⟨j, hj, hv⟩
    obtain ⟨u, hu, rfl⟩ := List.mem_map.1 hj
    rw [hrow u hu] at hv
    obtain rfl : u = v := Uid.text_injective (Json.str.inj (Option.some.inj hv))
    exact hu
  · intro hv
    exact ⟨row v, List.mem_map_of_mem hv, hrow v hv⟩

theorem not_shown_nil : ¬Shown [] v := by
  rintro ⟨j, hj, -⟩
  exact List.not_mem_nil hj

theorem get?_reachedRow (u : Uid) : (reachedRow g u).get? idLabel = some u.toJson := by
  rw [reachedRow, row, Json.get?_ofFields]
  simp [lookup_selectedAll, selectionLabel, selectedValue?, fieldValue?_uid, idLabel, identifierLabel, typeLabel]

end Shown

section Hierarchies

theorem adjacent_flipped : Adjacent g direction.flipped v u ↔ Adjacent g direction u v := by
  cases direction <;> exact Iff.rfl

theorem reached_flipped (hu : InScope g scopes u) (h : Reached g direction scopes depth u v) :
    Reached g direction.flipped scopes depth v u := by
  obtain ⟨hne, n, hpos, hn, hs⟩ := h
  refine ⟨hne.symm, n, hpos, hn, hs.reverse (p := InScope g scopes) (fun x y hx hxy => ?_) hu⟩
  exact ⟨hxy.2, adjacent_flipped.2 hxy.1, hx⟩

theorem shows_hierarchy {r : Except Failure Page} (h : InstanceHierarchy.Reports g direction scopes depth x r)
    (hx : Qualifies g scopes x) : Shows Page.rows (Reached g direction scopes depth x) r := by
  by_cases hsome : ∃ v, Reached g direction scopes depth x v
  · obtain ⟨us, -, hmem, -, rfl⟩ := h.page hx hsome
    refine ⟨.result _, fun v => ?_⟩
    rw [← hmem]
    exact shown_map fun u _ => get?_reachedRow u
  · have hnone : ∀ v, ¬Reached g direction scopes depth x v := not_exists.1 hsome
    obtain ⟨what, rfl⟩ := h.noData.2 ⟨hx, hnone⟩
    exact ⟨.noData what, fun v => iff_of_false not_shown_nil (hnone v)⟩

end Hierarchies

section Topologies

theorem chain_snoc (h : Chain g direction scopes types u v) (hop : Adjacent g direction v w)
    (hw : OfType g scopes typeName w) : Chain g direction scopes (types ++ [typeName]) u w := by
  induction h with
  | one h => exact .more h hop (.one hw)
  | more h hop' _ ih => exact .more h hop' (ih hop)

theorem chain_reverse (h : Chain g direction scopes types u v) :
    Chain g direction.flipped scopes types.reverse v u := by
  induction h with
  | one h => exact .one h
  | more h hop _ ih =>
      rw [List.reverse_cons]
      exact chain_snoc ih (adjacent_flipped.2 hop) h

theorem chain_reverse_iff :
    Chain g direction.flipped scopes types.reverse v u ↔ Chain g direction scopes types u v := by
  refine ⟨fun h => ?_, chain_reverse⟩
  have hback := chain_reverse h
  rwa [List.reverse_reverse, Direction.flipped_flipped] at hback

theorem Topology.hops_pos (t : Topology) : 0 < t.hops := by
  have := t.two_le
  rw [Topology.hops]
  omega

theorem atLevel_hops : AtLevel g t scopes u t.hops v ↔ Chain g t.direction scopes t.levels u v := by
  have hlength : t.levels.length = t.hops + 1 := by
    have := Topology.hops_pos t
    rw [Topology.hops] at this ⊢
    omega
  rw [AtLevel, ← hlength, List.take_length]

theorem atLevel_reversed :
    AtLevel g t.reversed scopes y t.reversed.hops x ↔ AtLevel g t scopes x t.hops y := by
  rw [atLevel_hops, atLevel_hops]
  exact chain_reverse_iff

/-- The level farthest from the anchor shows the nodes at the end of a whole path. -/
theorem shows_topology {r : Except Failure Hierarchy.Path} (h : TopologyLevels.Reports g t scopes x r) :
    Shows farthest (AtLevel g t scopes x t.hops) r := by
  have hlast : t.hops - 1 + 1 = t.hops := Nat.sub_add_cancel (Topology.hops_pos t)
  by_cases hx : OfType g scopes t.anchorType x
  · by_cases hsome : ∃ i < t.hops, ∃ v, AtLevel g t scopes x (i + 1) v
    · obtain ⟨reported, rfl, hlength, hlevel⟩ := h.path hx hsome
      have hget : t.hops - 1 + 1 < t.levels.length := by
        have := Topology.hops_pos t
        rw [Topology.hops] at this ⊢
        omega
      obtain ⟨us, -, hmem, -, hus⟩ := hlevel (t.hops - 1) _ (List.getElem?_eq_getElem hget)
      rw [hlast] at hmem
      have hrows : rowsOf farthest (.ok ⟨t.name, x, reported⟩) = us.map (reachedRow g) := by
        rw [rowsOf, farthest, List.getLast?_eq_getElem?, hlength, hus]
        rfl
      refine ⟨.result _, fun v => ?_⟩
      rw [hrows, ← hmem]
      exact shown_map fun u _ => get?_reachedRow u
    · have hnone : ∀ i < t.hops, ∀ v, ¬AtLevel g t scopes x (i + 1) v :=
        fun i hi v hv => hsome ⟨i, hi, v, hv⟩
      obtain ⟨what, rfl⟩ := h.noData.2 ⟨hx, hnone⟩
      refine ⟨.noData what, fun v => iff_of_false not_shown_nil ?_⟩
      rw [← hlast]
      exact hnone _ (by omega) v
  · obtain ⟨what, rfl⟩ := h.notFound.2 hx
    refine ⟨.notFound what, fun v => iff_of_false not_shown_nil fun hv => hx ?_⟩
    rw [atLevel_hops, Topology.levels_eq t] at hv
    exact hv.start

end Topologies

section Relatives

theorem relative_flipped (direction : Direction) : Relative g direction.flipped scopes typeName anchorType v u ↔
    Relative g direction scopes anchorType typeName u v := by
  constructor
  · rintro ⟨hv, hop, hu⟩
    exact ⟨hu, adjacent_flipped.1 hop, hv⟩
  · rintro ⟨hu, hop, hv⟩
    exact ⟨hv, adjacent_flipped.2 hop, hu⟩

/-- A page with room for all has the rows of all. -/
theorem lists_relatives {o : Order} {page : List Uid → List Uid} {r : Except Failure Page}
    (h : InstanceRelatives.Reports g e o page (OfType g scopes anchorType x)
      (Relative g direction scopes anchorType typeName x) r)
    (hpage : ∀ us p, r = .ok p → p.total = us.length → page us = us) :
    ∃ us, Lists g e (Relative g direction scopes anchorType typeName x) us r := by
  by_cases hx : OfType g scopes anchorType x
  · by_cases hsome : ∃ v, Relative g direction scopes anchorType typeName x v
    · obtain ⟨us, hnodup, hmem, -, rfl⟩ := h.page hx hsome
      refine ⟨us, .result _, hnodup, hmem, ?_⟩
      rw [rowsOf, hpage us _ rfl rfl]
    · have hnone : ∀ v, ¬Relative g direction scopes anchorType typeName x v := not_exists.1 hsome
      obtain ⟨what, rfl⟩ := h.noData.2 ⟨hx, hnone⟩
      exact ⟨[], .noData what, List.nodup_nil, fun v => iff_of_false List.not_mem_nil (hnone v), rfl⟩
  · obtain ⟨what, rfl⟩ := h.notFound.2 hx
    exact ⟨[], .notFound what, List.nodup_nil, fun v => iff_of_false List.not_mem_nil fun hv => hx hv.anchored, rfl⟩

theorem get?_row_projection (h : ¬AttributeNames.Shadowing e) (u : Uid) :
    (g.row u (projection e false)).get? idLabel = some u.toJson := by
  have hlabels : idLabel ∉ (e.attributes.filterMap (attributeSelection? e false)).map selectionLabel := by
    intro hmem
    obtain ⟨s, hs, hl⟩ := List.mem_map.1 hmem
    obtain ⟨a, ha, hsel⟩ := List.mem_filterMap.1 hs
    refine h ⟨a, ha, ?_⟩
    rw [← hl]
    unfold attributeSelection? at hsel
    split at hsel
    · cases hsel
      rfl
    · simp only [Bool.false_eq_true, if_false, Bool.false_or] at hsel
      split at hsel
      · cases hsel
      · split at hsel
        · cases hsel
          rfl
        · cases hsel
  rw [row, Json.get?_ofFields, projection, lookup_selectedAll, AttributeNames.lookup_selectedAll_of_not_mem hlabels]
  rfl

theorem Lists.shows {kind : Uid → Prop} {r : Except Failure Page} (h : Lists g e kind us r)
    (he : ¬AttributeNames.Shadowing e) : Shows Page.rows kind r := by
  refine ⟨h.answers, fun v => ?_⟩
  rw [h.rows, ← h.mem]
  exact shown_map fun u _ => get?_row_projection he u

end Relatives

/-- In whatever state calls have left a store of fewer than `2 ^ 64` nodes, walks down and walks up agree. -/
theorem opposite_afterCalls {refusals : Refusals} (hr : refusals.query = none) (cs : List Call)
    (hsize : ((unused refusals).afterCalls cs).graph.size < 1 <<< 64) (scopes : List String) :
    Opposite ((unused refusals).afterCalls cs) scopes := by
  have hi := (kept_unused refusals cs).intact
  have hquery : ((unused refusals).afterCalls cs).refusals.query = none := by
    rw [refusals_afterCalls]
    exact hr
  refine ⟨fun x y depth hx hy => ?_, fun t x y => ?_, fun a b x y spec => ?_⟩
  · have hdown := shows_hierarchy (InstanceHierarchy.reports_of_intact hquery hi hsize x .descendants depth scopes) hx
    have hup := shows_hierarchy (InstanceHierarchy.reports_of_intact hquery hi hsize y .ancestors depth scopes) hy
    exact hdown.agree hup ⟨reached_flipped hx.2.2, reached_flipped hy.2.2⟩
  · have hdown := shows_topology (TopologyLevels.reports_of_intact hquery hi t x scopes)
    have hup := shows_topology (TopologyLevels.reports_of_intact hquery hi t.reversed y scopes)
    exact hdown.agree hup atLevel_reversed.symm
  · intro down up hsearches hoffset hpage hroom
    have hzero : spec.offset < 1 <<< 64 := hoffset ▸ by decide
    obtain ⟨children, hchildren⟩ := lists_relatives
      (InstanceRelatives.reports_children hquery hi hsize a b x scopes hsearches hzero hpage) fun us p hp hlen => by
        rw [hoffset, List.drop_zero, List.take_of_length_le]
        exact hlen ▸ hroom p hp
    obtain ⟨parents, hparents⟩ := lists_relatives
      (InstanceRelatives.reports_parents hquery hi hsize b a y scopes) fun _ _ _ _ => rfl
    have hagree : Relative ((unused refusals).afterCalls cs).graph .descendants scopes a.typeName b.typeName x y ↔
        Relative ((unused refusals).afterCalls cs).graph .ancestors scopes b.typeName a.typeName y x :=
      (relative_flipped .descendants).symm
    refine ⟨children, parents, hchildren, hparents, ?_, fun ha hb => ?_⟩
    · rw [hchildren.mem, hparents.mem, hagree]
    · exact (hchildren.shows hb).agree (hparents.shows ha) hagree

/-- Two folders below a folder, and a file below both, all of them instances. -/
def instances : Call :=
  .execute (.of none [⟨none, typedQuads "top" "folder" [] ++ typedQuads "b" "folder" ["top"] ++
    typedQuads "a" "folder" ["top"] ++ typedQuads "f" "file" ["a", "b"] ++
    ["top", "a", "b", "f"].map fun label => .text (.blank label) Vocabulary.typeName Vocabulary.equipmentMarker, []⟩])

theorem opposite_instances : Opposite ((unused .none).afterCalls [instances]) ["s1"] := by
  have hsize : ((unused .none).afterCalls [instances]).graph.size < 1 <<< 64 := by decide +kernel
  exact opposite_afterCalls rfl [instances] hsize ["s1"]

end Inventory.OppositeWalks
