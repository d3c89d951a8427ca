import Inventory.Proofs.Graph.Order
import Inventory.Proofs.Repository.Described

/-!
What the reads of types give of an inventory whose types are stored in full: all that is asked for, just as it is
stored.
-/

namespace Inventory.Repository

open Inventory.Graph Query Listing Hierarchy Vocabulary

variable {s : Store} {g : Graph} {u : Uid} {t : EquipmentType} {b : Block} {start us : List Uid} {test : Uid → Bool}
  {ts : List EquipmentType} {scopes : List String} {id name : String}

section Answered

theorem loadTypes_answered (operation : String) (b : Query.Block) :
    Yields (loadTypes operation b) s fun _ => s.refusals.query = none :=
  (Yields.answered _ _ _).bind fun _ h => (Yields.reading _).mono fun _ _ => h.1

theorem typeById_answered (id : String) (scopes : List String) :
    Yields (typeById id scopes) s fun _ => s.refusals.query = none :=
  (typeUid_yields id).bind fun _ _ => (loadTypes_answered _ _).bind fun _ h => (Yields.orNotFound _ _).mono fun _ _ => h

theorem typeByName_answered (name : String) (scopes : List String) :
    Yields (typeByName name scopes) s fun _ => s.refusals.query = none :=
  (loadTypes_answered _ _).bind fun _ h => (Yields.orNotFound _ _).mono fun _ _ => h

theorem sourceById_answered (id : String) (scopes : List String) :
    Yields (sourceById id scopes) s fun _ => s.refusals.query = none := by
  refine (Yields.orNotFound _ _).bind fun _ _ => ?_
  have hload : ∀ b, Yields (loadSources "metadata_with_id" b) s fun _ => s.refusals.query = none :=
    fun b => (Yields.answered _ _ _).bind fun _ h => (Yields.reading _).mono fun _ _ => h.1
  exact (hload _).bind fun _ h => (Yields.orNotFound _ _).mono fun _ _ => h

end Answered

theorem evaluate_plain (q : String) (ps : List (String × String)) (params : Bindings)
    (hb : Plain g .empty b start test) (hn : b.name = some name) (hf : b.first = none) (ho : b.offset = none) :
    ∃ vars, evaluate g ⟨q, ps, [b]⟩ params =
      .ok (Table.empty.insert name (project g (g.sorted b.order (start.filter test)) b.selections), vars) := by
  refine ⟨Vars.extend? .empty b.bind (g.sorted b.order (start.filter test)), ?_⟩
  rw [evaluate, evalBlocks_cons (evalBlock_plain hb (cut_eq_self hf ho)), hn]
  rfl

theorem perform_load {ρ α : Type} {parse : Document → Option ρ} {load : ρ → Except Failure α} {x : Selection}
    {xs : List Selection} {as : List α} (operation : String) (hr : s.refusals.query = none)
    (hb : Plain s.graph .empty b start test) (hn : b.name = some name) (hf : b.first = none) (ho : b.offset = none)
    (hs : b.selections = []) (hx : countLabel? x = none)
    (h : List.Forall₂ (fun u a => ∃ r, parse (.ofJson (s.graph.row u (x :: xs))) = some r ∧ load r = .ok a)
      (s.graph.sorted b.order (start.filter test)) as) :
    perform (do
      let answer ← read operation ⟨name, [], [b.select (x :: xs)]⟩ .empty
      reading (loadRows parse load (answer.rows name))) s = (.ok as, s) := by
  have hb' : Plain s.graph .empty (b.select (x :: xs)) start test :=
    ⟨hb.starts, hb.passes, hb.recursion, hb.traversals⟩
  have hsel : (b.select (x :: xs)).selections = x :: xs := by simp [Block.select, hs]
  obtain ⟨vars, he⟩ := evaluate_plain name [] .empty hb' hn hf ho
  have hrows := evaluate_rows hb' hn hf ho hsel hx he
  have hload : loadRows parse load
      ((s.graph.sorted b.order (start.filter test)).map fun u => s.graph.row u (x :: xs)) = .ok as := by
    rw [loadRows_ok_iff, List.forall₂_map_left_iff]
    exact h
  rw [perform_bind, perform_read hr he]
  simp only [hrows, perform_reading]
  exact congrArg (·, s) hload

theorem perform_loadTypes (operation : String) (ts : List EquipmentType) (hr : s.refusals.query = none)
    (hb : Plain s.graph .empty b start test)
    (hn : b.name = some typesBlock) (hf : b.first = none) (ho : b.offset = none) (hs : b.selections = [])
    (hts : List.Forall₂ (Reads s.graph) (s.graph.sorted b.order (start.filter test)) ts) :
    perform (loadTypes operation b) s = (.ok ts, s) :=
  perform_load operation hr hb hn hf ho hs rfl hts

theorem forall₂_of_forall {α β : Type} {R : α → β → Prop} {as : List α} (h : ∀ a ∈ as, ∃ b, R a b) :
    ∃ bs, List.Forall₂ R as bs := by
  induction as with
  | nil => exact ⟨[], .nil⟩
  | cons a as ih =>
      obtain ⟨b, hb⟩ := h a List.mem_cons_self
      obtain ⟨bs, hbs⟩ := ih fun a ha => h a (List.mem_cons_of_mem _ ha)
      exact ⟨b :: bs, .cons hb hbs⟩

variable (hr : s.refusals.query = none) (hg : Coherent s.graph)

include hr hg

theorem perform_types (hd : Described s.graph) (scopes : List String) : ∃ us ts,
    perform (types scopes) s = (.ok ts, s) ∧ us.Perm (visibleTypes s.graph scopes) ∧
      us.Pairwise (Precedes s.graph metaType) ∧ List.Forall₂ (StoredType s.graph) us ts := by
  have hperm := sorted_perm (g := s.graph) (some ⟨metaType, .asc⟩) (visibleTypes s.graph scopes)
  have hsorted := pairwise_sorted (g := s.graph) (o := ⟨metaType, .asc⟩) (nodup_visibleTypes s.graph scopes)
  obtain ⟨ts, hts⟩ := forall₂_of_forall (R := StoredType s.graph) fun u hu => by
    obtain ⟨t, w, m, hdef⟩ := hd.types u (mem_visibleTypes_values (hg.regular u) (hperm.mem_iff.1 hu))
    exact ⟨t, hdef.type⟩
  refine ⟨_, ts, perform_loadTypes _ ts hr (plain_types s.graph scopes) rfl rfl rfl rfl ?_, hperm,
    hsorted.imp nodeOrder_lt_iff.1, hts⟩
  rw [← visibleTypes_eq]
  exact hts.imp fun _ _ ht => ht.reads hg

theorem perform_typeById (hu : Uid.parse? id = some u) (hv : u ∈ visibleTypes s.graph scopes)
    (ht : StoredType s.graph u t) : perform (typeById id scopes) s = (.ok t, s) := by
  obtain ⟨hc, hhas, hin⟩ := mem_visibleTypes.1 hv
  have hone : ([u].filter s.graph.contains).filter (fun u => s.graph.has u metaType && s.graph.inScopes scopes u) =
      [u] := by
    simp [hc, hhas, hin]
  have hload := perform_loadTypes "equipment_type_by_id" [t] hr (plain_typeById s.graph scopes u)
    rfl rfl rfl rfl (by
      rw [hone]
      exact .cons (ht.reads hg) .nil)
  rw [typeById, typeUid, hu, perform_bind]
  simp only [orNotFound, perform_pure, perform_bind, hload]
  rfl

omit hg in
theorem perform_typeById_none (hu : ∀ u, Uid.parse? id = some u → u ∉ visibleTypes s.graph scopes) :
    perform (typeById id scopes) s = (.error (.notFound s!"equipment type {id}"), s) := by
  cases hp : Uid.parse? id with
  | none =>
      rw [typeById, typeUid, hp, perform_bind]
      rfl
  | some u =>
      have hnone : ([u].filter s.graph.contains).filter (fun u => s.graph.has u metaType && s.graph.inScopes scopes u) =
          [] := by
        refine List.filter_eq_nil_iff.2 fun v hv hvis => hu u hp ?_
        obtain ⟨hv, hc⟩ := List.mem_filter.1 hv
        rw [List.mem_singleton.1 hv] at hc hvis
        exact mem_visibleTypes.2 ⟨hc, Bool.and_eq_true_iff.1 hvis⟩
      have hload := perform_loadTypes "equipment_type_by_id" [] hr (plain_typeById s.graph scopes u)
        rfl rfl rfl rfl (by
          rw [hnone]
          exact .nil)
      rw [typeById, typeUid, hp, perform_bind]
      simp only [orNotFound, perform_pure, perform_bind, hload]
      rfl

omit hg in
theorem perform_sourceById {w : Uid} {m : MetadataSource} (hw : Uid.parse? id = some w)
    (hc : s.graph.contains w = true) (hin : isSourceIn s.graph scopes w = true) (hm : ReadsSource s.graph w m) :
    perform (sourceById id scopes) s = (.ok m, s) := by
  have hb : Plain s.graph .empty ((Block.named sourcesBlock (.uid [.node w])).filtered (sourceFilter scopes))
      ([w].filter s.graph.contains) (isSourceIn s.graph scopes) :=
    ⟨startNodes_uid w, passes_source scopes, rfl, rfl⟩
  have hone : ([w].filter s.graph.contains).filter (isSourceIn s.graph scopes) = [w] := by simp [hc, hin]
  have hload : perform (loadSources "metadata_with_id" ((Block.named sourcesBlock (.uid [.node w])).filtered
      (sourceFilter scopes))) s = (.ok [m], s) :=
    perform_load "metadata_with_id" hr hb rfl rfl rfl rfl rfl (by
      rw [hone]
      exact .cons hm .nil)
  rw [sourceById, hw, perform_bind]
  simp only [orNotFound, perform_pure, perform_bind, hload]
  rfl

omit hg in
theorem perform_sourceByName? {w : Uid} {m : MetadataSource} {scope : String} (hd : Declared s.graph)
    (hone : ∀ v, SourceFor s.graph name scope v ↔ v = w) (hm : StoredSource s.graph w m) :
    perform (sourceByName? name [scope]) s = (.ok (some m), s) := by
  have hb : Plain s.graph .empty ((Block.named sourcesBlock (.eq metadataSource (.str name))).filtered
      (sourceFilter [scope]))
      (s.graph.uids.filter fun u => Comparison.valuesMatch (s.graph.values u metadataSource) (.str name))
      (isSourceIn s.graph [scope]) :=
    ⟨rfl, passes_source [scope], rfl, rfl⟩
  have hfound : (s.graph.uids.filter fun u => Comparison.valuesMatch (s.graph.values u metadataSource)
      (.str name)).filter (isSourceIn s.graph [scope]) = [w] := by
    refine OrderedSet.items_eq_of_mem_iff (((increasing_uids _).filter _).filter _) (List.pairwise_singleton _ _)
      fun v => ?_
    rw [List.mem_singleton, ← hone, sourceFor_iff, List.mem_filter, List.mem_filter, mem_uids,
      Comparison.valuesMatch_str_iff]
    exact ⟨fun ⟨⟨_, hname⟩, hin⟩ => ⟨hin, hname⟩, fun ⟨hin, hname⟩ => ⟨⟨contains_of_mem_values hname, hname⟩, hin⟩⟩
  have hload : perform (loadSources "metadata_by_source" ((Block.named sourcesBlock (.eq metadataSource
      (.str name))).filtered (sourceFilter [scope]))) s = (.ok [m], s) :=
    perform_load "metadata_by_source" hr hb rfl rfl rfl rfl rfl (by
      rw [hfound]
      exact .cons (hm.reads hd) .nil)
  rw [sourceByName?, map_eq_pure_bind, perform_bind, hload]
  rfl

end Inventory.Repository
