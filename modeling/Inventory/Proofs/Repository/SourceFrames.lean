import Inventory.Proofs.Repository.Definitions

/-!
What becomes of sources when other things are written: each stays as it is stored, and nothing else becomes one.
-/

namespace Inventory.Repository

open Inventory.Graph Store Query Vocabulary

variable {r : Repository} {s s' : Store} {g g' g'' : Graph} {u w : Uid} {us : List Uid} {p scope : String}
  {receipt : Receipt} {k : Guard} {t : EquipmentType} {as : List Attribute} {scopes : List String}
  {m m' : MetadataSource} {name : String}

theorem TypeWritten.live {vs : List Uid} {name : String} {source : Uid} {parent : Option Uid}
    (h : TypeWritten g g' u vs name source parent scopes as) : g'.values u metaType ≠ [] := by
  rw [h.name]
  exact List.cons_ne_nil _ _

theorem Beside.live (h : Beside g g' u) (hc : g.contains u = true) : g'.values u metaType ≠ [] := by
  rw [(h.type hc).2]
  exact (h.type hc).1

/-- Sources that stay as they are, with no others beside them. -/
structure SameSources (g g' : Graph) : Prop where
  marked : ∀ w, .str metadataMarker ∈ g'.values w typeName → .str metadataMarker ∈ g.values w typeName
  stored : ∀ w m, StoredSource g w m → StoredSource g' w m
  kinds : ∀ w, g'.values w metadataType ≠ [] → g.values w metadataType ≠ []

namespace SameSources

theorem refl (g : Graph) : SameSources g g := ⟨fun _ h => h, fun _ _ h => h, fun _ h => h⟩

theorem trans (h : SameSources g g') (h' : SameSources g' g'') : SameSources g g'' :=
  ⟨fun w hw => h.marked w (h'.marked w hw), fun w m hm => h'.stored w m (h.stored w m hm),
    fun w hw => h.kinds w (h'.kinds w hw)⟩

theorem of_redeclared (h : Redeclared g g') : SameSources g g' := by
  obtain ⟨ps, ts, rfl⟩ := h
  exact ⟨fun _ hw => hw, fun w m hm => hm.same (.refl _ _), fun _ hw => hw⟩

theorem of_frame (h : Frame g g') (hg : Coherent g)
    (hk : ∀ w, g'.values w metadataType ≠ [] → g.values w metadataType ≠ []) : SameSources g g' :=
  ⟨h.sources, fun _ _ => h.source hg, hk⟩

theorem of_beside (h : Beside g g' u) (hg : Coherent g) (hg' : Coherent g') (hu : g'.values u metaType ≠ [])
    (hk : ∀ w, g'.values w metadataType = g.values w metadataType) : SameSources g g' := by
  refine ⟨fun w hw => ?_, fun w m => h.source hg, fun w hw => hk w ▸ hw⟩
  have hne : w ≠ u := by
    rintro rfl
    exact (hg'.regular w).not_marked hu _ hw
  by_cases hc : g.contains w = true
  · rwa [(h.same w hc hne _).1] at hw
  · rw [(h.fresh w hc hne).2] at hw
    cases hw

theorem of_cleared (h : Cleared us g g') (hg : Coherent g)
    (hus : ∀ u ∈ us, g.values u metaType ≠ [] ∨ .str equipmentMarker ∈ g.values u typeName) : SameSources g g' := by
  refine of_frame (.of_cleared h hus) hg fun w hw => ?_
  rw [h.values] at hw
  split at hw
  · exact absurd (if_neg (by decide)) hw
  · exact hw

theorem of_recorded (h : RecordStored g g' scope) (hg : Coherent g) (hg' : Coherent g') : SameSources g g' := by
  refine of_frame (.of_recorded hg' h) hg fun w hw => ?_
  rcases h w with hs | hr
  · rwa [(hs _).1] at hw
  · rwa [hr.kind] at hw

theorem of_purged (h : InstancesPurged g g') (hg : Coherent g) : SameSources g g' := by
  induction h with
  | refl => exact .refl g
  | tail hfirst hstep ih =>
      obtain ⟨us, hus, hc⟩ := hstep
      exact ih.trans (of_cleared hc (hg.instancesPurged hfirst) fun u hu => .inr (hus u hu))

end SameSources

section Kinds

theorem values_of_execute {qs : List Quad} (hg : g.Intact) (hp : ∀ q ∈ qs, q.predicate ≠ p)
    (h : execute g (.of none [⟨none, qs, []⟩]) = .ok (receipt, g')) (w : Uid) : g'.values w p = g.values w p := by
  obtain ⟨vars, d, -, hh, rfl⟩ := execute_quads hg h
  rw [hh.values, flatMap_written_of_ne hp]
  rfl

theorem kindless_scopeQuads {owner : Subject} {q : Quad} (hq : q ∈ scopeQuads owner scopes) :
    q.predicate ≠ metadataType := by
  obtain ⟨s, -, rfl⟩ := List.mem_map.1 hq
  simp only [Quad.text, Quad.value]
  decide

theorem kindless_parentQuads {owner : Subject} {parent : Option Uid} {q : Quad}
    (hq : q ∈ parent.toList.map fun u => Quad.edge owner metaParent (.node u)) : q.predicate ≠ metadataType := by
  obtain ⟨u, -, rfl⟩ := List.mem_map.1 hq
  simp only [Quad.edge]
  decide

theorem kindless_attributeQuads {owner : Subject} {q : Quad} (hq : q ∈ allAttributeQuads owner as) :
    q.predicate ≠ metadataType := by
  obtain ⟨⟨label, a⟩, -, hq⟩ := List.mem_flatMap.1 hq
  simp only [attributeQuads, List.mem_cons, List.not_mem_nil, or_false] at hq
  rcases hq with rfl | rfl | rfl | rfl | rfl | rfl | rfl | rfl | rfl | rfl <;>
    simp only [Quad.edge, Quad.text, Quad.value] <;> decide

theorem kinds_of_createRequest {source : Uid} {parent : Option Uid} (hg : g.Intact)
    (h : execute g (createRequest t source parent) = .ok (receipt, g')) (w : Uid) :
    g'.values w metadataType = g.values w metadataType := by
  refine values_of_execute hg (fun q hq => ?_) h w
  rcases List.mem_append.1 hq with hq | hq
  · rw [typeQuads, List.append_assoc, List.mem_append, List.mem_append] at hq
    rcases hq with hq | hq | hq
    · simp only [List.mem_cons, List.not_mem_nil, or_false] at hq
      rcases hq with rfl | rfl | rfl <;> simp only [Quad.edge, Quad.text, Quad.value] <;> decide
    · exact kindless_parentQuads hq
    · exact kindless_scopeQuads hq
  · exact kindless_attributeQuads hq

theorem kinds_of_updateRequest {parent : Option Uid} (hg : g.Intact)
    (h : execute g (updateRequest u parent as scopes) = .ok (receipt, g')) (w : Uid) :
    g'.values w metadataType = g.values w metadataType := by
  refine values_of_execute hg (fun q hq => ?_) h w
  rcases List.mem_append.1 hq with hq | hq
  · rcases List.mem_append.1 hq with hq | hq
    · exact kindless_parentQuads hq
    · exact kindless_scopeQuads hq
  · exact kindless_attributeQuads hq

theorem intact_declaredIn (hg : g.Intact) (name : String) (as : List Attribute) : (declaredIn g name as).Intact :=
  (declareAll_ok _ _).1.intact hg

theorem kinds_declaredIn (g : Graph) (name : String) (as : List Attribute) (w : Uid) :
    (declaredIn g name as).values w metadataType = g.values w metadataType :=
  ((declareAll_ok _ _).1.same w _).1

theorem createType_kinds {res : Except Failure EquipmentType} (hs : Coherent s.graph)
    (h : perform (createType r k t) s = (res, s')) (w : Uid) :
    s'.graph.values w metadataType = s.graph.values w metadataType := by
  rcases createType_cases h with ⟨he, -⟩ | ⟨source, existing, x, parent, -, ⟨he, -⟩ | ⟨receipt, he, -⟩⟩
  · rw [he]
  · rw [he, kinds_declaredIn]
  · rw [kinds_of_createRequest (intact_declaredIn hs.intact _ _) he, kinds_declaredIn]

theorem updateType_kinds {id : String} {parentId : Option String} {res : Except Failure EquipmentType}
    (hs : Coherent s.graph) (h : perform (updateType r k id parentId as scopes) s = (res, s')) (w : Uid) :
    s'.graph.values w metadataType = s.graph.values w metadataType := by
  rcases updateType_cases hs h with ⟨he, -⟩ | ⟨u, existing, source, parent, -, ⟨he, -⟩ | ⟨receipt, he, -⟩⟩
  · rw [he]
  · rw [he, kinds_declaredIn]
  · rw [kinds_of_updateRequest (intact_declaredIn hs.intact _ _) he, kinds_declaredIn]

end Kinds

/-- No operation but one that writes a source changes what sources there are, and as what they are stored. -/
theorem Change.sameSources (r : Repository) (c : Change) (hs : Coherent s.graph) (hc : ∀ m, c ≠ .upsertSource m) :
    SameSources s.graph (c.run r s).graph := by
  have hs' := (c.step r hs).2
  cases c with
  | upsertSource m => exact absurd rfl (hc m)
  | createType k t =>
      rcases createType_written (r := r) (k := k) (t := t) hs rfl with ⟨hr, -⟩ | ⟨m, all, w, parent, u, vs, -, hw, -⟩
      · exact .of_redeclared hr
      · exact .of_beside (hw.beside hs.intact) hs hs' hw.live (createType_kinds (r := r) (k := k) (t := t) hs rfl)
  | updateType k id parentId as scopes =>
      rcases updateType_written (r := r) (k := k) hs rfl with ⟨hr, -⟩ | ⟨u, existing, m, parent, vs, hc, hw, -⟩
      · exact .of_redeclared hr
      · have hlive := mem_visibleTypes_values (hs.regular u) hc.visible
        have hb := hw.beside hs.intact hlive
        exact .of_beside hb hs hs' (hb.live (contains_of_values hlive)) (updateType_kinds (r := r) (k := k) hs rfl)
  | deleteType k name scope =>
      rcases deleteType_cases (r := r) (k := k) hs rfl with ⟨he, -⟩ | ⟨u, hu, hc⟩
      · exact .of_redeclared (.of_eq he)
      · refine .of_cleared hc hs fun v hv => ?_
        rw [List.mem_singleton.1 hv]
        exact .inl (List.ne_nil_of_mem hu.named)
  | upsertInstance k scope name payload now =>
      rcases upsertInstance_cases (r := r) (k := k) hs rfl with
        ⟨he, -⟩ | ⟨t, record, parent, own, stub, -, -, -, -, -, -, hm, -⟩
      · exact .of_redeclared (.of_eq he)
      · exact .of_recorded hm hs hs'
  | deleteInstances k elapsedMs scope =>
      have hpurged : InstancesPurged s.graph ((Change.deleteInstances k elapsedMs scope).run r s).graph :=
        (purgedIn_of_deleteInstances hs rfl).purged
      exact .of_purged hpurged hs

section Nodes

theorem StoredSource.sourceFor_iff (h : StoredSource g w m) :
    SourceFor g name scope w ↔ m.sourceName = name ∧ m.scope = scope := by
  constructor
  · intro hs
    have hname := hs.name
    have hscope := hs.scope
    rw [h.name, List.mem_singleton] at hname
    rw [h.scope, List.mem_singleton] at hscope
    exact ⟨(Json.str.inj hname).symm, (Json.str.inj hscope).symm⟩
  · rintro ⟨rfl, rfl⟩
    exact ⟨by simp [h.marked], by simp [h.name], by simp [h.scope]⟩

theorem exists_stored (hd : Described g) (h : SourceFor g name scope w) :
    ∃ m, StoredSource g w m ∧ m.sourceName = name ∧ m.scope = scope := by
  obtain ⟨m, hm⟩ := hd.sources w h.marked
  exact ⟨m, hm, hm.sourceFor_iff.1 h⟩

theorem storedSource_unique (hd : Declared g) (h : StoredSource g w m) (h' : StoredSource g w m') : m = m' :=
  (h.reads hd).unique (h'.reads hd)

theorem SameSources.sourceFor_iff (h : SameSources g g') (hd : Described g) :
    SourceFor g' name scope w ↔ SourceFor g name scope w := by
  constructor
  · intro hs
    obtain ⟨m, hm⟩ := hd.sources w (h.marked w hs.marked)
    exact hm.sourceFor_iff.2 ((h.stored w m hm).sourceFor_iff.1 hs)
  · intro hs
    obtain ⟨m, hm, hkey⟩ := exists_stored hd hs
    exact (h.stored w m hm).sourceFor_iff.2 hkey

end Nodes

end Inventory.Repository
