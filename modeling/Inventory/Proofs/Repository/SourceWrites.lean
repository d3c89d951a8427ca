import Inventory.Proofs.Repository.Stored

/-!
What a source is stored as once it has been written: under its name, with the columns it had and those given for it.
-/

namespace Inventory.Repository

open Inventory.Graph Store Query Vocabulary

variable {g g' : Graph} {vars : Vars} {d : Draft} {u w : Uid} {us : List Uid} {p : String} {m m' : MetadataSource}
  {receipt : Receipt}

/-- What is put to a source under a predicate. -/
def sourceStamp (m : MetadataSource) (p : String) : List Json :=
  (if typeName = p then [.str metadataMarker] else []) ++ (if nodeType = p then [.str metadataNodeType] else []) ++
    (if metadataSource = p then [.str m.sourceName] else []) ++
    (if metadataType = p then [.str m.kind.name] else []) ++ (if scopes = p then [.str m.scope] else []) ++
      if metadataAttributes = p then m.columns.items.map .str else []

/-- A node that is marked as the source of a name in a scope. -/
structure SourceFor (g : Graph) (name scope : String) (w : Uid) : Prop where
  marked : .str metadataMarker ∈ g.values w typeName
  name : .str name ∈ g.values w metadataSource
  scope : .str scope ∈ g.values w scopes

/-- The nodes that a source is written to: those of its name and scope, or one that is made if there is none. -/
def Chosen (g : Graph) (us : List Uid) (m : MetadataSource) : Prop :=
  us ≠ [] ∧ (∀ w, w ∈ us ↔ SourceFor g m.sourceName m.scope w) ∨
    (∀ w, ¬SourceFor g m.sourceName m.scope w) ∧ ∃ u, us = [u] ∧ ¬g.contains u = true

/-- Nodes that have been written as a source. Whatever else there is stays as it was. -/
structure SourceStored (g g' : Graph) (us : List Uid) (m : MetadataSource) : Prop where
  others : ∀ w, w ∉ us → Same g g' w
  known : ∀ u ∈ us, g.contains u = true →
    isSourceIn g [m.scope] u = true ∧ .str m.sourceName ∈ g.values u metadataSource
  values : ∀ u ∈ us, ∀ p, g'.values u p = (sourceStamp m p).foldl (put (g.isList p)) (g.values u p)
  edges : ∀ u ∈ us, ∀ p, g'.edges u p = g.edges u p

theorem written_sourceStamp (hw : w ∈ d.nodes vars (.var sourceVar)) :
    (sourceMutation m).set.flatMap (d.written vars w p) = sourceStamp m p := by
  have hcol : ∀ cs : List String, (cs.map fun c => Quad.text (.var sourceVar) metadataAttributes c).flatMap
      (d.written vars w p) = if metadataAttributes = p then cs.map .str else [] := by
    intro cs
    induction cs with
    | nil => simp
    | cons c cs ih =>
        rw [List.map_cons, List.flatMap_cons, ih, written_text hw]
        split <;> simp
  rw [sourceMutation, List.flatMap_append, hcol]
  simp [written_text hw, sourceStamp]

theorem sourceFor_iff {name scope : String} : SourceFor g name scope w ↔
    isSourceIn g [scope] w = true ∧ .str name ∈ g.values w metadataSource := by
  have hin : isSourceIn g [scope] w = true ↔
      .str metadataMarker ∈ g.values w typeName ∧ .str scope ∈ g.values w Vocabulary.scopes := by
    rw [isSourceIn, Bool.and_eq_true, decide_eq_true_eq, inScopes_iff]
    simp
  rw [hin]
  exact ⟨fun h => ⟨⟨h.marked, h.scope⟩, h.name⟩, fun h => ⟨h.1.1, h.2, h.1.2⟩⟩

theorem sourceStored_of_execute (hg : g.Intact)
    (h : execute g (.of (some ⟨"UpsertMetadata", [], [ownSource m]⟩) [sourceMutation m]) = .ok (receipt, g')) :
    ∃ us, SourceStored g g' us m ∧ Chosen g us m := by
  obtain ⟨vars, d, ho, hh, hbound, rfl⟩ := draft_of_source hg h
  refine ⟨d.nodes vars (.var sourceVar), ⟨fun w hw => ?_, fun u hu hc => ?_, fun u hu p => ?_, fun u hu p => ?_⟩, ?_⟩
  · exact same_of_holds hh fun q hq => by rwa [subject_sourceMutation hq]
  · obtain ⟨-, hu, hin⟩ := (hbound _ u).1 (ho.mem_bound hc hu)
    exact ⟨hin, Comparison.valuesMatch_str_iff.1 (List.mem_filter.1 hu).2⟩
  · rw [hh.values, written_sourceStamp hu]
  · rw [hh.edges, linked_sourceMutation]
    rfl
  · have hmem : ∀ w, w ∈ vars.bound sourceVar ↔ SourceFor g m.sourceName m.scope w := by
      intro w
      rw [hbound, sourceFor_iff, List.mem_filter, mem_uids, Comparison.valuesMatch_str_iff]
      constructor
      · rintro ⟨-, hw, hin⟩
        exact ⟨hin, hw.2⟩
      · rintro ⟨hin, hw⟩
        exact ⟨rfl, ⟨contains_of_mem_values hw, hw⟩, hin⟩
    have hne : d.nodes vars (.var sourceVar) ≠ [] :=
      hh.subject (.text (.var sourceVar) typeName metadataMarker) (by simp [sourceMutation])
    by_cases hb : vars.bound sourceVar = []
    · rw [Draft.nodes, if_pos (by simpa using hb)] at hne ⊢
      refine .inr ⟨fun w hw => ?_, ?_⟩
      · rw [← hmem, hb] at hw
        exact List.not_mem_nil hw
      · cases hm : d.made? (.var sourceVar) with
        | none => simp [hm] at hne
        | some u => exact ⟨u, rfl, (ho.made_new _ u hm).2⟩
    · rw [Draft.nodes, if_neg (by simpa using hb)]
      exact .inl ⟨hb, hmem⟩

theorem SourceStored.same_key (h : SourceStored g g' us m) (hu : u ∈ us) (hm : StoredSource g u m') :
    m'.sourceName = m.sourceName ∧ m'.scope = m.scope := by
  obtain ⟨hin, hname⟩ := h.known u hu (contains_of_mem_values (hm.marked ▸ List.mem_singleton_self _))
  rw [hm.name, List.mem_singleton] at hname
  obtain ⟨s, hs, hmem⟩ := inScopes_iff.1 (Bool.and_eq_true_iff.1 hin).2
  rw [hm.scope, List.mem_singleton.1 hs, List.mem_singleton] at hmem
  exact ⟨(Json.str.inj hname).symm, (Json.str.inj hmem).symm⟩

/-- What has been written is stored as a source, with the columns it had and those that have been given. -/
theorem SourceStored.stored (h : SourceStored g g' us m) (hd : Declared g)
    (hold : ∀ w, .str metadataMarker ∈ g.values w typeName → ∃ m', StoredSource g w m') (hu : u ∈ us) :
    ∃ m', StoredSource g' u m' ∧ m'.sourceName = m.sourceName ∧ m'.scope = m.scope ∧
      ∀ c, c ∈ m'.columns ↔ c ∈ m.columns ∨ ∃ m₀, StoredSource g u m₀ ∧ c ∈ m₀.columns := by
  have hone : ∀ p, (∃ q ∈ Schema.basePredicates, q.predicate = p ∧ q.list = false) → ∀ v,
      sourceStamp m p = [v] → g'.values u p = [v] := by
    intro p hq v hv
    rw [h.values u hu, hv, isList_eq hd hq]
    rfl
  have hcells : ∃ vs : List String, g.values u metadataAttributes = vs.map Json.str ∧
      (∀ c, c ∈ vs ↔ ∃ m₀, StoredSource g u m₀ ∧ c ∈ m₀.columns) ∧ g.edges u metadataAttributes = .empty ∧
        put true (g.values u Vocabulary.scopes) (.str m.scope) = [.str m.scope] := by
    by_cases hc : g.contains u = true
    · obtain ⟨m₀, hm₀⟩ := hold u (of_decide_eq_true (Bool.and_eq_true_iff.1 (h.known u hu hc).1).1)
      obtain ⟨vs, hvs, hcols⟩ := hm₀.columns
      have hmem : ∀ c, c ∈ vs ↔ c ∈ m₀.columns := by
        intro c
        rw [hcols, OrderedSet.mem_ofList]
      refine ⟨vs, hvs, fun c => ⟨fun hc => ⟨m₀, hm₀, (hmem c).1 hc⟩, ?_⟩, hm₀.untied, ?_⟩
      · rintro ⟨m₁, hm₁, hc⟩
        rwa [hmem, ← (hm₁.reads hd).unique (hm₀.reads hd)]
      · rw [hm₀.scope, (h.same_key hu hm₀).2]
        simp [put, Json.same_refl]
    · refine ⟨[], values_of_not_contains g _ hc, fun c => ⟨fun hc => absurd hc List.not_mem_nil, ?_⟩,
        edges_of_not_contains g _ hc, ?_⟩
      · rintro ⟨m₀, hm₀, -⟩
        have hmark := hm₀.marked
        rw [values_of_not_contains g _ hc] at hmark
        cases hmark
      · rw [values_of_not_contains g _ hc]
        rfl
  obtain ⟨vs, hvs, hcols, htie, hscope⟩ := hcells
  obtain ⟨ws, hws, hmem⟩ := foldl_put_texts m.columns.items vs
  refine ⟨⟨u.text, m.sourceName, m.kind, m.scope, .ofList ws⟩, ⟨rfl, ?_, ?_, ?_, ?_, ⟨ws, ?_, rfl⟩, ?_⟩, rfl, rfl, ?_⟩
  · exact hone _ (by decide +kernel) _ (by simp +decide [sourceStamp])
  · exact hone _ (by decide +kernel) _ (by simp +decide [sourceStamp])
  · exact hone _ (by decide +kernel) _ (by simp +decide [sourceStamp])
  · have hstamp : sourceStamp m Vocabulary.scopes = [.str m.scope] := by simp +decide [sourceStamp]
    rw [h.values u hu, hstamp, (lists_of_declared hd).2.1]
    exact hscope
  · have hstamp : sourceStamp m metadataAttributes = m.columns.items.map .str := by simp +decide [sourceStamp]
    rw [h.values u hu, hstamp, isList_eq hd (b := true) (by decide +kernel), hvs, hws]
  · rw [h.edges u hu, htie]
  · intro c
    rw [OrderedSet.mem_ofList, hmem, hcols, OrderedSet.mem_def]

end Inventory.Repository
