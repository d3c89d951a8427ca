import Inventory.Proofs.Graph.ClosedRequests
import Inventory.Proofs.Repository.SourceFrames
import Inventory.Proofs.Repository.TypeReads
import Inventory.Proofs.Uid

/-!
What an inventory knows of its sources after any operations: there is one node for each name and scope that a source
has been given for, which stays the same, and it has all columns that have been given for them.
-/

namespace Inventory.SourceColumns

open Inventory.Graph Store Query Listing Repository Vocabulary

variable {r : Repository} {refusals : Refusals} {s s' : Store} {g g' : Graph} {cs cs' : List Change} {c : Change}
  {m m' : MetadataSource} {name scope column : String} {scopes : List String} {v w : Uid} {us : List Uid}

/-- A source of a name in a scope has been given. -/
def Asked (cs : List Change) (name scope : String) : Prop :=
  ∃ m, .upsertSource m ∈ cs ∧ m.sourceName = name ∧ m.scope = scope

/-- A column has been given with a source of a name in a scope. -/
def Given (cs : List Change) (name scope column : String) : Prop :=
  ∃ m, .upsertSource m ∈ cs ∧ m.sourceName = name ∧ m.scope = scope ∧ column ∈ m.columns

/-- A source as its node, with exactly the columns that have been given for its name and scope. -/
structure Tells (cs : List Change) (g : Graph) (w : Uid) (m : MetadataSource) : Prop where
  id : m.id = w.text
  source : SourceFor g m.sourceName m.scope w
  columns : ∀ column, column ∈ m.columns ↔ Given cs m.sourceName m.scope column

/-- The sources of a store, as nodes and as they are read. -/
structure Known (cs : List Change) (s : Store) : Prop where
  one : ∀ name scope, Asked cs name scope → ∃! w, SourceFor s.graph name scope w
  none : ∀ name scope, ¬Asked cs name scope → ∀ w, ¬SourceFor s.graph name scope w
  keyed : ∀ w, .str metadataMarker ∈ s.graph.values w typeName → ∃ name scope, ∀ name' scope',
    SourceFor s.graph name' scope' w ↔ name = name' ∧ scope = scope'
  listed : ∀ kind scopes, ∃ us ms, perform (sources kind scopes) s = (.ok ms, s) ∧ us.Nodup ∧
    (∀ w, w ∈ us ↔ ∃ name, ∃ scope ∈ scopes, SourceFor s.graph name scope w) ∧
    List.Forall₂ (Tells cs s.graph) us ms
  byId : ∀ name scope w, SourceFor s.graph name scope w → w.value < 1 <<< 64 → ∀ scopes, scope ∈ scopes →
    ∃ m, perform (sourceById w.text scopes) s = (.ok m, s) ∧ m.sourceName = name ∧ m.scope = scope ∧
      Tells cs s.graph w m

/-- Each source that is given is answered with all columns so far, and changes no other node. No source has ever another
node, and no column depends on the order in which sources are given. -/
structure Accumulates (r : Repository) (refusals : Refusals) (cs : List Change) : Prop where
  known : Known cs (after r (bootstrapped refusals) cs)
  answered : ∀ m, ∃ w m', perform (upsertSource m) (after r (bootstrapped refusals) cs) =
      (.ok m', after r (bootstrapped refusals) (cs ++ [.upsertSource m])) ∧
    m'.sourceName = m.sourceName ∧ m'.scope = m.scope ∧
    Tells (cs ++ [.upsertSource m]) (after r (bootstrapped refusals) (cs ++ [.upsertSource m])).graph w m' ∧
    ∀ v, v ≠ w → Same (after r (bootstrapped refusals) cs).graph
      (after r (bootstrapped refusals) (cs ++ [.upsertSource m])).graph v
  steady : ∀ more name scope w, SourceFor (after r (bootstrapped refusals) cs).graph name scope w →
    SourceFor (after r (bootstrapped refusals) (cs ++ more)).graph name scope w
  unordered : ∀ cs', (∀ m, .upsertSource m ∈ cs' ↔ .upsertSource m ∈ cs) → ∀ name scope w w' scopes m m',
    SourceFor (after r (bootstrapped refusals) cs).graph name scope w →
    SourceFor (after r (bootstrapped refusals) cs').graph name scope w' →
    (perform (sourceById w.text scopes) (after r (bootstrapped refusals) cs)).1 = .ok m →
    (perform (sourceById w'.text scopes) (after r (bootstrapped refusals) cs')).1 = .ok m' → m'.columns = m.columns

section Calls

theorem asked_concat : Asked (cs ++ [c]) name scope ↔
    Asked cs name scope ∨ ∃ m, c = .upsertSource m ∧ m.sourceName = name ∧ m.scope = scope := by
  simp only [Asked, List.mem_append, List.mem_singleton, or_and_right, exists_or, eq_comm (b := c)]

theorem given_concat : Given (cs ++ [c]) name scope column ↔ Given cs name scope column ∨
    ∃ m, c = .upsertSource m ∧ m.sourceName = name ∧ m.scope = scope ∧ column ∈ m.columns := by
  simp only [Given, List.mem_append, List.mem_singleton, or_and_right, exists_or, eq_comm (b := c)]

theorem Given.asked (h : Given cs name scope column) : Asked cs name scope := by
  obtain ⟨m, hm, hname, hscope, -⟩ := h
  exact ⟨m, hm, hname, hscope⟩

theorem given_congr (h : ∀ m, .upsertSource m ∈ cs' ↔ .upsertSource m ∈ cs) :
    Given cs' name scope column ↔ Given cs name scope column :=
  exists_congr fun m => and_congr_left' (h m)

end Calls

/-- The nodes that store sources, and nothing else that looks like one. -/
structure Registry (cs : List Change) (g : Graph) : Prop where
  one : ∀ name scope v w, SourceFor g name scope v → SourceFor g name scope w → v = w
  asked : ∀ name scope, Asked cs name scope ↔ ∃ w, SourceFor g name scope w
  columns : ∀ w m, StoredSource g w m → ∀ column, column ∈ m.columns ↔ Given cs m.sourceName m.scope column
  kinds : ∀ w, g.values w metadataType ≠ [] → .str metadataMarker ∈ g.values w typeName

theorem Registry.kept (h : Registry cs g) (hs : SameSources g g') (hg : Declared g') (hd : Described g)
    (hc : ∀ m, c ≠ .upsertSource m) : Registry (cs ++ [c]) g' := by
  have hasked : ∀ name scope, Asked (cs ++ [c]) name scope ↔ Asked cs name scope := by
    intro name scope
    rw [asked_concat]
    exact or_iff_left fun ⟨m, hm, _⟩ => hc m hm
  have hgiven : ∀ name scope column, Given (cs ++ [c]) name scope column ↔ Given cs name scope column := by
    intro name scope column
    rw [given_concat]
    exact or_iff_left fun ⟨m, hm, _⟩ => hc m hm
  refine ⟨fun name scope v w hv hw => ?_, fun name scope => ?_, fun w m hm column => ?_, fun w hw => ?_⟩
  · rw [hs.sourceFor_iff hd] at hv hw
    exact h.one name scope v w hv hw
  · rw [hasked, h.asked]
    exact exists_congr fun w => (hs.sourceFor_iff hd).symm
  · obtain ⟨m₀, hm₀⟩ := hd.sources w (hs.marked w (by simp [hm.marked]))
    obtain rfl := storedSource_unique hg hm (hs.stored w m₀ hm₀)
    rw [hgiven, h.columns w m hm₀]
  · obtain ⟨m, hm⟩ := hd.sources w (h.kinds w (hs.kinds w hw))
    simp [(hs.stored w m hm).marked]

section Writes

/-- The one node that a source is written to, and what becomes of it. -/
structure Addition (g g' : Graph) (w : Uid) (m : MetadataSource) : Prop where
  only : ∀ v, SourceFor g m.sourceName m.scope v → v = w
  key : ∀ m₀, StoredSource g w m₀ → m₀.sourceName = m.sourceName ∧ m₀.scope = m.scope
  stored : ∃ m', StoredSource g' w m' ∧ m'.sourceName = m.sourceName ∧ m'.scope = m.scope ∧
    ∀ column, column ∈ m'.columns ↔ column ∈ m.columns ∨ ∃ m₀, StoredSource g w m₀ ∧ column ∈ m₀.columns
  others : ∀ v, v ≠ w → Same g g' v

/-- A source is written to one node, since there is one at most. -/
theorem Registry.addition (h : Registry cs g) (hg : Declared g) (hd : Described g) (hm : SourceStored g g' us m)
    (hc : Chosen g us m) : ∃ w, Addition g g' w m := by
  obtain ⟨w, hus, honly⟩ : ∃ w, (∀ v, v ∈ us ↔ v = w) ∧ ∀ v, SourceFor g m.sourceName m.scope v → v = w := by
    rcases hc with ⟨hne, hus⟩ | ⟨hnone, u, rfl, -⟩
    · obtain ⟨w, hw⟩ := List.exists_mem_of_ne_nil us hne
      have honly := fun v hv => h.one _ _ v w hv ((hus w).1 hw)
      refine ⟨w, fun v => ⟨fun hv => honly v ((hus v).1 hv), ?_⟩, honly⟩
      rintro rfl
      exact hw
    · exact ⟨u, fun v => List.mem_singleton, fun v hv => absurd hv (hnone v)⟩
  have hw : w ∈ us := (hus w).2 rfl
  exact ⟨w, honly, fun m₀ => hm.same_key hw, hm.stored hg hd.sources hw, fun v hv =>
    hm.others v fun hmem => hv ((hus v).1 hmem)⟩

namespace Addition

variable (h : Addition g g' w m)

include h

theorem sourceFor_written : SourceFor g' name scope w ↔ m.sourceName = name ∧ m.scope = scope := by
  obtain ⟨m', hm', hname, hscope, -⟩ := h.stored
  rw [hm'.sourceFor_iff, hname, hscope]

theorem sourceFor_other (hv : v ≠ w) : SourceFor g' name scope v ↔ SourceFor g name scope v := by
  have hsame := fun p => (h.others v hv p).1
  exact ⟨fun hs => ⟨hsame _ ▸ hs.marked, hsame _ ▸ hs.name, hsame _ ▸ hs.scope⟩, fun hs =>
    ⟨(hsame _).symm ▸ hs.marked, (hsame _).symm ▸ hs.name, (hsame _).symm ▸ hs.scope⟩⟩

theorem sourceFor_mono (hd : Described g) (hv : SourceFor g name scope v) : SourceFor g' name scope v := by
  by_cases hne : v = w
  · subst hne
    obtain ⟨m₀, hm₀, hname, hscope⟩ := exists_stored hd hv
    obtain ⟨hname', hscope'⟩ := h.key m₀ hm₀
    exact h.sourceFor_written.2 ⟨hname'.symm.trans hname, hscope'.symm.trans hscope⟩
  · exact (h.sourceFor_other hne).2 hv

theorem one (hr : Registry cs g) {u v : Uid} (hu : SourceFor g' name scope u) (hv : SourceFor g' name scope v) :
    u = v := by
  have hat : ∀ u, SourceFor g' name scope u → SourceFor g' name scope w → u = w := by
    intro u hu hw
    by_contra hne
    obtain ⟨rfl, rfl⟩ := h.sourceFor_written.1 hw
    exact hne (h.only u ((h.sourceFor_other hne).1 hu))
  by_cases hu' : u = w
  · subst hu'
    exact (hat v hv hu).symm
  · by_cases hv' : v = w
    · subst hv'
      exact hat u hu hv
    · exact hr.one name scope u v ((h.sourceFor_other hu').1 hu) ((h.sourceFor_other hv').1 hv)

theorem asked (hr : Registry cs g) (hd : Described g) :
    Asked (cs ++ [.upsertSource m]) name scope ↔ ∃ v, SourceFor g' name scope v := by
  rw [asked_concat, hr.asked]
  constructor
  · rintro (⟨v, hv⟩ | ⟨m', he, hkey⟩)
    · exact ⟨v, h.sourceFor_mono hd hv⟩
    · cases he
      exact ⟨w, h.sourceFor_written.2 hkey⟩
  · rintro ⟨v, hv⟩
    by_cases hne : v = w
    · subst hne
      exact .inr ⟨m, rfl, h.sourceFor_written.1 hv⟩
    · exact .inl ⟨v, (h.sourceFor_other hne).1 hv⟩

/-- The columns that the node had are those that had been given for its name and scope. -/
theorem columns_before (hr : Registry cs g) (hd : Described g) :
    (∃ m₀, StoredSource g w m₀ ∧ column ∈ m₀.columns) ↔ Given cs m.sourceName m.scope column := by
  constructor
  · rintro ⟨m₀, hm₀, hc⟩
    obtain ⟨hname, hscope⟩ := h.key m₀ hm₀
    rwa [hr.columns w m₀ hm₀, hname, hscope] at hc
  · intro hc
    obtain ⟨u, hu⟩ := (hr.asked _ _).1 hc.asked
    obtain rfl := h.only u hu
    obtain ⟨m₀, hm₀, hname, hscope⟩ := exists_stored hd hu
    refine ⟨m₀, hm₀, ?_⟩
    rwa [hr.columns u m₀ hm₀, hname, hscope]

theorem columns (hr : Registry cs g) (hd : Described g) (hg' : Declared g') (hm' : StoredSource g' v m') :
    column ∈ m'.columns ↔ Given (cs ++ [.upsertSource m]) m'.sourceName m'.scope column := by
  have hgiven : Given (cs ++ [.upsertSource m]) m'.sourceName m'.scope column ↔
      Given cs m'.sourceName m'.scope column ∨
        m.sourceName = m'.sourceName ∧ m.scope = m'.scope ∧ column ∈ m.columns := by
    rw [given_concat]
    simp
  rw [hgiven]
  by_cases hne : v = w
  · subst hne
    obtain ⟨m₁, hm₁, hname, hscope, hcols⟩ := h.stored
    obtain rfl := storedSource_unique hg' hm₁ hm'
    rw [hcols, h.columns_before hr hd, hname, hscope, or_comm]
    simp
  · have hm₀ : StoredSource g v m' := hm'.same fun p => ⟨(h.others v hne p).1.symm, (h.others v hne p).2.symm⟩
    rw [hr.columns v m' hm₀]
    refine (or_iff_left ?_).symm
    rintro ⟨hname, hscope, -⟩
    exact hne (h.only v (hm₀.sourceFor_iff.2 ⟨hname.symm, hscope.symm⟩))

theorem marked (hr : Registry cs g) (hv : g'.values v metadataType ≠ []) :
    .str metadataMarker ∈ g'.values v typeName := by
  by_cases hne : v = w
  · subst hne
    obtain ⟨m', hm', -⟩ := h.stored
    simp [hm'.marked]
  · rw [(h.others v hne _).1] at hv ⊢
    exact hr.kinds v hv

/-- The registry has the source that has been written, with its columns added. -/
theorem registry (hr : Registry cs g) (hd : Described g) (hg' : Declared g') :
    Registry (cs ++ [.upsertSource m]) g' :=
  ⟨fun _ _ _ _ => h.one hr, fun _ _ => h.asked hr hd, fun _ _ hm' _ => h.columns hr hd hg' hm',
    fun _ => h.marked hr⟩

end Addition

end Writes

section Requests

theorem closed_ownSource (m : MetadataSource) : Query.Closed ⟨"UpsertMetadata", [], [ownSource m]⟩ .empty := by
  refine Block.closedAll_cons (((Block.closed_start _ ?_).bindAs _).filtered ?_) rfl trivial
  · simp [Root.refs]
  · rintro _ ⟨⟩
    refine .and fun f hf => ?_
    simp only [List.mem_cons, List.not_mem_nil, or_false] at hf
    rcases hf with rfl | rfl <;> exact .eq

theorem closed_upsertSource (m : MetadataSource) :
    (Request.of (some ⟨"UpsertMetadata", [], [ownSource m]⟩) [sourceMutation m]).Closed
      ⟨"UpsertMetadata", [], [ownSource m]⟩ := by
  refine ⟨rfl, closed_ownSource m, fun n hn => ?_, fun n hn q hq => ?_⟩
  · obtain rfl := List.mem_singleton.1 hn
    rfl
  · obtain rfl := List.mem_singleton.1 hn
    have hv : sourceVar ∈ Query.binds ⟨"UpsertMetadata", [], [ownSource m]⟩ := List.mem_singleton_self _
    simp only [sourceMutation, List.mem_append, List.mem_cons, List.mem_map, List.not_mem_nil, or_false] at hq
    rcases hq with (rfl | rfl | rfl | rfl | rfl) | ⟨c, -, rfl⟩ <;> exact Quad.closed_value (by decide) hv

end Requests

section Runs

/-- The nodes that are listed are the sources in the scopes, since there is one kind of them only. -/
theorem Registry.mem_listed (h : Registry cs g) (hd : Described g) (kind : MetadataKind) :
    w ∈ (g.uids.filter fun u => Comparison.valuesMatch (g.values u metadataType) (.str kind.name)).filter
      (g.inScopes scopes) ↔ ∃ name, ∃ scope ∈ scopes, SourceFor g name scope w := by
  rw [List.mem_filter, List.mem_filter, mem_uids, Comparison.valuesMatch_str_iff, inScopes_iff]
  constructor
  · rintro ⟨⟨-, hkind⟩, scope, hscope, hin⟩
    obtain ⟨m, hm⟩ := hd.sources w (h.kinds w (List.ne_nil_of_mem hkind))
    exact ⟨m.sourceName, scope, hscope, by simp [hm.marked], by simp [hm.name], hin⟩
  · rintro ⟨name, scope, hscope, hw⟩
    obtain ⟨m, hm⟩ := hd.sources w hw.marked
    exact ⟨⟨hm.contains, by simp [hm.kind]⟩, scope, hscope, hw.scope⟩

theorem Registry.perform_sources (h : Registry cs s.graph) (hs : Coherent s.graph) (hd : Described s.graph)
    (hq : s.refusals.query = none) (kind : MetadataKind) (scopes : List String) :
    ∃ us ms, perform (sources kind scopes) s = (.ok ms, s) ∧ us.Nodup ∧
      (∀ w, w ∈ us ↔ ∃ name, ∃ scope ∈ scopes, SourceFor s.graph name scope w) ∧
      List.Forall₂ (StoredSource s.graph) us ms := by
  have hb : Plain s.graph .empty (((Block.named sourcesBlock (.eq metadataType (.str kind.name))).filtered
      (scopeFilter scopes)).orderBy metadataSource .asc)
      (s.graph.uids.filter fun u => Comparison.valuesMatch (s.graph.values u metadataType) (.str kind.name))
      (s.graph.inScopes scopes) :=
    ⟨rfl, passes_scopes scopes, rfl, rfl⟩
  have hperm := sorted_perm (g := s.graph) (((Block.named sourcesBlock (.eq metadataType (.str kind.name))).filtered
    (scopeFilter scopes)).orderBy metadataSource .asc).order
    ((s.graph.uids.filter fun u => Comparison.valuesMatch (s.graph.values u metadataType) (.str kind.name)).filter
      (s.graph.inScopes scopes))
  obtain ⟨ms, hms⟩ := forall₂_of_forall (R := StoredSource s.graph) fun u hu => by
    obtain ⟨name, scope, -, hw⟩ := (h.mem_listed hd kind).1 (hperm.mem_iff.1 hu)
    exact hd.sources u hw.marked
  have hread := perform_load "metadata_sources" hq hb rfl rfl rfl rfl rfl (hms.imp fun _ _ hm => hm.reads hs.declared)
  refine ⟨_, ms, hread, hperm.nodup_iff.2 (((nodup_uids _).filter _).filter _), fun w => ?_, hms⟩
  rw [hperm.mem_iff, h.mem_listed hd]

theorem Registry.tells (h : Registry cs g) (hm : StoredSource g w m) : Tells cs g w m :=
  ⟨hm.id, hm.sourceFor_iff.2 ⟨rfl, rfl⟩, h.columns w m hm⟩

theorem Registry.known (h : Registry cs s.graph) (hs : Coherent s.graph) (hd : Described s.graph)
    (hq : s.refusals.query = none) : Known cs s := by
  refine ⟨fun name scope ha => ?_, fun name scope ha w hw => ha ((h.asked _ _).2 ⟨w, hw⟩), fun w hw => ?_,
    fun kind scopes => ?_, fun name scope w hw hlt scopes hscope => ?_⟩
  · obtain ⟨w, hw⟩ := (h.asked _ _).1 ha
    exact ⟨w, hw, fun v hv => h.one _ _ v w hv hw⟩
  · obtain ⟨m, hm⟩ := hd.sources w hw
    exact ⟨m.sourceName, m.scope, fun _ _ => hm.sourceFor_iff⟩
  · obtain ⟨us, ms, hread, hnodup, hmem, hms⟩ := h.perform_sources hs hd hq kind scopes
    exact ⟨us, ms, hread, hnodup, hmem, hms.imp fun _ _ => h.tells⟩
  · obtain ⟨m, hm, hname, hplace⟩ := exists_stored hd hw
    have hparse : Uid.parse? w.text = some w := by
      rw [Uid.parse?_text, if_pos]
      rw [Bits.isUnsigned_64_iff]
      omega
    have hin : isSourceIn s.graph scopes w = true := by
      rw [isSourceIn, Bool.and_eq_true, decide_eq_true_eq, inScopes_iff]
      exact ⟨hw.marked, scope, hscope, hw.scope⟩
    exact ⟨m, perform_sourceById hq hparse hm.contains hin (hm.reads hs.declared), hname, hplace, h.tells hm⟩

/-- A source is written whatever is stored, and given back as it is then. -/
theorem Registry.upserted (h : Registry cs s.graph) (hs : Coherent s.graph) (hd : Described s.graph)
    (hq : s.refusals.query = none) (hx : s.refusals.execute s.executed = none) (m : MetadataSource) :
    ∃ w m' s', perform (upsertSource m) s = (.ok m', s') ∧ Addition s.graph s'.graph w m ∧
      StoredSource s'.graph w m' ∧ m'.sourceName = m.sourceName ∧ m'.scope = m.scope ∧
      Registry (cs ++ [.upsertSource m]) s'.graph := by
  obtain ⟨receipt, g', he⟩ := execute_closed s.graph (closed_upsertSource m)
  obtain ⟨hi, hp, us', hw⟩ := sourceWritten_of_execute hs.intact hs.declared he
  have hs' : Coherent g' := hs.sourceWritten hi (hs.declared.of_predicates hp) hw
  obtain ⟨us, hm, hc⟩ := sourceStored_of_execute hs.intact he
  obtain ⟨w, ha⟩ := h.addition hs.declared hd hm hc
  have hr : Registry (cs ++ [.upsertSource m]) g' := ha.registry h hd hs'.declared
  have hown : SourceFor g' m.sourceName m.scope w := ha.sourceFor_written.2 ⟨rfl, rfl⟩
  obtain ⟨m', hm', hname, hscope, -⟩ := ha.stored
  have hfound := perform_sourceByName? (s := { s with graph := g', executed := s.executed + 1 }) hq hs'.declared
    (fun v => ⟨fun hv => hr.one _ _ v w hv hown, fun hv => hv ▸ hown⟩) hm'
  refine ⟨w, m', { s with graph := g', executed := s.executed + 1 }, ?_, ha, hm', hname, hscope, hr⟩
  unfold upsertSource
  rw [ownSource] at he
  rw [discard_bind, write, perform_bind, perform_execute_ok hx he]
  simp only [perform_bind, hfound]
  rfl

theorem Registry.step (r : Repository) (c : Change) (h : Registry cs s.graph) (hs : Coherent s.graph)
    (hd : Described s.graph) (hq : s.refusals.query = none) (hx : s.refusals.execute s.executed = none) :
    Registry (cs ++ [c]) (c.run r s).graph ∧
      ∀ name scope w, SourceFor s.graph name scope w → SourceFor (c.run r s).graph name scope w := by
  by_cases hc : ∃ m, c = .upsertSource m
  · obtain ⟨m, rfl⟩ := hc
    obtain ⟨w, m', s', hrun, ha, -, -, -, hr⟩ := h.upserted hs hd hq hx m
    rw [Change.run, hrun]
    exact ⟨hr, fun _ _ _ => ha.sourceFor_mono hd⟩
  · have hc' : ∀ m, c ≠ .upsertSource m := fun m he => hc ⟨m, he⟩
    have hsame := c.sameSources r hs hc'
    exact ⟨h.kept hsame (c.step r hs).2.declared hd hc', fun _ _ _ => (hsame.sourceFor_iff hd).2⟩

theorem registry_bootstrapped (refusals : Refusals) : Registry [] (bootstrapped refusals).graph := by
  have hnone : ∀ name scope w, ¬SourceFor (bootstrapped refusals).graph name scope w := by
    intro name scope w hw
    exact absurd hw.marked (by simp [values_bootstrapped])
  refine ⟨fun _ _ v _ hv => absurd hv (hnone _ _ v), fun name scope => ?_, fun w m hm => ?_, fun w hw => ?_⟩
  · exact iff_of_false (fun ⟨m, hm, _⟩ => absurd hm List.not_mem_nil) fun ⟨w, hw⟩ => hnone name scope w hw
  · exact absurd (hm.sourceFor_iff.2 ⟨rfl, rfl⟩) (hnone _ _ w)
  · exact absurd (values_bootstrapped refusals w _) hw

theorem stored_of_sourceById (hs : Coherent s.graph) (hd : Described s.graph)
    (h : (perform (sourceById w.text scopes) s).1 = .ok m) : StoredSource s.graph w m := by
  obtain ⟨v, hv, -, hin, hreads⟩ := (sourceById_yields w.text scopes).gives m h
  obtain rfl := Uid.eq_of_parse?_text hv
  exact storedSource_of_reads hs hd hin hreads

end Runs

variable (r) (hq : refusals.query = none) (hx : ∀ n, refusals.execute n = none)

include hq hx

theorem willing_after (cs : List Change) : (after r (bootstrapped refusals) cs).refusals.query = none ∧
    ∀ n, (after r (bootstrapped refusals) cs).refusals.execute n = none := by
  rw [refusals_after]
  exact ⟨hq, hx⟩

theorem step_after (c : Change) (h : Registry cs (after r (bootstrapped refusals) cs).graph) :
    Registry (cs ++ [c]) (after r (bootstrapped refusals) (cs ++ [c])).graph ∧ ∀ name scope w,
      SourceFor (after r (bootstrapped refusals) cs).graph name scope w →
        SourceFor (after r (bootstrapped refusals) (cs ++ [c])).graph name scope w := by
  obtain ⟨hquery, hexecute⟩ := willing_after r hq hx cs
  rw [after_concat]
  exact h.step r c (coherent_after (coherent_bootstrapped refusals) cs)
    (described_after (coherent_bootstrapped refusals) (described_bootstrapped refusals) cs) hquery (hexecute _)

theorem registry_after (cs : List Change) : Registry cs (after r (bootstrapped refusals) cs).graph := by
  induction cs using List.reverseRecOn with
  | nil => exact registry_bootstrapped refusals
  | append_singleton cs c ih => exact (step_after r hq hx c ih).1

theorem steady_after (cs more : List Change) (h : SourceFor (after r (bootstrapped refusals) cs).graph name scope w) :
    SourceFor (after r (bootstrapped refusals) (cs ++ more)).graph name scope w := by
  induction more using List.reverseRecOn with
  | nil => rwa [List.append_nil]
  | append_singleton more c ih =>
      rw [← List.append_assoc]
      exact (step_after r hq hx c (registry_after r hq hx (cs ++ more))).2 _ _ _ ih

/-- What is known of sources is what has been given of them, in whatever order and whatever else was done between. -/
theorem accumulates_after (cs : List Change) : Accumulates r refusals cs := by
  have hs := fun cs => coherent_after (r := r) (coherent_bootstrapped refusals) cs
  have hd := fun cs => described_after (r := r) (coherent_bootstrapped refusals) (described_bootstrapped refusals) cs
  have hregistry := registry_after r hq hx
  obtain ⟨hquery, hexecute⟩ := willing_after r hq hx cs
  refine ⟨(hregistry cs).known (hs cs) (hd cs) hquery, fun m => ?_, fun more _ _ _ => steady_after r hq hx cs more, ?_⟩
  · obtain ⟨w, m', s', hrun, ha, hm', hname, hscope, hr⟩ :=
      (hregistry cs).upserted (hs cs) (hd cs) hquery (hexecute _) m
    have hafter : after r (bootstrapped refusals) (cs ++ [.upsertSource m]) = s' := by
      rw [after_concat, Change.run, hrun]
    rw [hafter]
    exact ⟨w, m', hrun, hname, hscope, hr.tells hm', ha.others⟩
  · intro cs' hcs name scope w w' scopes m m' hw hw' hm hm'
    have hstored := stored_of_sourceById (hs cs) (hd cs) hm
    have hstored' := stored_of_sourceById (hs cs') (hd cs') hm'
    obtain ⟨rfl, rfl⟩ := hstored.sourceFor_iff.1 hw
    obtain ⟨hname, hscope⟩ := hstored'.sourceFor_iff.1 hw'
    refine OrderedSet.ext fun column => ?_
    rw [(hregistry cs').columns w' m' hstored', (hregistry cs).columns w m hstored, hname, hscope, given_congr hcs]

omit hq hx

/-- Sources of one name in two scopes and of two names in one scope, one of them given twice. -/
def overlapping : List Change :=
  [.upsertSource ((MetadataSource.equipment "a" "s1").withColumns ["id", "size"]),
    .upsertSource ((MetadataSource.equipment "a" "s2").withColumns ["id", "slot"]),
    .createType ⟨0⟩ (((EquipmentType.new "rack" "0x1").withScope "s1").withAttribute (.identifier "key" "id")),
    .upsertSource ((MetadataSource.equipment "b" "s1").withColumns ["up"]),
    .upsertSource ((MetadataSource.equipment "a" "s1").withColumns ["size", "height"])]

set_option maxRecDepth 100000 in
/-- The source that has been given twice is still the first node, and has the columns of both calls and no others. -/
theorem accumulates_overlapping : Refusals.none.query = none ∧ (∀ n, Refusals.none.execute n = none) ∧
    ∃ m, perform (sourceById "0x1" ["s1"]) (after ⟨0, .standard⟩ (bootstrapped .none) overlapping) =
      (.ok m, after ⟨0, .standard⟩ (bootstrapped .none) overlapping) ∧
        ∀ column, column ∈ m.columns ↔ column = "id" ∨ column = "size" ∨ column = "height" := by
  have h := accumulates_after ⟨0, .standard⟩ (rfl : Refusals.none.query = none) (fun _ => rfl) overlapping
  have hw : SourceFor (after ⟨0, .standard⟩ (bootstrapped .none) overlapping).graph "a" "s1" ⟨1⟩ := by
    rw [sourceFor_iff]
    decide +kernel
  obtain ⟨m, hread, hname, hscope, htells⟩ := h.known.byId "a" "s1" ⟨1⟩ hw (by decide) ["s1"] (by simp)
  have hid : Uid.text ⟨1⟩ = "0x1" := by decide +kernel
  rw [hid] at hread
  refine ⟨rfl, fun _ => rfl, m, hread, fun column => ?_⟩
  have hgiven : Given overlapping "a" "s1" column ↔
      (column = "id" ∨ column = "size") ∨ column = "size" ∨ column = "height" := by
    simp [Given, overlapping, MetadataSource.withColumns, MetadataSource.equipment]
  rw [htells.columns, hname, hscope, hgiven]
  grind

end Inventory.SourceColumns
