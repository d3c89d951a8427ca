import Inventory.Proofs.Repository.Definitions
import Inventory.Proofs.Repository.TypeReads

/-!
Types as they are read back, after whatever has been done: all of them are, and all are well formed over the columns
that their sources have by then.
-/

namespace Inventory.TypeDefinitions

open Repository Inventory.Graph Hierarchy Vocabulary Admission

variable {s : Store} {t : EquipmentType} {u : Uid} {m : MetadataSource}

/-- A type that one of the reads of types gives. -/
inductive Given (s : Store) (t : EquipmentType) : Prop
  | listed (scopes : List String) (ts : List EquipmentType) (h : (perform (types scopes) s).1 = .ok ts) (ht : t ∈ ts)
  | byId (id : String) (scopes : List String) (h : (perform (typeById id scopes) s).1 = .ok t)
  | byName (name : String) (scopes : List String) (h : (perform (typeByName name scopes) s).1 = .ok t)
  | below (id : String) (depth : Option Nat) (scopes : List String) (ts : List EquipmentType)
      (h : (perform (typeChildren id depth scopes) s).1 = .ok ts) (ht : t ∈ ts)

/-- The source of a type as it is stored by now, which is what its id gives, unless that is beyond 64 bits. -/
structure SourceOf (s : Store) (t : EquipmentType) (w : Uid) (m : MetadataSource) : Prop where
  id : t.sourceId = w.text
  reads : ReadsSource s.graph w m
  found : Uid.parse? t.sourceId = some w → perform (sourceById t.sourceId t.scopes.items) s = (.ok m, s)

structure Readable (s : Store) : Prop where
  wellFormed : ∀ t, Given s t → ∃ w m, SourceOf s t w m ∧ WellFormed m.columns t
  complete : s.refusals.query = none → ∀ scopes, ∃ ts, perform (types scopes) s = (.ok ts, s) ∧
    (ts.map (·.id)).Perm ((visibleTypes s.graph scopes).map Uid.text)

theorem typeChildren_answered (id : String) (depth : Option Nat) (scopes : List String) :
    Yields (typeChildren id depth scopes) s fun ts => s.refusals.query = none ∧
      ∀ t ∈ ts, ∃ u ∈ visibleTypes s.graph scopes, Loaded s.graph u t := by
  refine (typeUid_yields _).bind fun u _ => (types_yields scopes).bind fun all => ?_
  rintro ⟨us, hus, hall⟩
  refine (Yields.answered _ _ _).bind fun answer h => (Yields.reading _).bind fun page _ => Yields.pure ⟨h.1, ?_⟩
  exact fun t ht => exists_loaded hall hus (List.mem_filter.1 ht).1

theorem Given.loaded (hs : Coherent s.graph) (h : Given s t) :
    s.refusals.query = none ∧ ∃ u, s.graph.values u metaType ≠ [] ∧ Loaded s.graph u t := by
  have hlive : ∀ {scopes : List String}, (∃ u ∈ visibleTypes s.graph scopes, Loaded s.graph u t) →
      ∃ u, s.graph.values u metaType ≠ [] ∧ Loaded s.graph u t := by
    rintro scopes ⟨u, hu, hl⟩
    exact ⟨u, mem_visibleTypes_values (hs.regular u) hu, hl⟩
  cases h with
  | listed scopes ts h ht =>
      obtain ⟨us, hus, hall⟩ := (types_yields scopes).gives ts h
      exact ⟨(loadTypes_answered _ _).gives ts h, hlive (exists_loaded hall hus ht)⟩
  | byId id scopes h =>
      obtain ⟨u, -, hu, hl⟩ := (typeById_yields id scopes).gives t h
      exact ⟨(typeById_answered id scopes).gives t h, hlive ⟨u, hu, hl⟩⟩
  | byName name scopes h =>
      obtain ⟨u, hu, -, hl⟩ := (typeByName_yields name scopes).gives t h
      exact ⟨(typeByName_answered name scopes).gives t h, u, List.ne_nil_of_mem hu, hl⟩
  | below id depth scopes ts h ht =>
      obtain ⟨hr, hall⟩ := (typeChildren_answered id depth scopes).gives ts h
      exact ⟨hr, hlive (hall t ht)⟩

theorem sourceOf_definition {w : Uid} (hr : s.refusals.query = none) (hs : Coherent s.graph)
    (h : Definition s.graph u t w m) : SourceOf s t w m := by
  obtain ⟨w', hw', hid, -⟩ := h.type.source
  obtain rfl : w = w' := by
    have hover := h.backed
    rwa [OrderedSet.mem_def, hw', List.mem_singleton] at hover
  have hreads := h.source.reads hs.declared
  refine ⟨hid, hreads, fun hw => perform_sourceById hr hw h.source.contains ?_ hreads⟩
  obtain ⟨hmark, scope, hscope, hin⟩ := (hs.regular u).backed w h.backed
  obtain ⟨ss, -, hss, hscopes⟩ := h.type.scopes
  refine Bool.and_eq_true_iff.2 ⟨decide_eq_true hmark, inScopes_iff.2 ⟨scope, ?_, hscope⟩⟩
  rw [hss] at hin
  rw [hscopes, ← OrderedSet.mem_def, OrderedSet.mem_ofList]
  simpa using hin

theorem readable_of_described (hs : Coherent s.graph) (hd : Described s.graph) : Readable s := by
  constructor
  · intro t ht
    obtain ⟨hr, u, hu, hl⟩ := ht.loaded hs
    obtain ⟨t', w, m, hdef⟩ := hd.types u hu
    obtain rfl := hl.reads.unique (hdef.type.reads hs)
    exact ⟨w, m, sourceOf_definition hr hs hdef, hdef.rules⟩
  · intro hr scopes
    obtain ⟨us, ts, h, hus, -, hts⟩ := perform_types hr hs hd scopes
    have hids : ts.map (·.id) = us.map Uid.text := by
      clear h hus
      induction hts with
      | nil => rfl
      | cons ht _ ih => rw [List.map_cons, List.map_cons, ht.id, ih]
    refine ⟨ts, h, ?_⟩
    rw [hids]
    exact hus.map _

/-- After any operations, all types in a scope are read back, and all that is read back is well formed over the columns
that its source has by then. -/
theorem readable_after (r : Repository) (refusals : Refusals) (cs : List Change) :
    Readable (after r (bootstrapped refusals) cs) :=
  readable_of_described (coherent_after (coherent_bootstrapped refusals) cs)
    (described_after (coherent_bootstrapped refusals) (described_bootstrapped refusals) cs)

/-- Racks below rows, with an attribute that is added later. -/
def rackBelowRow : List Change :=
  [.upsertSource ((MetadataSource.equipment "a" "s1").withColumns ["id"]),
    .upsertSource ((MetadataSource.equipment "b" "s1").withColumns ["id", "up"]),
    .createType ⟨0⟩ (((EquipmentType.new "row" "0x1").withScope "s1").withAttribute (.identifier "key" "id")),
    .createType ⟨0⟩ ((((EquipmentType.new "rack" "0x2").withScope "s1").withParent "0x3").withAttribute
      (.identifier "key" "id") |>.withAttribute (.parentIdentifier "row" "up")),
    .upsertSource ((MetadataSource.equipment "b" "s1").withColumns ["size"]),
    .updateType ⟨0⟩ "0x5" none [.new "u size" .int "size"] ["s1"]]

set_option maxRecDepth 100000 in
theorem readable_rackBelowRow : ∃ t w m, Given (after ⟨0, .standard⟩ (bootstrapped .none) rackBelowRow) t ∧
    t.id = "0x5" ∧ SourceOf (after ⟨0, .standard⟩ (bootstrapped .none) rackBelowRow) t w m ∧
      WellFormed m.columns t := by
  have hr : (after ⟨0, .standard⟩ (bootstrapped .none) rackBelowRow).refusals.query = none := by
    rw [refusals_after]
    rfl
  have hv : (after ⟨0, .standard⟩ (bootstrapped .none) rackBelowRow).graph.values ⟨5⟩ metaType = [.str "rack"] ∧
      (after ⟨0, .standard⟩ (bootstrapped .none) rackBelowRow).graph.values ⟨5⟩ scopes = [.str "s1"] := by
    decide +kernel
  have hvisible : ⟨5⟩ ∈ visibleTypes (after ⟨0, .standard⟩ (bootstrapped .none) rackBelowRow).graph ["s1"] :=
    visible_of_values (by simp [hv.1]) (inScopes_iff.2 ⟨"s1", by simp, by simp [hv.2]⟩)
  have hread := readable_after ⟨0, .standard⟩ .none rackBelowRow
  obtain ⟨ts, h, hids⟩ := hread.complete hr ["s1"]
  obtain ⟨t, ht, hid⟩ := List.mem_map.1 (hids.mem_iff.2 (List.mem_map_of_mem hvisible))
  have hgiven : Given (after ⟨0, .standard⟩ (bootstrapped .none) rackBelowRow) t :=
    .listed ["s1"] ts (congrArg Prod.fst h) ht
  obtain ⟨w, m, hsource, hrules⟩ := hread.wellFormed t hgiven
  exact ⟨t, w, m, hgiven, hid.trans (by decide +kernel), hsource, hrules⟩

end Inventory.TypeDefinitions
