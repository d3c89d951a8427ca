import Inventory.Proofs.Repository.Definitions
import Inventory.Proofs.Repository.TypeReads

/-!
Types that are written and read again. A definition is taken apart into a node for the type and one for each attribute,
and is read back as it was given; an update is read back as the type there was with what has been added. No other type
reads any differently after it.
-/

namespace Inventory.TypeRoundTrip

open Repository Inventory.Graph Hierarchy Vocabulary Admission

variable {r : Repository} {s s' : Store} {g g' : Graph} {t : EquipmentType} {u : Uid} {vs : List Uid}
  {scopes : List String} {id : String}

/-- All types but one are read by their ids as they were, or found to be missing as they were. -/
def OthersKept (s s' : Store) (u : Uid) : Prop :=
  ∀ id scopes, Uid.parse? id ≠ some u → (perform (typeById id scopes) s').1 = (perform (typeById id scopes) s).1

/-- A definition that has been written: it differs from the one submitted in ids and names of other nodes only, and is
read back from any of its scopes. Uids are numbers of 64 bits. -/
structure Created (s s' : Store) (submitted t : EquipmentType) (u : Uid) : Prop where
  id : t.id = u.text
  new : ¬s.graph.contains u = true
  same : t = { submitted with
    id := t.id, sourceName := t.sourceName, parentTypeName := t.parentTypeName, attributes := t.attributes }
  attributes : bare t.attributes = bare submitted.attributes
  ids : (t.attributes.map (·.id)).Nodup
  read : s'.graph.lastUid < 1 <<< 64 → ∀ scopes, (∃ x ∈ scopes, x ∈ t.scopes) →
    (perform (typeById t.id scopes) s').1 = .ok (canonical t)
  others : OthersKept s s' u

/-- A type that has been updated: it is the type there was with the attributes given behind its own, with the scopes
given, and below the parent asked for, and is read back as that from any of its scopes. -/
structure Updated (s s' : Store) (id : String) (parent : Option String) (as : List Attribute) (given : List String)
    (old t : EquipmentType) (u : Uid) : Prop where
  uid : Uid.parse? id = some u
  found : (perform (typeById id given) s).1 = .ok old
  same : t = { old with
    parentId := t.parentId, parentTypeName := t.parentTypeName, scopes := t.scopes, attributes := t.attributes }
  parentId : t.parentId = (parent.filter (· ≠ "")).or old.parentId
  parentName : parent.filter (· ≠ "") = none → t.parentTypeName = old.parentTypeName
  scopes : ∀ x, x ∈ t.scopes ↔ x ∈ given ∨ x ∈ old.scopes
  attributes : ∃ added, t.attributes = old.attributes ++ added ∧ bare added = bare as
  ids : (t.attributes.map (·.id)).Nodup
  read : ∀ scopes, (∃ x ∈ scopes, x ∈ t.scopes) → (perform (typeById id scopes) s').1 = .ok t
  others : OthersKept s s' u

structure RoundTrip (r : Repository) (s : Store) : Prop where
  created : ∀ k submitted t, (perform (r.createType k submitted) s).1 = .ok t →
    ∃ u, Created s (perform (r.createType k submitted) s).2 submitted t u
  updated : ∀ k id parent as scopes t, (perform (r.updateType k id parent as scopes) s).1 = .ok t →
    ∃ old u, Updated s (perform (r.updateType k id parent as scopes) s).2 id parent as scopes old t u

theorem visible_of_storedType (h : StoredType g u t) (hx : ∃ x ∈ scopes, x ∈ t.scopes) : u ∈ visibleTypes g scopes := by
  obtain ⟨x, hx, hxt⟩ := hx
  obtain ⟨ss, -, hss, hscopes⟩ := h.scopes
  rw [hscopes, OrderedSet.mem_ofList] at hxt
  refine visible_of_values h.live (inScopes_iff.2 ⟨x, hx, ?_⟩)
  rw [hss]
  exact List.mem_map_of_mem hxt

theorem ids_of_storedType (h : StoredType g u t) : (t.attributes.map (·.id)).Nodup := by
  have hids : ∀ {vs : List Uid} {as : List Attribute}, List.Forall₂ (StoredAttribute g) vs as →
      as.map (·.id) = vs.map Uid.text := by
    intro vs as hall
    induction hall with
    | nil => rfl
    | cons ha _ ih => rw [List.map_cons, List.map_cons, ha.id, ih]
  rw [hids h.attributes]
  refine List.Pairwise.map Uid.text (fun v w hlt he => ?_) (g.edges u metaAttribute).increasing
  exact Std.lt_irrefl (Uid.text_injective he ▸ hlt)

theorem othersKept (hr : s.refusals.query = none) (hr' : s'.refusals.query = none) (hs : Coherent s.graph)
    (hs' : Coherent s'.graph) (hd : Described s.graph) (hb : Beside s.graph s'.graph u) : OthersKept s s' u := by
  intro id scopes hne
  by_cases hv : ∃ v, Uid.parse? id = some v ∧ v ∈ visibleTypes s.graph scopes
  · obtain ⟨v, hv, hvis⟩ := hv
    have hvu : v ≠ u := fun he => hne (he ▸ hv)
    obtain ⟨t, w, m, hdef⟩ := hd.types v (mem_visibleTypes_values (hs.regular v) hvis)
    rw [perform_typeById hr hs hv hvis hdef.type,
      perform_typeById hr' hs' hv ((hb.visible_iff hs hs' hvu).2 hvis) (hb.storedType hs hvu hdef.type)]
  · have hnone : ∀ v, Uid.parse? id = some v → v ∉ visibleTypes s.graph scopes := fun v hp hvis => hv ⟨v, hp, hvis⟩
    have hnone' : ∀ v, Uid.parse? id = some v → v ∉ visibleTypes s'.graph scopes := by
      intro v hp hvis
      have hvu : v ≠ u := fun he => hne (he ▸ hp)
      exact hnone v hp ((hb.visible_iff hs hs' hvu).1 hvis)
    rw [perform_typeById_none hr hnone, perform_typeById_none hr' hnone']

theorem createType_answered {k : Guard} {submitted : EquipmentType}
    (h : perform (r.createType k submitted) s = (.ok t, s')) : s.refusals.query = none := by
  unfold createType at h
  rcases (Yields.verify r k _).step h with ⟨-, e, he⟩ | ⟨⟨⟩, -, -, h⟩
  · cases he
  · rcases (sourceById_answered _ _).step h with ⟨-, e, he⟩ | ⟨m, hr, -, -⟩
    · cases he
    · exact hr

theorem updateType_answered {k : Guard} {parent : Option String} {as : List Attribute}
    (h : perform (r.updateType k id parent as scopes) s = (.ok t, s')) : s.refusals.query = none := by
  unfold updateType at h
  rcases (Yields.verify r k _).step h with ⟨-, e, he⟩ | ⟨⟨⟩, -, -, h⟩
  · cases he
  · rcases (typeById_answered _ _).step h with ⟨-, e, he⟩ | ⟨m, hr, -, -⟩
    · cases he
    · exact hr

theorem created_of_ok {k : Guard} {submitted : EquipmentType} (hs : Coherent s.graph) (hd : Described s.graph)
    (h : perform (r.createType k submitted) s = (.ok t, s')) : ∃ u, Created s s' submitted t u := by
  have hr := createType_answered h
  have hstep : (Change.createType k submitted).run r s = s' := congrArg Prod.snd h
  have hr' : s'.refusals.query = none := by rw [← hstep, refusals_change, hr]
  have hs' : Coherent s'.graph := hstep ▸ ((Change.createType k submitted).step r hs).2
  rcases createType_written hs h with ⟨-, e, he⟩ | ⟨m, all, w, parent, u, vs, hc, hw, hres⟩
  · cases he
  cases hres
  have hb := hw.beside hs.intact
  have hdef := hw.definition hs hd hc
  have hids := ids_of_storedType hdef.type
  refine ⟨u, rfl, hw.new hs.intact List.mem_cons_self, rfl, bare_withIds hw.stored.length_eq, hids,
    fun hfit S hS => ?_, othersKept hr hr' hs hs' hd hb⟩
  have hu : Uid.parse? u.text = some u := by
    have hle := hs'.intact.fresh u (contains_of_values hdef.type.live)
    rw [Uid.parse?_text, if_pos]
    exact Bits.isUnsigned_64_iff.2 (by omega)
  rw [perform_typeById hr' hs' hu (visible_of_storedType hdef.type hS) hdef.type]

theorem updated_of_ok {k : Guard} {parent : Option String} {as : List Attribute} (hs : Coherent s.graph)
    (hd : Described s.graph) (h : perform (r.updateType k id parent as scopes) s = (.ok t, s')) :
    ∃ old u, Updated s s' id parent as scopes old t u := by
  have hr := updateType_answered h
  have hstep : (Change.updateType k id parent as scopes).run r s = s' := congrArg Prod.snd h
  have hr' : s'.refusals.query = none := by rw [← hstep, refusals_change, hr]
  have hs' : Coherent s'.graph := hstep ▸ ((Change.updateType k id parent as scopes).step r hs).2
  rcases updateType_written hs h with ⟨-, e, he⟩ | ⟨u, old, m, p, vs, hc, hw, hres⟩
  · cases he
  have hlive := mem_visibleTypes_values (hs.regular u) hc.visible
  have hb := hw.beside hs.intact hlive
  obtain ⟨hold, w, hdef⟩ := hw.definition hs hd hc
  obtain ⟨u', hu', -, hl⟩ := (typeById_yields u.text scopes).gives t hres.symm
  obtain rfl := Uid.eq_of_parse?_text hu'
  obtain rfl := hl.reads.unique (hdef.type.reads hs')
  have hold' := perform_typeById hr hs hc.uid hc.visible hold
  have hids := ids_of_storedType hdef.type
  refine ⟨old, u', hc.uid, by rw [hold'], rfl, rfl, fun hnone => ?_, fun x => ?_,
    ⟨withIds as vs, rfl, bare_withIds hw.stored.length_eq⟩, hids, fun S hS => ?_, othersKept hr hr' hs hs' hd hb⟩
  · have hp : p = none := by
      have hsome := hc.parent.2
      rw [changeOf, hnone] at hsome
      cases p with
      | none => rfl
      | some _ => cases hsome
    rw [hp]
    rfl
  · simp [extend]
  · rw [perform_typeById hr' hs' hc.uid (visible_of_storedType hdef.type hS) hdef.type]

theorem roundTrip_after (r : Repository) (refusals : Refusals) (cs : List Change) :
    RoundTrip r (after r (bootstrapped refusals) cs) := by
  have hs := coherent_after (r := r) (coherent_bootstrapped refusals) cs
  have hd := described_after (r := r) (coherent_bootstrapped refusals) (described_bootstrapped refusals) cs
  exact ⟨fun k submitted t h => created_of_ok hs hd (Prod.ext h rfl),
    fun k id parent as scopes t h => updated_of_ok hs hd (Prod.ext h rfl)⟩

section Rack

/-- A type over the source, whose id is spelled in another way than it is stored. -/
def rack : EquipmentType :=
  (((EquipmentType.new "rack" "0x01").withScope "s1").withScope "s2").withAttribute (.identifier "key" "id")

def sourced : List Change := [.upsertSource ((MetadataSource.equipment "a" "s1").withColumns ["id", "size"])]

def made : List Change := sourced ++ [.createType ⟨0⟩ rack]

def extended : List Change := made ++ [.updateType ⟨0⟩ "0x2" none [.new "u size" .int "size"] ["s2", "s3"]]

theorem exists_of_isOk {ε α : Type} {x : Except ε α} (h : x.isOk = true) : ∃ a, x = .ok a := by
  cases x with
  | error e => cases h
  | ok a => exact ⟨a, rfl⟩

set_option maxRecDepth 100000 in
/-- It is read back from its second scope, then extended, and read back from a third. -/
theorem roundTrip_rack : ∃ t u old t' u', Created (after ⟨0, .standard⟩ (bootstrapped .none) sourced)
    (after ⟨0, .standard⟩ (bootstrapped .none) made) rack t u ∧
      (perform (typeById t.id ["s2"]) (after ⟨0, .standard⟩ (bootstrapped .none) made)).1 = .ok (canonical t) ∧
        Updated (after ⟨0, .standard⟩ (bootstrapped .none) made) (after ⟨0, .standard⟩ (bootstrapped .none) extended)
          "0x2" none [.new "u size" .int "size"] ["s2", "s3"] old t' u' ∧
            (perform (typeById "0x2" ["s3"]) (after ⟨0, .standard⟩ (bootstrapped .none) extended)).1 = .ok t' := by
  obtain ⟨hcreated, hupdated, hfit⟩ : (perform ((⟨0, .standard⟩ : Repository).createType ⟨0⟩ rack)
      (after ⟨0, .standard⟩ (bootstrapped .none) sourced)).1.isOk = true ∧
    (perform ((⟨0, .standard⟩ : Repository).updateType ⟨0⟩ "0x2" none [.new "u size" .int "size"] ["s2", "s3"])
      (after ⟨0, .standard⟩ (bootstrapped .none) made)).1.isOk = true ∧
    (after ⟨0, .standard⟩ (bootstrapped .none) made).graph.lastUid < 1 <<< 64 := by
    decide +kernel
  obtain ⟨t, ht⟩ := exists_of_isOk hcreated
  obtain ⟨t', ht'⟩ := exists_of_isOk hupdated
  obtain ⟨u, hc⟩ := (roundTrip_after ⟨0, .standard⟩ .none sourced).created ⟨0⟩ rack t ht
  obtain ⟨old, u', hu⟩ := (roundTrip_after ⟨0, .standard⟩ .none made).updated ⟨0⟩ "0x2" none _ _ t' ht'
  have hmade : Created (after ⟨0, .standard⟩ (bootstrapped .none) sourced)
      (after ⟨0, .standard⟩ (bootstrapped .none) made) rack t u := by
    rw [made, after_concat]
    exact hc
  have hextended : Updated (after ⟨0, .standard⟩ (bootstrapped .none) made)
      (after ⟨0, .standard⟩ (bootstrapped .none) extended) "0x2" none [.new "u size" .int "size"] ["s2", "s3"]
        old t' u' := by
    rw [extended, after_concat]
    exact hu
  have hsame := congrArg EquipmentType.scopes hmade.same
  have hscopes : t.scopes = rack.scopes := hsame
  refine ⟨t, u, old, t', u', hmade, hmade.read hfit ["s2"] ⟨"s2", by simp, ?_⟩, hextended,
    hextended.read ["s3"] ⟨"s3", by simp, ?_⟩⟩
  · rw [hscopes]
    decide +kernel
  · rw [hextended.scopes]
    exact .inl (by simp)

end Rack

end Inventory.TypeRoundTrip
