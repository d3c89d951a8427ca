import Inventory.Proofs.Repository.Alike
import Inventory.Proofs.Repository.TypeReads
import Inventory.Repository.Instances

/-!
The reads of instances look no further than the scopes they are asked with: stores that are alike in these scopes
answer them alike.
-/

namespace Inventory.Repository

open Inventory.Graph Query Listing Hierarchy Vocabulary

variable {s s' : Store} {scopes free : List String} {b : Block} {t : EquipmentType}

section Queries

/-- The variables of the instances that related entities are linked to, whatever the scopes of these are. -/
def linkVars : List String := ["ID_App", "ID_Pro", "ID_Ins"]

theorem guards_typeFilter (typeName : String) (scopes : List String) : Guards scopes (typeFilter typeName scopes) :=
  guards_eq_and _ _ (guards_scopeFilter scopes)

theorem apparent_projection (t : EquipmentType) (all : Bool) : ∀ s ∈ projection t all, Apparent scopes s := by
  refine List.forall_mem_cons.2 ⟨apparent_field _ _, fun s hs => ?_⟩
  obtain ⟨a, -, ha⟩ := List.mem_filterMap.1 hs
  simp only [attributeSelection?] at ha
  split at ha
  · cases ha
    exact apparent_field _ _
  · split at ha
    · split at ha
      · cases ha
        refine apparent_parent _ ?_
        simp
      · cases ha
    · split at ha
      · cases ha
        exact apparent_field _ _
      · cases ha

theorem confined_plain (he : Enters scopes free b.root b.filter) (hr : b.recursion = none) (ht : b.traversals = [])
    (hs : ∀ s ∈ b.selections, Apparent scopes s) : Confined scopes free b := by
  refine ⟨he, ?_, hs⟩
  rw [hr, ht]
  exact fun _ ht => by cases ht

theorem confined_rows {name block : String} {o : Option Filter} {ss : List Selection} (hname : name ∉ free)
    (hs : ∀ s ∈ ss, Apparent scopes s) :
    Confined scopes free (((Block.named block (.uid (uidVar name))).filtered o).select ss) :=
  confined_plain (.bound name o hname) rfl rfl (by simpa [Block.select, Block.filtered, Block.named, Block.start])

theorem confined_count {name block : String} {o : Option Filter} (hname : name ∉ free) :
    Confined scopes free (countOf ((Block.named block (.uid (uidVar name))).filtered o)) := by
  refine confined_rows hname fun s hs => ?_
  rw [List.mem_singleton.1 hs]
  exact apparent_count _

theorem confined_paged {name block : String} {o : Option Filter} (hname : name ∉ free) (t : EquipmentType)
    (spec : ListingSpec) :
    Confined scopes free (paged ((Block.named block (.uid (uidVar name))).filtered o) t spec) :=
  confined_plain (.bound name o hname) rfl rfl (apparent_projection t false)

theorem confined_reachedRows {name block : String} (hname : name ∉ free) :
    Confined scopes free (reachedRows block name) := by
  refine confined_plain (.bound name none hname) rfl rfl ?_
  simp [reachedRows, Block.select, Block.orderBy, Block.named, Block.start, apparent_field]

theorem confined_related (related : Related) (scopes : List String) :
    ∀ r ∈ relatedBlocks related scopes, Confined scopes linkVars r.2 := by
  have hlast : ∀ p, ∀ name ∈ linkVars, Shielded scopes linkVars ⟨⟨p, false⟩, none, some name, []⟩ :=
    fun p name hname => .last p name hname
  have hlinked : ∀ predicate id edge, ∀ name ∈ linkVars,
      Confined scopes linkVars (linkedBlock predicate id edge name scopes) := fun predicate id edge name hname =>
    ⟨.guarded _ _ (guards_scopeFilter scopes), List.forall_mem_singleton.2 (hlast edge name hname),
      fun _ hs => by cases hs⟩
  have happlication : ∀ id, ∀ name ∈ linkVars, Confined scopes linkVars (applicationBlock id name scopes) :=
    fun id name hname => ⟨.guarded _ _ (guards_scopeFilter scopes),
      List.forall_mem_singleton.2 (.hop _ _ _ _ (bounded_of_guards (fun h => by cases h) (guards_scopeFilter scopes))
        (List.forall_mem_singleton.2 (hlast _ name hname))), fun _ hs => by cases hs⟩
  intro r hr
  simp only [relatedBlocks, List.mem_append, List.mem_map] at hr
  rcases hr with (⟨id, -, rfl⟩ | ⟨id, -, rfl⟩) | ⟨id, -, rfl⟩
  · exact happlication id _ (by decide)
  · exact hlinked _ id _ _ (by decide)
  · exact hlinked _ id _ _ (by decide)

theorem confined_list (t : EquipmentType) (spec : ListingSpec) (scopes : List String) :
    ∀ b ∈ (Listing.list t spec scopes).query.blocks, Confined scopes linkVars b := by
  have hfree : candidatesVar ∉ linkVars := by decide
  obtain ⟨f, hf, hguards⟩ := guards_allOf (guards_scopeFilter scopes) (instanceFilter? t spec.filter).toList
  have hcandidates : Confined scopes linkVars (candidates t spec scopes) := by
    refine confined_plain ?_ rfl rfl fun _ hs => by cases hs
    have hfilter : (candidates t spec scopes).filter = some f := hf
    rw [hfilter]
    exact .guarded _ f hguards
  refine List.forall_mem_append.2 ⟨?_, List.forall_mem_cons.2 ⟨hcandidates, List.forall_mem_cons.2
    ⟨confined_count hfree, List.forall_mem_singleton.2 (confined_paged hfree t spec)⟩⟩⟩
  exact List.forall_mem_map.2 (confined_related spec.related scopes)

theorem confined_get (t : EquipmentType) (identifier : String) (scopes : List String) :
    ∀ b ∈ (Listing.get t identifier scopes).query.blocks, Confined scopes [] b :=
  List.forall_mem_singleton.2
    (confined_plain (.guarded _ _ (guards_typeFilter t.typeName scopes)) rfl rfl (apparent_projection t true))

theorem confined_blocks {root rows : Block} (hroot : Confined scopes [] root) (hrows : Confined scopes [] rows) :
    ∀ b ∈ Hierarchy.blocks root rows, Confined scopes [] b := by
  have hcounted : ∀ block var, Confined scopes [] (counted block var) := fun _ _ =>
    confined_count (o := none) List.not_mem_nil
  simp only [Hierarchy.blocks, List.forall_mem_cons, List.not_mem_nil, false_implies, implies_true, and_true]
  exact ⟨hroot, hcounted _ _, hcounted _ _, hrows⟩

theorem edge_reverse (direction : Direction) :
    (direction.edge parent).reverse = true → (direction.edge parent).predicate = parent := fun _ => rfl

theorem confined_parents (t above : EquipmentType) (anchor : Uid) (scopes : List String) :
    ∀ b ∈ (Hierarchy.parents t above anchor scopes).query.blocks, Confined scopes [] b := by
  refine confined_blocks ⟨.guarded _ _ (guards_typeFilter t.typeName scopes), ?_, fun _ hs => by cases hs⟩
    (confined_plain (.bound _ _ List.not_mem_nil) rfl rfl (apparent_projection above false))
  exact List.forall_mem_singleton.2 (.hop _ _ _ _ (bounded_of_guards (edge_reverse _)
    (guards_typeFilter above.typeName scopes)) fun _ ht => by cases ht)

theorem confined_children (t below : EquipmentType) (anchor : Uid) (spec : ListingSpec) (scopes : List String) :
    ∀ b ∈ (Hierarchy.children t below anchor spec scopes).query.blocks, Confined scopes [] b := by
  refine confined_blocks ⟨.guarded _ _ (guards_typeFilter t.typeName scopes), ?_, fun _ hs => by cases hs⟩
    (confined_paged (o := none) List.not_mem_nil below spec)
  refine List.forall_mem_singleton.2 (.hop _ _ _ _ (bounded_below fun g vars u hu => ?_) fun _ ht => by cases ht)
  rw [holds] at hu
  obtain ⟨c, -, hu⟩ := Outcome.bind_ok_iff.1 hu
  cases c with
  | false => cases hu
  | true => rwa [if_pos rfl, holdsAll_singleton (holds_scopeFilter scopes), Except.ok.injEq] at hu

theorem confined_traversal (anchor : Uid) (direction : Direction) (depth : Nat) (scopes : List String) :
    ∀ b ∈ (Hierarchy.traversal anchor direction depth scopes).query.blocks, Confined scopes [] b := by
  refine confined_blocks ⟨.guarded _ _ (guards_eq_and _ _ (guards_scopeFilter scopes)), ?_, fun _ hs => by cases hs⟩
    (confined_reachedRows List.not_mem_nil)
  exact List.forall_mem_singleton.2 (bounded_of_guards (edge_reverse direction) (guards_scopeFilter scopes))

theorem shielded_levelHops (direction : Direction) (scopes : List String) (i : Nat) (levels : List String) :
    ∀ t ∈ levelHops direction scopes i levels, Shielded scopes [] t := by
  induction levels generalizing i with
  | nil => exact fun _ ht => by cases ht
  | cons level levels ih =>
      exact List.forall_mem_singleton.2
        (.hop _ _ _ _ (bounded_of_guards (edge_reverse direction) (guards_typeFilter level scopes)) (ih (i + 1)))

theorem confined_topology (t : Topology) (anchor : Uid) (scopes : List String) :
    ∀ b ∈ (Hierarchy.topology t anchor scopes).blocks, Confined scopes [] b := by
  refine List.forall_mem_cons.2 ⟨⟨.guarded _ _ (guards_typeFilter t.anchorType scopes),
    shielded_levelHops t.direction scopes 1 t.levels.tail, fun _ hs => by cases hs⟩, List.forall_mem_cons.2
      ⟨confined_count (o := none) List.not_mem_nil, List.forall_mem_map.2 fun i _ => ?_⟩⟩
  exact confined_reachedRows List.not_mem_nil

end Queries

section Operations

variable {α β : Type} {x : Op α} {f : α → Op β}

/-- An operation that gives in one store what it gives in another. -/
def Repeats (x : Op α) (s s' : Store) : Prop := (perform x s').1 = (perform x s).1

theorem Repeats.bind (hx : Repeats x s s') (hs : (perform x s).2 = s) (hs' : (perform x s').2 = s')
    (hf : ∀ a, Repeats (f a) s s') : Repeats (x >>= f) s s' := by
  unfold Repeats at hx ⊢
  rw [perform_bind, perform_bind]
  rcases hp : perform x s with ⟨r, s₁⟩
  rcases hp' : perform x s' with ⟨r', s₁'⟩
  rw [hp, hp'] at hx
  rw [hp] at hs
  rw [hp'] at hs'
  obtain rfl : r' = r := hx
  obtain rfl : s₁ = s := hs
  obtain rfl : s₁' = s' := hs'
  cases r' with
  | error e => rfl
  | ok a => exact hf a

/-- The reads of instances that give the same in two stores, when asked with some scopes. -/
structure SameReads (scopes : List String) (s s' : Store) : Prop where
  list : ∀ t spec, Repeats (listInstances t spec scopes) s s'
  get : ∀ t identifier, Repeats (getInstance t identifier scopes) s s'
  parents : ∀ t above anchor, Repeats (instanceParents t above anchor scopes) s s'
  children : ∀ t below anchor spec, Repeats (instanceChildren t below anchor spec scopes) s s'
  hierarchy : ∀ anchor direction depth, Repeats (instanceHierarchy anchor direction depth scopes) s s'
  topology : ∀ t anchor, Repeats (instanceTopology t anchor scopes) s s'

variable (h : AlikeIn scopes s.graph s'.graph) (hr : s'.refusals = s.refusals)

include h hr

theorem repeats_read {q : Query} (operation : String) (params : Bindings)
    (hq : ∀ b ∈ q.blocks, Confined scopes free b) (k : Answer → Except Failure α) :
    Repeats (read operation q params >>= fun a => reading (k a)) s s' := by
  have hread : Repeats (read operation q params) s s' := by
    have he : evaluate s'.graph q params = evaluate s.graph q params := evaluate_confined h hq
    unfold Repeats
    cases hquery : s.refusals.query with
    | some e => rw [perform_read_refused hquery, perform_read_refused (hr ▸ hquery)]
    | none =>
        cases hx : s.graph.evaluate q params with
        | error e => rw [perform_read_error hquery hx, perform_read_error (hr ▸ hquery) (he.trans hx)]
        | ok a => rw [perform_read hquery hx, perform_read (hr ▸ hquery) (he.trans hx)]
  refine hread.bind (Yields.read _ _ _).same (Yields.read _ _ _).same fun a => ?_
  cases k a <;> rfl

theorem repeats_depthOr (hs : Coherent s.graph) (hs' : Coherent s'.graph) (hd : Described s.graph)
    (hd' : Described s'.graph) (depth : Option Nat) : Repeats (depthOr scopes depth) s s' := by
  cases depth with
  | some d => rfl
  | none =>
      have hvisible : visibleTypes s'.graph scopes = visibleTypes s.graph scopes := by
        have hfilter : (s'.graph.uids.filter (s'.graph.has · metaType)).filter (s.graph.inScopes scopes) =
            (s.graph.uids.filter (s.graph.has · metaType)).filter (s.graph.inScopes scopes) :=
          h.filter_uids fun u hu => (h.same u hu).has metaType
        rw [visibleTypes_eq, visibleTypes_eq, ← hfilter]
        exact List.filter_congr fun u _ => h.placed u
      cases hq : s.refusals.query with
      | some e =>
          have hfails : ∀ k : Store, k.refusals.query = some e →
              (perform (depthOr scopes none) k).1 = .error (Failure.ofStore "equipment_types" e) := by
            intro k hk
            rw [depthOr, types, loadTypes, map_eq_pure_bind, perform_bind, perform_bind, perform_read_refused hk]
          exact (hfails s' (hr ▸ hq)).trans (hfails s hq).symm
      | none =>
          obtain ⟨us, ts, hp, hus, -, hts⟩ := perform_types hq hs hd scopes
          obtain ⟨us', ts', hp', hus', -, hts'⟩ := perform_types (hr ▸ hq) hs' hd' scopes
          have hlen : ts'.length = ts.length := by
            rw [← hts'.length_eq, ← hts.length_eq, hus'.length_eq, hus.length_eq, hvisible]
          unfold Repeats
          rw [depthOr, map_eq_pure_bind, perform_bind, perform_bind, hp, hp']
          simp only [perform_pure, hlen]

/-- Stores that are alike in some scopes, and whose types are stored in full, answer the reads of instances alike. -/
theorem sameReads_of_alike (hs : Coherent s.graph) (hs' : Coherent s'.graph) (hd : Described s.graph)
    (hd' : Described s'.graph) : SameReads scopes s s' where
  list t spec := repeats_read h hr _ _ (confined_list t spec scopes) _
  get t identifier := repeats_read h hr _ _ (confined_get t identifier scopes) _
  parents t above anchor := repeats_read h hr _ _ (confined_parents t above anchor scopes) _
  children t below anchor spec := repeats_read h hr _ _ (confined_children t below anchor spec scopes) _
  hierarchy anchor direction depth := by
    have hsame : ∀ k, (perform (depthOr scopes depth) k).2 = k := by
      intro k
      cases depth with
      | some d => rfl
      | none => exact ((types_yields (s := k) scopes).map (Q := fun _ => True) fun _ _ => trivial).same
    exact (repeats_depthOr h hr hs hs' hd hd' depth).bind (hsame s) (hsame s') fun d =>
      repeats_read h hr _ _ (confined_traversal anchor direction d scopes) _
  topology t anchor := repeats_read h hr _ _ (confined_topology t anchor scopes) _

end Operations

end Inventory.Repository
