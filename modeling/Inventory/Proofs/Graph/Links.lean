import Inventory.Proofs.Graph.Results

/-!
Blocks that follow edges from the entities of an identifier, and bind the nodes there to a variable.
-/

namespace Inventory.Graph

open Query Outcome Listing

variable {g : Graph} {vars vars' : Vars} {t : Traversal} {u v : Uid} {us : List Uid}
  {next : Uid → List Uid} {kind : Uid → Prop} {var other : String} {scopes : List String}

def onward (next : Uid → List Uid) (us : List Uid) : List Uid := (OrderedSet.ofList (us.flatMap next)).items

theorem mem_onward : v ∈ onward next us ↔ ∃ u ∈ us, v ∈ next u := by
  rw [onward, ← OrderedSet.mem_def, OrderedSet.mem_ofList, List.mem_flatMap]

theorem hop_all (vars : Vars) (e : Edge) (u : Uid) : hop g vars e none u = .ok (g.targets u e) := by
  have hp : ∀ v, passes g vars none v = .ok true := fun _ => rfl
  rw [hop, sift_eq_filter hp, List.filter_true]

theorem hop_scopes (vars : Vars) (e : Edge) (u : Uid) :
    hop g vars e (some (scopeFilter scopes)) u = .ok ((g.targets u e).filter (g.inScopes scopes)) :=
  sift_eq_filter (passes_scopes scopes)

theorem traverse_eq (hn : ∀ u, hop g vars t.edge t.filter u = .ok (next u)) :
    traverse g vars us t =
      traverseAll g (vars.extend? t.bind (onward next us)) (onward next us) t.children := by
  obtain ⟨edge, filter, bind, children⟩ := t
  rw [traverse, mapM_ok hn]
  rfl

/-- A block that binds the nodes of a kind to a variable, whatever the page. -/
structure Binds (g : Graph) (var : String) (kind : Uid → Prop) (b : Block) : Prop where
  name : b.name = none
  evaluates : ∀ vars : Vars, vars.bound var = [] → ∃ us vars', (∀ params, evalBlock g params vars b = .ok (us, vars')) ∧
    vars.Extends var vars' ∧ vars'.Collects var kind

/-- The entities of an identifier in some scopes. -/
def entities (g : Graph) (predicate id : String) (scopes : List String) : List Uid :=
  (g.uids.filter fun u => Comparison.valuesMatch (g.values u predicate) (.str id)).filter (g.inScopes scopes)

theorem mem_entities {predicate id : String} :
    u ∈ entities g predicate id scopes ↔ .str id ∈ g.values u predicate ∧ InScope g scopes u := by
  rw [entities, List.mem_filter, mem_uids_of_text, inScopes_iff]
  exact Iff.rfl

theorem binds_of_traverse {predicate id : String} {reached : List Uid}
    (ht : ∀ vars, traverse g vars (entities g predicate id scopes) t = .ok (vars.extend var reached))
    (hk : ∀ u, u ∈ reached ↔ kind u) :
    Binds g var kind
      (((Block.var (.eq predicate (.str id))).filtered (scopeFilter scopes)).traverse t) := by
  refine ⟨rfl, fun vars hempty => ⟨entities g predicate id scopes, vars.extend var reached, fun params => ?_,
    Vars.extends_extend vars var reached, Vars.defined_extend vars var reached, fun u => ?_⟩⟩
  · refine evalBlock_hops rfl (passes_scopes scopes) (cut_eq_self rfl rfl) rfl ?_
    change traverseAll g vars (entities g predicate id scopes) [t] = _
    rw [traverseAll, ht]
    rfl
  · rw [bound_extend, hempty, hk]
    simp

/-- The nodes linked from an entity in scope. -/
def LinkedFrom (g : Graph) (scopes : List String) (predicate id edge : String) (u : Uid) : Prop :=
  ∃ x, .str id ∈ g.values x predicate ∧ InScope g scopes x ∧ u ∈ g.edges x edge

theorem binds_linkedBlock (predicate id edge var : String) (scopes : List String) :
    Binds g var (LinkedFrom g scopes predicate id edge) (linkedBlock predicate id edge var scopes) := by
  apply binds_of_traverse
  · intro vars
    exact traverse_eq (t := ⟨⟨edge, false⟩, none, some var, []⟩) (hop_all vars _)
  · intro u
    rw [mem_onward]
    constructor
    · rintro ⟨x, hx, hu⟩
      obtain ⟨hv, hs⟩ := mem_entities.1 hx
      exact ⟨x, hv, hs, hu⟩
    · rintro ⟨x, hv, hs, hu⟩
      exact ⟨x, mem_entities.2 ⟨hv, hs⟩, hu⟩

/-- The nodes linked from an installation in scope of an application in scope. -/
def InstalledFor (g : Graph) (scopes : List String) (id : String) (u : Uid) : Prop :=
  ∃ y, LinkedFrom g scopes Vocabulary.applicationId id Vocabulary.applicationInstance y ∧ InScope g scopes y ∧
    u ∈ g.edges y Vocabulary.instanceEquipment

theorem binds_applicationBlock (id var : String) (scopes : List String) :
    Binds g var (InstalledFor g scopes id) (applicationBlock id var scopes) := by
  apply binds_of_traverse
  · intro vars
    rw [traverse_eq (hop_scopes vars _)]
    change (do
      let vars ← traverse g vars _ ⟨⟨Vocabulary.instanceEquipment, false⟩, none, some var, []⟩
      traverseAll g vars _ []) = _
    rw [traverse_eq (hop_all vars _)]
    rfl
  · intro u
    rw [mem_onward]
    constructor
    · rintro ⟨y, hy, hu⟩
      obtain ⟨x, hx, hy⟩ := mem_onward.1 hy
      obtain ⟨hv, hs⟩ := mem_entities.1 hx
      obtain ⟨hxy, hin⟩ := List.mem_filter.1 hy
      exact ⟨y, ⟨x, hv, hs, hxy⟩, inScopes_iff.1 hin, hu⟩
    · rintro ⟨y, ⟨x, hv, hs, hxy⟩, hin, hu⟩
      refine ⟨y, mem_onward.2 ⟨x, mem_entities.2 ⟨hv, hs⟩, ?_⟩, hu⟩
      exact List.mem_filter.2 ⟨hxy, inScopes_iff.2 hin⟩

/-- A block for an identifier that may be given: it binds its variable if it is there. -/
theorem evalBlocks_optional {kind : String → Uid → Prop} {block : String → Block}
    (hb : ∀ id, Binds g var (kind id) (block id)) (o : Option String) (hempty : vars.bound var = []) :
    ∃ vars', (∀ params answer bs, evalBlocks g params vars answer (o.toList.map block ++ bs) =
        evalBlocks g params vars' answer bs) ∧
      vars.Extends var vars' ∧ ∀ id ∈ o, vars'.Collects var (kind id) := by
  cases o with
  | none =>
      refine ⟨vars, fun params answer bs => rfl, .refl var vars, fun id hid => ?_⟩
      cases hid
  | some id =>
      obtain ⟨us, vars', he, hext, hc⟩ := (hb id).evaluates vars hempty
      refine ⟨vars', fun params answer bs => ?_, hext, fun id' hid => ?_⟩
      · change evalBlocks g params vars answer (block id :: bs) = _
        rw [evalBlocks_cons (he params), (hb id).name]
      · cases hid
        exact hc

end Inventory.Graph
