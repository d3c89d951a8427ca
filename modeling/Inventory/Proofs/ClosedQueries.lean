import Inventory.Proofs.Graph.ClosedRequests
import Inventory.Proofs.InstanceListing
import Inventory.Proofs.InstanceUpserts
import Inventory.Proofs.TopologyLevels

/-!
The queries of reads and the request that writes a record are closed, so that none of them fails on any graph.
-/

namespace Inventory.ClosedQueries

open Query Listing Hierarchy Store Text Repository

variable {names : List String} {params : Bindings} {t : EquipmentType} {s : ListingSpec} {f : SearchFilter}
  {scopes : List String} {r : Record}

/-- The texts to begin with, among searches, have patterns that are accepted. -/
def Accepted (f : SearchFilter) : Prop :=
  ∀ q ∈ f.searches, q.comparison = .regex → ∀ a text, Offers q a (.string text) →
    (Pattern.compile? true (startingWith text).toList).isSome = true

/-- A page whose numbers have 64 bits. -/
structure Sized (s : ListingSpec) : Prop where
  offset : s.offset < 1 <<< 64
  pageSize : s.pageSize < 1 <<< 64

/-- The queries of reads that a page may be asked of. -/
inductive Compiled (s : ListingSpec) : Listing.Request → Prop
  | list (t : EquipmentType) (scopes : List String) : Compiled s (list t s scopes)
  | get (t : EquipmentType) (identifier : String) (scopes : List String) : Compiled s (get t identifier scopes)
  | instanceCount (typeName : String) (scopes : List String) : Compiled s ⟨instanceCount typeName scopes, .empty⟩
  | parents (t parentType : EquipmentType) (anchor : Uid) (scopes : List String) :
      Compiled s (parents t parentType anchor scopes)
  | children (t childType : EquipmentType) (anchor : Uid) (scopes : List String) :
      Compiled s (children t childType anchor s scopes)
  | traversal (anchor : Uid) (direction : Direction) (depth : Nat) (scopes : List String) :
      Compiled s (traversal anchor direction depth scopes)
  | typeTraversal (anchor : Uid) (direction : Direction) (depth : Nat) (scopes : List String) :
      Compiled s (typeTraversal anchor direction depth scopes)
  | topology (t : Topology) (anchor : Uid) (scopes : List String) : Compiled s ⟨topology t anchor scopes, .empty⟩

section Filters

theorem closed_allOf {fs : List Filter} (h : ∀ f ∈ fs, f.Closed names) : ∀ f ∈ Filter.allOf fs, f.Closed names := by
  intro f hf
  match fs with
  | [] => cases hf
  | [_] =>
      cases hf
      exact h f List.mem_cons_self
  | _ :: _ :: _ =>
      cases hf
      exact .and h

theorem closed_anyOf {fs : List Filter} (h : ∀ f ∈ fs, f.Closed names) : ∀ f ∈ Filter.anyOf fs, f.Closed names := by
  intro f hf
  match fs with
  | [] => cases hf
  | [_] =>
      cases hf
      exact h f List.mem_cons_self
  | _ :: _ :: _ =>
      cases hf
      exact .or h

theorem closed_and_pair {f f' : Filter} (h : f.Closed names) (h' : f'.Closed names) :
    (Filter.and [f, f']).Closed names := by
  refine .and fun f'' hf => ?_
  rcases List.mem_cons.1 hf with rfl | hf
  · exact h
  · rwa [List.mem_singleton.1 hf]

theorem closed_scopeFilter (scopes : List String) : (scopeFilter scopes).Closed names := .eq

theorem closed_typeFilter (typeName : String) (scopes : List String) : (typeFilter typeName scopes).Closed names :=
  closed_and_pair .eq (closed_scopeFilter scopes)

theorem closed_alternative (path : Listing.Path) {predicate : String} {d : DataType} {c : Comparison} {v : FieldValue}
    (hd : v.dataType = d)
    (h : c = .regex → ∀ text, v = .string text → (Pattern.compile? true (startingWith text).toList).isSome = true) :
    (alternative path predicate d c v).Closed names := by
  cases v with
  | string text =>
      obtain rfl : .string = d := hd
      cases c with
      | eq => exact .eq
      | regex => exact .regex (h rfl text rfl)
  | int _ | float _ =>
      subst hd
      cases path with
      | listed => exact .eq
      | related => exact .ge

theorem closed_attributeFilter (hf : Accepted f) (path : Listing.Path) (t : EquipmentType) :
    ∀ part ∈ attributeFilter? path t f, part.Closed names := by
  refine closed_allOf fun part hpart => ?_
  obtain ⟨q, hq, hpart⟩ := List.mem_filterMap.1 hpart
  obtain ⟨a, -, hpart⟩ := Option.bind_eq_some_iff.1 hpart
  refine closed_anyOf (fun choice hchoice => ?_) part hpart
  obtain ⟨raw, hraw, hchoice⟩ := List.mem_filterMap.1 hchoice
  obtain ⟨v, hv, rfl⟩ := Option.map_eq_some_iff.1 hchoice
  cases hc : FieldValue.convert a.dataType raw with
  | error e =>
      rw [hc] at hv
      cases hv
  | ok w =>
      rw [hc] at hv
      cases hv
      refine closed_alternative path (Conversions.dataType_of_convert hc) fun hregex text htext => ?_
      refine hf q ((List.mergeSort_perm _ _).subset hq) hregex a text ⟨raw, hraw, ?_⟩
      rw [hc, htext]

theorem closed_relationshipFilter (hf : Accepted f) (t : EquipmentType) :
    (relationshipFilter t f).Closed names := by
  unfold relationshipFilter
  have hparts : ∀ part ∈ attributeFilter? .related t f, part.Closed names := closed_attributeFilter hf .related t
  split
  · rename_i attributes hattributes
    exact closed_and_pair .eq (hparts attributes hattributes)
  · exact .eq

theorem closed_uidVar {name : String} (h : name ∈ names) : ∀ r ∈ uidVar name, r.Closed names := by
  intro r hr
  rw [List.mem_singleton.1 hr]
  exact h

end Filters

section Blocks

theorem closed_named {var : String} (hv : var ∈ names) (name : Option String) :
    (Block.start name (.uid (uidVar var))).Closed params names :=
  Block.closed_start name (closed_uidVar hv)

theorem closed_counted {block var : String} (hv : var ∈ names) : (counted block var).Closed params names :=
  (closed_named hv _).select _

theorem closed_reachedRows {block var : String} (hv : var ∈ names) : (reachedRows block var).Closed params names :=
  ((closed_named hv _).orderBy _ _).select _

theorem closed_paged (hs : Sized s) {b : Block} (hb : b.Closed (pageVars s) names) (t : EquipmentType) :
    (paged b t s).Closed (pageVars s) names := by
  refine ⟨hb.root, hb.filter, fun a ha => ?_, fun a ha => ?_, hb.traversals⟩
  · cases ha
    refine ⟨_, s.offset, ?_, Numeral.readUnsigned?_decimal hs.offset⟩
    simp [pageVars, Table.ofList, offsetVar, pageSizeVar]
  · cases ha
    refine ⟨_, s.pageSize, ?_, Numeral.readUnsigned?_decimal hs.pageSize⟩
    simp [pageVars, Table.ofList, pageSizeVar]

theorem closed_hop (edge : Edge) {o : Option Filter} (ho : ∀ f ∈ o, f.Closed names) (bind : Option String) :
    Traversal.Closed names ⟨edge, o, bind, []⟩ :=
  .mk ho fun _ h => absurd h List.not_mem_nil

theorem closed_linkedBlock (predicate id edge var : String) (scopes : List String) :
    (linkedBlock predicate id edge var scopes).Closed params names := by
  refine ((Block.closed_start _ ?_).filtered ?_).traverse (closed_hop _ ?_ _)
  all_goals simp [Root.refs, closed_scopeFilter]

theorem closed_applicationBlock (id var : String) (scopes : List String) :
    (applicationBlock id var scopes).Closed params names := by
  refine ((Block.closed_start _ ?_).filtered ?_).traverse (.mk ?_ fun t ht => ?_)
  case refine_4 =>
    rw [List.mem_singleton.1 ht]
    exact closed_hop _ (by simp) _
  all_goals simp [Root.refs, closed_scopeFilter]

theorem closed_relatedBlocks (related : Related) (scopes : List String) :
    ∀ b ∈ (relatedBlocks related scopes).map (·.2), b.Closed params names := by
  intro b hb
  obtain ⟨r, hr, rfl⟩ := List.mem_map.1 hb
  simp only [relatedBlocks, List.mem_append, List.mem_map, Option.mem_toList] at hr
  rcases hr with (⟨id, -, rfl⟩ | ⟨id, -, rfl⟩) | ⟨id, -, rfl⟩
  · exact closed_applicationBlock _ _ _
  · exact closed_linkedBlock _ _ _ _ _
  · exact closed_linkedBlock _ _ _ _ _

theorem binds_relatedBlocks (related : Related) (scopes : List String) :
    ((relatedBlocks related scopes).map (·.2)).flatMap Block.binds = (relatedBlocks related scopes).map (·.1) := by
  obtain ⟨product, application, installation⟩ := related
  cases product <;> cases application <;> cases installation <;> rfl

theorem closed_candidates (hf : Accepted s.filter) (t : EquipmentType) (scopes : List String) :
    (candidates t s scopes).Closed params names := by
  refine ((Block.closed_start _ ?_).bindAs _).filtered (closed_allOf ?_)
  · simp [Root.refs]
  · intro f hmem
    rcases List.mem_cons.1 hmem with rfl | hmem
    · exact closed_scopeFilter scopes
    · exact closed_attributeFilter hf .listed t f (Option.mem_toList.1 hmem)

theorem closed_anchored (anchor : Uid) {filter : Filter} {hop : Traversal} (hf : filter.Closed names)
    (ht : hop.Closed names) : (anchored anchor filter hop).Closed params names := by
  refine (((Block.closed_start _ ?_).bindAs _).filtered ?_).traverse ht
  · simp [Root.refs, NodeRef.Closed]
  · rintro _ ⟨⟩
    exact hf

theorem closed_hopTo (direction : Direction) (predicate : String) {filter : Filter} (hf : filter.Closed names) :
    (hopTo direction predicate filter).Closed names := by
  refine closed_hop _ ?_ _
  rintro _ ⟨⟩
  exact hf

end Blocks

section Queries

theorem closed_list (hs : Sized s) (hf : Accepted s.filter) (t : EquipmentType) (scopes : List String) :
    (list t s scopes).query.Closed (list t s scopes).vars := by
  have hresult : ∀ name, ((Block.named name (.uid (uidVar candidatesVar))).filtered
      (Filter.allOf ((relatedBlocks s.related scopes).map fun r => .uid (uidVar r.1)))).Closed (pageVars s)
        ((relatedBlocks s.related scopes).map (·.1) ++ [candidatesVar]) := by
    intro name
    refine (closed_named (by simp) _).filtered (closed_allOf fun f hmem => ?_)
    obtain ⟨r, hr, rfl⟩ := List.mem_map.1 hmem
    exact .uid (closed_uidVar (List.mem_append_left _ (List.mem_map_of_mem hr)))
  rw [Query.Closed]
  refine Block.closedAll_append.2 ⟨Block.closedAll_of_forall fun b hb _ => closed_relatedBlocks _ _ b hb, ?_⟩
  rw [binds_relatedBlocks]
  refine Block.closedAll_cons (closed_candidates hf t scopes) rfl ?_
  refine Block.closedAll_cons_reported ((hresult countBlock).select _) rfl ?_
  exact Block.closedAll_cons_reported (closed_paged hs (hresult rowsBlock) t) rfl trivial

theorem closed_get (t : EquipmentType) (identifier : String) (scopes : List String) :
    (get t identifier scopes).query.Closed (get t identifier scopes).vars := by
  refine Block.closedAll_cons_reported (Block.Closed.select (.filtered (Block.closed_start _ ?_) ?_) _) rfl trivial
  · simp [Root.refs]
  · rintro _ ⟨⟩
    exact closed_typeFilter t.typeName scopes

theorem closed_instanceCount (typeName : String) (scopes : List String) :
    (instanceCount typeName scopes).Closed .empty := by
  refine Block.closedAll_cons_reported (Block.Closed.select (.filtered (Block.closed_start _ ?_) ?_) _) rfl trivial
  · simp [Root.refs]
  · rintro _ ⟨⟩
    exact closed_scopeFilter scopes

/-- The anchor and what is reached from it are bound before they are counted and reported. -/
theorem closed_blocks {root rows : Block} (hroot : root.Closed params [])
    (hbinds : root.binds = [anchorVar, reachedVar]) (hrows : rows.Closed params [anchorVar, reachedVar])
    (hnone : rows.binds = []) : Block.ClosedAll params [] (blocks root rows) := by
  refine Block.closedAll_cons hroot hbinds ?_
  refine Block.closedAll_cons_reported (closed_counted (by simp)) rfl ?_
  refine Block.closedAll_cons_reported (closed_counted (by simp)) rfl ?_
  exact Block.closedAll_cons_reported hrows hnone trivial

theorem closed_reached (name : Option String) :
    (Block.start name (.uid (uidVar reachedVar))).Closed params [anchorVar, reachedVar] :=
  closed_named (by simp) name

theorem closed_parents (t parentType : EquipmentType) (anchor : Uid) (scopes : List String) :
    (parents t parentType anchor scopes).query.Closed (parents t parentType anchor scopes).vars := by
  refine closed_blocks (closed_anchored anchor ?_ (closed_hopTo _ _ ?_)) rfl
    (((closed_reached _).orderBy _ _).select _) rfl
  · exact closed_typeFilter t.typeName scopes
  · exact closed_typeFilter parentType.typeName scopes

theorem closed_children (hs : Sized s) (hf : Accepted s.filter) (t childType : EquipmentType) (anchor : Uid)
    (scopes : List String) :
    (children t childType anchor s scopes).query.Closed (children t childType anchor s scopes).vars := by
  refine closed_blocks (closed_anchored anchor ?_ (closed_hopTo _ _ ?_)) rfl
    (closed_paged hs (closed_reached _) childType) rfl
  · exact closed_typeFilter t.typeName scopes
  · exact closed_and_pair (closed_relationshipFilter hf childType) (closed_scopeFilter scopes)

theorem closed_repeated {b : Block} (hb : b.Closed params names) (r : Recursion) :
    Block.Closed params names { b with recursion := some r } :=
  ⟨hb.root, hb.filter, hb.offset, hb.first, hb.traversals⟩

theorem closed_traversal (anchor : Uid) (direction : Direction) (depth : Nat) (scopes : List String) :
    (traversal anchor direction depth scopes).query.Closed (traversal anchor direction depth scopes).vars := by
  refine closed_blocks (closed_repeated (closed_anchored anchor ?_ (closed_hopTo _ _ ?_)) _) rfl
    (closed_reachedRows (by simp)) rfl
  · exact closed_and_pair .eq (closed_scopeFilter scopes)
  · exact closed_scopeFilter scopes

theorem closed_typeTraversal (anchor : Uid) (direction : Direction) (depth : Nat) (scopes : List String) :
    (typeTraversal anchor direction depth scopes).query.Closed (typeTraversal anchor direction depth scopes).vars := by
  refine closed_blocks (closed_repeated (closed_anchored anchor ?_ (closed_hopTo _ _ ?_)) _) rfl
    (((closed_reached _).orderBy _ _).select _) rfl
  · exact closed_and_pair .has (closed_scopeFilter scopes)
  · exact closed_scopeFilter scopes

theorem closed_levelHops (direction : Direction) (scopes levels : List String) (i : Nat) :
    ∀ t ∈ levelHops direction scopes i levels, t.Closed names := by
  induction levels generalizing i with
  | nil => exact fun _ h => absurd h List.not_mem_nil
  | cons level levels ih =>
      intro t ht
      rw [levelHops, List.mem_singleton] at ht
      subst ht
      refine .mk ?_ (ih (i + 1))
      rintro _ ⟨⟩
      exact closed_typeFilter level scopes

theorem binds_levelHops (direction : Direction) (scopes levels : List String) (i : Nat) :
    Traversal.bindsAll (levelHops direction scopes i levels) = (List.range' i levels.length).map levelVar := by
  induction levels generalizing i with
  | nil => rfl
  | cons level levels ih => simp [levelHops, Traversal.bindsAll, Traversal.binds, ih, List.range'_succ]

theorem closed_rootBlock (t : Topology) (scopes : List String) (anchor : Uid) :
    (TopologyLevels.rootBlock t scopes anchor).Closed params names := by
  have hanchor : (((Block.var (.uid [.node anchor])).bindAs (levelVar 0)).filtered
      (typeFilter t.anchorType scopes)).Closed params names := by
    refine ((Block.closed_start _ ?_).bindAs _).filtered ?_
    · simp [Root.refs, NodeRef.Closed]
    · rintro _ ⟨⟩
      exact closed_typeFilter t.anchorType scopes
  exact ⟨hanchor.root, hanchor.filter, hanchor.offset, hanchor.first, closed_levelHops _ scopes _ 1⟩

theorem binds_rootBlock (t : Topology) (scopes : List String) (anchor : Uid) :
    (TopologyLevels.rootBlock t scopes anchor).binds = levelVar 0 :: (List.range' 1 t.hops).map levelVar := by
  rw [← TopologyLevels.Topology.length_tail, ← binds_levelHops t.direction scopes]
  rfl

theorem closedAll_levels (is : List Nat) (h : ∀ i ∈ is, levelVar i ∈ names) :
    Block.ClosedAll params names (is.map fun i => reachedRows (levelBlock i) (levelVar i)) := by
  induction is with
  | nil => trivial
  | cons i is ih =>
      exact Block.closedAll_cons_reported (closed_reachedRows (h i List.mem_cons_self)) rfl
        (ih fun k hk => h k (List.mem_cons_of_mem i hk))

theorem closed_topology (t : Topology) (anchor : Uid) (scopes : List String) :
    (topology t anchor scopes).Closed .empty := by
  refine Block.closedAll_cons (closed_rootBlock t scopes anchor) (binds_rootBlock t scopes anchor) ?_
  refine Block.closedAll_cons_reported (closed_counted (by simp)) rfl (closedAll_levels _ fun i hi => ?_)
  exact List.mem_cons_of_mem _ (List.mem_map_of_mem hi)

theorem closed_compiled (hs : Sized s) (hf : Accepted s.filter) {q : Listing.Request} (h : Compiled s q) :
    q.query.Closed q.vars := by
  cases h with
  | list t scopes => exact closed_list hs hf t scopes
  | get t identifier scopes => exact closed_get t identifier scopes
  | instanceCount typeName scopes => exact closed_instanceCount typeName scopes
  | parents t parentType anchor scopes => exact closed_parents t parentType anchor scopes
  | children t childType anchor scopes => exact closed_children hs hf t childType anchor scopes
  | traversal anchor direction depth scopes => exact closed_traversal anchor direction depth scopes
  | typeTraversal anchor direction depth scopes => exact closed_typeTraversal anchor direction depth scopes
  | topology t anchor scopes => exact closed_topology t anchor scopes

end Queries

/-- No query of a read fails, and neither does the request that writes a record: each is closed, so that it uses only
variables that are bound by then, even to no nodes, and cuts pages by numbers. -/
theorem never_fails (g : Graph) :
    (∀ s : ListingSpec, Sized s → Accepted s.filter → ∀ q, Compiled s q →
      q.query.Closed q.vars ∧ ∃ answer vars, g.evaluate q.query q.vars = .ok (answer, vars)) ∧
    ∀ (t : EquipmentType) (payload : List (String × Json)) (r : Record) (scope typeName : String)
      (parentType : Option String) (now : Int) (request : Store.Request), Record.bind t payload = .ok r →
      r.upsert scope typeName parentType now = .ok request →
        (∃ query, request.Closed query) ∧ ∃ receipt g', g.execute request = .ok (receipt, g') := by
  refine ⟨fun s hs hf q hq => ?_, fun t payload r scope typeName parentType now request hbind hu => ?_⟩
  · have hclosed := closed_compiled hs hf hq
    obtain ⟨answer, vars, he, -⟩ := Graph.evaluate_closed g hclosed
    exact ⟨hclosed, answer, vars, he⟩
  · obtain ⟨parent, time, -, rfl⟩ := request_of_upsert hu
    have hclosed := InstanceUpserts.closed_upsertRequest (fun f hf => Record.predicate_of_bind hbind hf) scope typeName
      parent time
    exact ⟨⟨_, hclosed⟩, Graph.execute_closed g hclosed⟩

/-- Servers that begin with a text of characters that are special in patterns, linked from all kinds of entities. -/
def linkedServers : ListingSpec :=
  ((((ListingSpec.new 10).withFilter ⟨[.regex "key" "^.*$"]⟩).withProduct "p").withApplication "a").withInstallation
    "i"

theorem accepted_linkedServers : Accepted linkedServers.filter := by
  intro q hq hregex a text hoffers
  obtain rfl := List.mem_singleton.1 hq
  obtain ⟨raw, hraw, hconvert⟩ := hoffers
  obtain rfl := List.mem_singleton.1 hraw
  have hstring : .string = a.dataType := Conversions.dataType_of_convert hconvert
  rw [← hstring] at hconvert
  cases hconvert
  decide +kernel

set_option maxRecDepth 100000 in
/-- Servers are listed, and one is written anew below another parent. -/
theorem succeeds_twice :
    (∃ answer vars, ((unused .none).afterCalls InstanceUpserts.once).graph.evaluate
      (list InstanceUpserts.server linkedServers ["s1"]).query (list InstanceUpserts.server linkedServers ["s1"]).vars =
        .ok (answer, vars)) ∧
    ∃ request receipt g', (InstanceUpserts.record "z" 3 4).upsert "s1" "server" (some "rack") 60 = .ok request ∧
      ((unused .none).afterCalls InstanceUpserts.once).graph.execute request = .ok (receipt, g') := by
  obtain ⟨hreads, hwrites⟩ := never_fails ((unused .none).afterCalls InstanceUpserts.once).graph
  have hbind : Record.bind InstanceUpserts.server (InstanceUpserts.payload "z" 3 4) =
      .ok (InstanceUpserts.record "z" 3 4) := by
    decide +kernel
  have hparent : (InstanceUpserts.record "z" 3 4).parent? "server" (some "rack") = .ok (some ("z", "rack")) := rfl
  have hupsert : (InstanceUpserts.record "z" 3 4).upsert "s1" "server" (some "rack") 60 = .ok _ := upsert_ok hparent 60
  obtain ⟨-, receipt, g', he⟩ := hwrites _ _ _ _ _ _ _ _ hbind hupsert
  exact ⟨(hreads linkedServers ⟨by decide, by decide⟩ accepted_linkedServers _ (.list _ _)).2,
    _, receipt, g', hupsert, he⟩

end Inventory.ClosedQueries
