import Inventory.Proofs.Graph.Schema
import Inventory.Proofs.Repository.Definitions

/-!
What operations make of the declarations: only those that define and update types declare anything, and nothing else
names a type or gives it attributes.
-/

namespace Inventory.Repository

open Inventory.Graph Schema Store Hierarchy Vocabulary Admission

variable {r : Repository} {s s' : Store} {g g' g'' : Graph} {u w : Uid} {us : List Uid} {t t' : EquipmentType}
  {m : MetadataSource} {as : List Attribute} {name : String} {p : String}

/-- No predicate of an attribute holds edges. -/
def Valued (g : Graph) : Prop :=
  ∀ p d, isAttributePredicate p = true → g.predicates.get? p = some d → d.kind ≠ .uid

/-- Types that are named alike and have the same attributes. -/
def SameAttributes (t t' : EquipmentType) : Prop := t'.typeName = t.typeName ∧ t'.attributes = t.attributes

/-- Each type afterwards was one before, under the name and with the attributes it has. -/
def Lasting (g g' : Graph) : Prop := ∀ u t', StoredType g' u t' → ∃ t, StoredType g u t ∧ SameAttributes t t'

/-- Each type lasts, or has this name and these attributes. -/
def LastingOr (g g' : Graph) (name : String) (as : List Attribute) : Prop :=
  ∀ u t', StoredType g' u t' →
    (∃ t, StoredType g u t ∧ SameAttributes t t') ∨ t'.typeName = name ∧ bare t'.attributes = bare as

/-- The name and the attributes under which a change declares a type, if it is not refused before. -/
inductive Declares (r : Repository) (s : Store) : Change → String → List Attribute → Prop
  | created (k : Guard) (t : EquipmentType)
      (h : SameSchema (declaredIn s.graph t.typeName t.attributes) ((Change.createType k t).run r s).graph) :
      Declares r s (.createType k t) t.typeName t.attributes
  | updated (k : Guard) (id : String) (parent : Option String) (as : List Attribute) (scopes : List String) (u : Uid)
      (t : EquipmentType) (hu : Uid.parse? id = some u) (ht : StoredType s.graph u t)
      (h : SameSchema (declaredIn s.graph t.typeName (t.attributes ++ as))
        ((Change.updateType k id parent as scopes).run r s).graph) :
      Declares r s (.updateType k id parent as scopes) t.typeName (t.attributes ++ as)

section Declarations

theorem kind_predicateOf (name : String) (a : Attribute) : (predicateOf name a).kind ≠ .uid := by
  rw [predicateOf, PredicateStatement.new, PredicateStatement.indexed]
  intro h
  cases ht : a.dataType <;>
    · rw [ht] at h
      cases h

theorem isAttributePredicate_of_declaration {q : PredicateStatement}
    (hq : q ∈ (Declaration.ofAttributes name as).predicates) :
    isAttributePredicate q.predicate = true ∧ q.kind ≠ .uid := by
  obtain ⟨a, -, rfl⟩ := List.mem_map.1 hq
  exact ⟨isAttributePredicate_attributePredicate _ _, kind_predicateOf _ _⟩

theorem declareAll_ofAttributes (hg : Valued g) (name : String) (as : List Attribute) :
    g.declareAll (Declaration.ofAttributes name as).statements = (none,
      { g with
        predicates :=
          (Declaration.ofAttributes name as).predicates.foldl (fun t q => t.insert q.predicate q) g.predicates
        types := g.types.insert (typeDeclaration name) (Declaration.ofAttributes name as).typeStatement }) := by
  rw [Declaration.statements, declareAll_values]
  · rfl
  · intro q hq old hold
    exact hg _ old (isAttributePredicate_of_declaration hq).1 hold
  · exact fun q hq => (isAttributePredicate_of_declaration hq).2

theorem declaredIn_eq (hg : Valued g) (name : String) (as : List Attribute) : declaredIn g name as =
    { g with
      predicates :=
        (Declaration.ofAttributes name as).predicates.foldl (fun t q => t.insert q.predicate q) g.predicates
      types := g.types.insert (typeDeclaration name) (Declaration.ofAttributes name as).typeStatement } := by
  rw [declaredIn, declareAll_ofAttributes hg]

theorem predicates_declaredIn (hg : Valued g) (name : String) (as : List Attribute) (p : String) :
    (declaredIn g name as).predicates.get? p =
      (declared? (Declaration.ofAttributes name as).predicates p).or (g.predicates.get? p) := by
  rw [declaredIn_eq hg]
  exact Table.get?_foldl_insert PredicateStatement.predicate _ _ p

theorem types_declaredIn (hg : Valued g) (name : String) (as : List Attribute) (n : String) :
    (declaredIn g name as).types.get? n =
      if n = typeDeclaration name then some (Declaration.ofAttributes name as).typeStatement else g.types.get? n := by
  rw [declaredIn_eq hg]
  exact Table.get?_insert _ _ _ _

theorem mem_of_declared? {qs : List PredicateStatement} {q : PredicateStatement} (h : declared? qs p = some q) :
    q ∈ qs ∧ q.predicate = p := by
  obtain ⟨hp, hq⟩ := And.intro (List.find?_some h) (List.mem_of_find?_eq_some h)
  exact ⟨List.mem_reverse.1 hq, by simpa using hp⟩

theorem valued_declaredIn (hg : Valued g) (name : String) (as : List Attribute) : Valued (declaredIn g name as) := by
  intro p d hp hd
  rw [predicates_declaredIn hg, Option.or_eq_some_iff] at hd
  rcases hd with hd | ⟨-, hd⟩
  · exact (isAttributePredicate_of_declaration (mem_of_declared? hd).1).2
  · exact hg p d hp hd

theorem Valued.of_sameSchema (hg : Valued g) (h : SameSchema g g') : Valued g' := by
  intro p d hp hd
  rw [h.1] at hd
  exact hg p d hp hd

theorem undeclared_bootstrapped (refusals : Refusals) (hp : isAttributePredicate p = true) :
    (bootstrapped refusals).graph.predicates.get? p = none := by
  have hbase : ∀ q ∈ basePredicates, q.predicate ≠ p := by
    rintro q hq rfl
    rw [not_isAttributePredicate_base q hq] at hp
    cases hp
  rw [graph_bootstrapped, (declareAll_ok _ _).2 p]
  · rfl
  · intro q hq
    simp only [baseStatements, List.mem_append, List.mem_map, List.mem_singleton, reduceCtorEq, or_false,
      Statement.predicate.injEq, exists_eq_right] at hq
    exact hbase q hq

theorem valued_bootstrapped (refusals : Refusals) : Valued (bootstrapped refusals).graph := by
  intro p d hp hd
  rw [undeclared_bootstrapped refusals hp] at hd
  cases hd

end Declarations

section Lasting

theorem StoredType.unique (hg : Coherent g) (h : StoredType g u t) (h' : StoredType g u t') : t = t' :=
  (h.reads hg).unique (h'.reads hg)

theorem Lasting.refl (g : Graph) : Lasting g g := fun _ t ht => ⟨t, ht, rfl, rfl⟩

theorem Lasting.trans (h : Lasting g g') (h' : Lasting g' g'') : Lasting g g'' := by
  intro u t'' ht''
  obtain ⟨t', ht', hname', has'⟩ := h' u t'' ht''
  obtain ⟨t, ht, hname, has⟩ := h u t' ht'
  exact ⟨t, ht, hname'.trans hname, has'.trans has⟩

theorem Lasting.or (h : Lasting g g') (name : String) (as : List Attribute) : LastingOr g g' name as :=
  fun u t' ht' => .inl (h u t' ht')

variable (hg : Coherent g) (hg' : Coherent g') (hd : Described g)

include hg hg' hd

theorem Frame.lasting (h : Frame g g') : Lasting g g' := by
  intro u t' ht'
  obtain ⟨t, w, m, hdef⟩ := hd.types u (h.types u ht'.live)
  obtain rfl := ht'.unique hg' (h.type hg ht'.live hdef.type).2
  exact ⟨t, hdef.type, rfl, rfl⟩

theorem SourceStored.lasting (h : SourceStored g g' us m) : Lasting g g' := by
  intro u t' ht'
  have hlive := ht'.live
  rw [(h.same_of_live hg hg' hd ht'.live metaType).1] at hlive
  obtain ⟨t, w, m₀, hdef⟩ := hd.types u hlive
  obtain ⟨m', hdef'⟩ := h.definition hg hg' hd ht'.live hdef
  obtain rfl := ht'.unique hg' hdef'.type
  exact ⟨t, hdef.type, rfl, rfl⟩

theorem Beside.lasting (h : Beside g g' u) (hw : w ≠ u) (ht' : StoredType g' w t') :
    ∃ t, StoredType g w t ∧ SameAttributes t t' := by
  have hlive := ht'.live
  by_cases hc : g.contains w = true
  · rw [(h.same w hc hw metaType).1] at hlive
    obtain ⟨t, x, m, hdef⟩ := hd.types w hlive
    obtain rfl := ht'.unique hg' (h.storedType hg hw hdef.type)
    exact ⟨_, hdef.type, rfl, rfl⟩
  · exact absurd (h.fresh w hc hw).1 hlive

/-- If the one that has been written is stored as it is given, each type lasts or is that one. -/
theorem Beside.lasting_or {t₀ : EquipmentType} (h : Beside g g' u) (hu : StoredType g' u t₀)
    (ht' : StoredType g' w t') : (∃ t, StoredType g w t ∧ SameAttributes t t') ∨ t' = t₀ := by
  by_cases hw : w = u
  · subst hw
    exact .inr (ht'.unique hg' hu)
  · exact .inl (h.lasting hg hg' hd hw ht')

omit hg' in
theorem lasting_of_purged (h : InstancesPurged g g') : Lasting g g' := by
  induction h with
  | refl => exact .refl g
  | tail hfirst hstep ih =>
      obtain ⟨us, hus, hc⟩ := hstep
      have hmiddle := hg.instancesPurged hfirst
      refine ih.trans ((Frame.of_cleared hc fun u hu => .inr (hus u hu)).lasting hmiddle ?_
        (described_of_purged hg hd hfirst))
      exact hg.instancesPurged (hfirst.tail ⟨us, hus, hc⟩)

end Lasting

theorem sameSchema_of_purged (h : InstancesPurged g g') : SameSchema g g' := by
  induction h with
  | refl => exact .refl g
  | tail _ hstep ih =>
      obtain ⟨us, -, hc⟩ := hstep
      exact ih.trans hc.schema

section Declares

variable {k : Guard} {res : Except Failure EquipmentType} (hs : Coherent s.graph) (hs' : Coherent s'.graph)
  (hd : Described s.graph)

include hs hs' hd

theorem schema_of_createType (h : perform (createType r k t) s = (res, s')) :
    s'.graph = s.graph ∨ SameSchema (declaredIn s.graph t.typeName t.attributes) s'.graph ∧
      LastingOr s.graph s'.graph t.typeName t.attributes := by
  rcases createType_cases h with ⟨he, -⟩ | ⟨source, all, w, parent, hc, hwrite⟩
  · exact .inl he
  have hr : Redeclared s.graph (declaredIn s.graph t.typeName t.attributes) := (declareAll_ok _ _).1
  rcases hwrite with ⟨he, -⟩ | ⟨receipt, he, -⟩
  · exact .inr ⟨he ▸ .refl _, ((Frame.of_redeclared (he ▸ hr)).lasting hs hs' hd).or _ _⟩
  have hdecl := declared_of_attributes hs.declared t.typeName t.attributes
  obtain ⟨v, vs, hw, -⟩ := typeWritten_of_execute (hr.intact hs.intact) hdecl he
  have hw := hw.of_redeclared hr
  refine .inr ⟨sameSchema_of_execute he, fun u t' ht' => ?_⟩
  refine ((hw.beside hs.intact).lasting_or hs hs' hd (hw.definition hs hd hc).type ht').imp_right ?_
  rintro rfl
  exact ⟨rfl, bare_withIds hw.stored.length_eq⟩

theorem schema_of_updateType {id : String} {parentId : Option String} {scopes : List String}
    (h : perform (updateType r k id parentId as scopes) s = (res, s')) :
    s'.graph = s.graph ∨ ∃ v existing, Uid.parse? id = some v ∧ StoredType s.graph v existing ∧
      SameSchema (declaredIn s.graph existing.typeName (existing.attributes ++ as)) s'.graph ∧
        LastingOr s.graph s'.graph existing.typeName (existing.attributes ++ as) := by
  rcases updateType_cases hs h with ⟨he, -⟩ | ⟨v, existing, source, parent, hc, hwrite⟩
  · exact .inl he
  have hr : Redeclared s.graph (declaredIn s.graph existing.typeName (existing.attributes ++ as)) :=
    (declareAll_ok _ _).1
  obtain ⟨x, hdef⟩ := hc.definition hs hd
  refine .inr ⟨v, existing, hc.uid, hdef.type, ?_⟩
  rcases hwrite with ⟨he, -⟩ | ⟨receipt, he, -⟩
  · exact ⟨he ▸ .refl _, ((Frame.of_redeclared (he ▸ hr)).lasting hs hs' hd).or _ _⟩
  have hdecl := declared_of_attributes hs.declared existing.typeName (existing.attributes ++ as)
  have hin : (declaredIn s.graph existing.typeName (existing.attributes ++ as)).contains v = true := by
    rw [hr.contains]
    exact (mem_visibleTypes.1 hc.visible).1
  obtain ⟨vs, hw, -⟩ := typeExtended_of_execute (hr.intact hs.intact) hdecl hin he
  have hw := hw.of_redeclared hr
  obtain ⟨-, x', hdef'⟩ := hw.definition hs hd hc
  refine ⟨sameSchema_of_execute he, fun u t' ht' => ?_⟩
  refine ((hw.beside hs.intact hdef.type.live).lasting_or hs hs' hd hdef'.type ht').imp_right ?_
  rintro rfl
  refine ⟨rfl, ?_⟩
  simp only [extend, bare_append, bare_withIds hw.stored.length_eq]

end Declares

/-- A change declares nothing, and all types last, or it declares one type, and all others do. -/
theorem Change.schema (r : Repository) (c : Change) (hs : Coherent s.graph) (hd : Described s.graph) :
    (SameSchema s.graph (c.run r s).graph ∧ Lasting s.graph (c.run r s).graph) ∨
      ∃ name as, Declares r s c name as ∧ LastingOr s.graph (c.run r s).graph name as := by
  have hs' := (c.step r hs).2
  have hkept : ∀ g', g' = s.graph → SameSchema s.graph g' ∧ Lasting s.graph g' := by
    rintro g' rfl
    exact ⟨.refl _, .refl _⟩
  cases c with
  | upsertSource m =>
      rcases upsertSource_cases (s := s) (m := m) rfl with he | ⟨receipt, he⟩
      · exact .inl (hkept _ he)
      · obtain ⟨us, hm, -⟩ := sourceStored_of_execute hs.intact he
        exact .inl ⟨sameSchema_of_execute he, hm.lasting hs hs' hd⟩
  | createType k t =>
      rcases schema_of_createType (r := r) (k := k) hs hs' hd rfl with he | ⟨hsame, hlast⟩
      · exact .inl (hkept _ he)
      · exact .inr ⟨_, _, .created k t hsame, hlast⟩
  | updateType k id parentId as scopes =>
      rcases schema_of_updateType (r := r) (k := k) hs hs' hd rfl with he | ⟨v, existing, hv, ht, hsame, hlast⟩
      · exact .inl (hkept _ he)
      · exact .inr ⟨_, _, .updated k id parentId as scopes v existing hv ht hsame, hlast⟩
  | deleteType k name scope =>
      rcases deleteType_cases (r := r) (k := k) hs rfl with ⟨he, -⟩ | ⟨u, hu, hc⟩
      · exact .inl (hkept _ he)
      · refine .inl ⟨hc.schema, (Frame.of_cleared hc fun v hv => ?_).lasting hs hs' hd⟩
        rw [List.mem_singleton.1 hv]
        exact .inl (List.ne_nil_of_mem hu.named)
  | upsertInstance k scope name payload now =>
      rcases upsertInstance_cases (r := r) (k := k) hs rfl with
        ⟨he, -⟩ | ⟨t, record, parent, own, stub, -, -, -, -, -, -, hm, hsame⟩
      · exact .inl (hkept _ he)
      · exact .inl ⟨hsame, (Frame.of_recorded hs' hm).lasting hs hs' hd⟩
  | deleteInstances k elapsedMs scope =>
      have hpurged : InstancesPurged s.graph ((Change.deleteInstances k elapsedMs scope).run r s).graph :=
        (purgedIn_of_deleteInstances hs rfl).purged
      exact .inl ⟨sameSchema_of_purged hpurged, lasting_of_purged hs hd hpurged⟩

end Inventory.Repository
