import Inventory.Proofs.Admission
import Inventory.Proofs.Repository.Declarations
import Inventory.Proofs.Repository.Reads
import Inventory.Proofs.Repository.RecordWrites
import Inventory.Repository.Instances

/-!
The operations that change an inventory: what each makes of the graph, and what it has made sure of before.
-/

namespace Inventory.Repository

open Inventory.Graph Store Hierarchy Outcome Vocabulary

/-- An operation that changes an inventory, with all it is given apart from the store. -/
inductive Change
  | upsertSource (source : MetadataSource)
  | createType (k : Guard) (t : EquipmentType)
  | updateType (k : Guard) (id : String) (parent : Option String) (attributes : List Attribute) (scopes : List String)
  | deleteType (k : Guard) (name scope : String)
  | upsertInstance (k : Guard) (scope name : String) (payload : List (String × Json)) (now : Int)
  | deleteInstances (k : Guard) (elapsedMs : Nat → Nat) (scope : String)

/-- The store that an operation leaves, be it carried out or not. -/
def Change.run (r : Repository) (s : Store) : Change → Store
  | upsertSource source => (perform (Repository.upsertSource source) s).2
  | createType k t => (perform (r.createType k t) s).2
  | updateType k id parent attributes scopes => (perform (r.updateType k id parent attributes scopes) s).2
  | deleteType k name scope => (perform (r.deleteType k name scope) s).2
  | upsertInstance k scope name payload now => (perform (r.upsertInstance k scope name payload now) s).2
  | deleteInstances k elapsedMs scope => (perform (r.deleteInstances k elapsedMs scope) s).2

/-- What has been made sure of when a type is made over a source, perhaps below a parent. -/
structure Creatable (g : Graph) (t : EquipmentType) (w : Uid) (parent : Option Uid) : Prop where
  source : Uid.parse? t.sourceId = some w
  known : g.contains w = true
  placed : isSourceIn g t.scopes.items w = true
  names : ∀ v ∈ visibleTypes g t.scopes.items, ∀ n, .str n ∈ g.values v metaType →
    Text.LetterCase.sameLetters n t.typeName = false
  sources : ∀ v ∈ visibleTypes g t.scopes.items, ∀ x ∈ g.edges v metaSource, x.text ≠ t.sourceId
  parent : ∀ p, parent = some p → p ∈ visibleTypes g t.scopes.items

/-- A node that has been admitted as a new parent of a type: a type in one of the scopes, not the type itself and not
among those found below it. If the type has a parent already, no instance of it has been found. -/
structure Admitted (g : Graph) (scopes : List String) (u p : Uid) : Prop where
  known : p ∈ visibleTypes g scopes
  ne : p ≠ u
  apart : (visibleTypes g scopes).length < 1 <<< 32 → ∃ below, ClosedBelow g scopes u below ∧ p ∉ below
  vacant : g.edges u metaParent ≠ .empty → g.size < 1 <<< 64 → ∀ name w, .str name ∈ g.values u metaType →
    .str name ∈ g.values w equipmentType → g.inScopes scopes w = false

/-- What has been made sure of when a type is put below a parent. -/
structure Movable (g : Graph) (scopes : List String) (u : Uid) (parentId : Option String) (p : Uid) : Prop
    extends Admitted g scopes u p where
  text : ∃ id, parentId = some id ∧ Uid.parse? id = some p

/-- What has been made sure of when a type is deleted in a scope. -/
structure Deletable (g : Graph) (scope name : String) (u : Uid) : Prop where
  named : .str name ∈ g.values u metaType
  placed : .str scope ∈ g.values u scopes
  childless : ∀ v, u ∈ g.edges v metaParent → .str scope ∉ g.values v scopes
  vacant : g.size < 1 <<< 64 → ∀ w, .str name ∈ g.values w equipmentType → .str scope ∉ g.values w scopes

inductive Step (r : Repository) (s : Store) : Change → Store → Prop
  | kept (c) (s') (h : Redeclared s.graph s'.graph) : Step r s c s'
  | source (m : MetadataSource) (us) (s') (h : SourceWritten s.graph s'.graph us m.scope) :
      Step r s (.upsertSource m) s'
  | made (k) (t) (u w) (parent) (s') (hc : Creatable s.graph t w parent)
      (h : TypeMade s.graph s'.graph u t.typeName w parent t.scopes.items) : Step r s (.createType k t) s'
  | changed (k) (id) (parentId) (attributes) (scopes) (u) (parent) (s') (hu : Uid.parse? id = some u)
      (hv : u ∈ visibleTypes s.graph scopes) (hp : ∀ p, parent = some p → Movable s.graph scopes u parentId p)
      (h : TypeChanged s.graph s'.graph u parent scopes) : Step r s (.updateType k id parentId attributes scopes) s'
  | deleted (k) (name scope) (u) (s') (hu : Deletable s.graph scope name u) (h : Cleared [u] s.graph s'.graph) :
      Step r s (.deleteType k name scope) s'
  | written (k) (scope name) (payload) (now) (t : EquipmentType) (record : Record) (parent) (own stub) (s')
      (ht : (perform (typeByName name [scope]) s).1 = .ok t)
      (hr : (perform (r.upsertInstance k scope name payload now) s).1 = .ok record)
      (hp : record.parent? t.typeName t.parentTypeName = .ok parent)
      (h : InstanceWritten s.graph s'.graph scope t.typeName record.identifier parent own stub) :
      Step r s (.upsertInstance k scope name payload now) s'
  | purged (k) (elapsedMs) (scope) (s') (h : InstancesPurged s.graph s'.graph) :
      Step r s (.deleteInstances k elapsedMs scope) s'

variable {r : Repository} {s s' s₁ : Store} {k : Guard} {c : Change} {g g' g₁ : Graph} {t : EquipmentType}
  {scopes : List String}

theorem Step.redeclared (hs : Coherent s.graph) (h : Redeclared s.graph s'.graph) (hd : Declared s'.graph) :
    Step r s c s' ∧ Coherent s'.graph := by
  refine ⟨.kept c s' h, ?_⟩
  obtain ⟨ps, ts, he⟩ := h
  rw [he] at hd ⊢
  exact hs.redeclared hd

theorem Step.of_eq (hs : Coherent s.graph) (h : s'.graph = s.graph) : Step r s c s' ∧ Coherent s'.graph :=
  Step.redeclared hs (.of_eq h) (h ▸ hs.declared)

theorem TypeMade.of_redeclared {u w : Uid} {name : String} {parent : Option Uid} (h : Redeclared g g₁)
    (hm : TypeMade g₁ g' u name w parent scopes) : TypeMade g g' u name w parent scopes := by
  obtain ⟨ps, ts, rfl⟩ := h
  exact ⟨hm.new, hm.others, hm.name, hm.unmarked, hm.scopes, hm.source, hm.parent, hm.links, hm.recycled⟩

theorem TypeChanged.of_redeclared {u : Uid} {parent : Option Uid} (h : Redeclared g g₁)
    (hm : TypeChanged g₁ g' u parent scopes) : TypeChanged g g' u parent scopes := by
  obtain ⟨ps, ts, rfl⟩ := h
  exact ⟨hm.others, hm.values, hm.edges, hm.scopes, hm.parent, hm.links, hm.recycled⟩

theorem parentUid_yields (p : Option String) : Yields (p.mapM typeUid) s fun u =>
    u = p.bind Uid.parse? ∧ u.isSome = p.isSome := by
  cases p with
  | none => exact Yields.pure ⟨rfl, rfl⟩
  | some p =>
      have h : Option.mapM typeUid (some p) = some <$> typeUid p := rfl
      rw [h]
      exact (typeUid_yields p).map fun u hu => ⟨hu.symm, rfl⟩

theorem exists_loaded {us : List Uid} {all : List EquipmentType} (hall : List.Forall₂ (Loaded g) us all)
    (hus : us.Perm (visibleTypes g scopes)) (ht : t ∈ all) : ∃ v ∈ visibleTypes g scopes, Loaded g v t := by
  obtain ⟨v, hv, hl⟩ := forall₂_right hall.flip ht
  exact ⟨v, hus.mem_iff.1 hv, hl⟩

theorem creatable_of_checks {source : MetadataSource} {w : Uid} {us : List Uid} {existing : List EquipmentType}
    (hs : Coherent g) (hw : Uid.parse? t.sourceId = some w) (hc : g.contains w = true)
    (hin : isSourceIn g t.scopes.items w = true) (hall : List.Forall₂ (Loaded g) us existing)
    (hus : us.Perm (visibleTypes g t.scopes.items)) (hname : Admission.checkTypeName existing t.typeName = .ok ⟨⟩)
    (hsource : Admission.checkSource existing t.sourceId = .ok ⟨⟩)
    (hcreate : Admission.checkCreation source.columns existing t = .ok ⟨⟩) :
    Creatable g t w (t.parent?.bind Uid.parse?) := by
  refine ⟨hw, hc, hin, fun v hv n hn => ?_, fun v hv x hx he => ?_, fun p hp => ?_⟩
  · obtain ⟨e, he, hl⟩ := forall₂_right hall (hus.mem_iff.2 hv)
    have hval := (hs.regular v).eq_of_named hn
    rw [← hl.typeName n (lists_of_declared hs.declared).1 hval]
    exact Admission.names_of_checkTypeName hname e he
  · obtain ⟨e, he', hl⟩ := forall₂_right hall (hus.mem_iff.2 hv)
    refine Admission.sources_of_checkSource hsource e he' ?_
    rw [hl.sourceId, ← he]
    cases hitems : (g.edges v metaSource).items with
    | nil => simp [OrderedSet.mem_def, hitems] at hx
    | cons y ys =>
        have hy : y ∈ g.edges v metaSource := by simp [OrderedSet.mem_def, hitems]
        rw [(hs.regular v).oneSource x hx y hy]
        rfl
  · obtain ⟨id, hid, hparse⟩ := Option.bind_eq_some_iff.1 hp
    obtain ⟨e, he, rfl⟩ := Admission.parent_of_checkCreation hcreate hid
    obtain ⟨v, hv, hl⟩ := exists_loaded hall hus he
    rw [hl.id] at hparse
    rwa [Uid.eq_of_parse?_text hparse]

theorem discard_bind {α β : Type} (x : Op α) (f : Unit → Op β) : discard x >>= f = x >>= fun _ => f ⟨⟩ := by
  rw [discard, map_const, Function.comp_def, bind_map_left]

theorem perform_write {α : Type} {operation : String} {request : Store.Request} {f : Receipt → Op α}
    {res : Except Failure α} (hf : ∀ receipt s, Yields (f receipt) s fun _ => True)
    (h : perform (step operation (Store.execute request) >>= f) s = (res, s')) :
    s'.graph = s.graph ∨ ∃ receipt, s.graph.execute request = .ok (receipt, s'.graph) := by
  rcases perform_execute_bind h with ⟨he, -⟩ | ⟨receipt, t, he, h⟩
  · exact .inl he
  · rw [((hf receipt t).cases h).1]
    exact .inr ⟨receipt, he⟩

/-- What has been read and made sure of when a definition is written. -/
structure CreateChecked (g : Graph) (t : EquipmentType) (source : MetadataSource) (existing : List EquipmentType)
    (w : Uid) (parent : Option Uid) : Prop where
  uid : Uid.parse? t.sourceId = some w
  known : g.contains w = true
  placed : isSourceIn g t.scopes.items w = true
  found : ReadsSource g w source
  listed : ∃ us, us.Perm (visibleTypes g t.scopes.items) ∧ List.Forall₂ (Loaded g) us existing
  name : Admission.checkTypeName existing t.typeName = .ok ⟨⟩
  serves : Admission.checkSource existing t.sourceId = .ok ⟨⟩
  rules : Admission.checkCreation source.columns existing t = .ok ⟨⟩
  parent : parent = t.parent?.bind Uid.parse? ∧ parent.isSome = t.parent?.isSome

theorem CreateChecked.creatable {source : MetadataSource} {existing : List EquipmentType} {w : Uid}
    {parent : Option Uid} (h : CreateChecked g t source existing w parent) (hs : Coherent g) :
    Creatable g t w parent := by
  obtain ⟨us, hus, hall⟩ := h.listed
  rw [h.parent.1]
  exact creatable_of_checks hs h.uid h.known h.placed hall hus h.name h.serves h.rules

/-- The graph in which a type has been declared. -/
def declaredIn (g : Graph) (typeName : String) (as : List Attribute) : Graph :=
  (g.declareAll (Schema.Declaration.ofAttributes typeName as).statements).2

/-- The request that writes a definition. -/
def createRequest (t : EquipmentType) (source : Uid) (parent : Option Uid) : Store.Request :=
  .of none [⟨none, typeQuads (.blank typeNodeLabel) t.typeName source parent t.scopes.items ++
    allAttributeQuads (.blank typeNodeLabel) t.attributes, []⟩]

/-- A definition, under the name of its source and of its parent among the types there are. -/
def named (t : EquipmentType) (source : MetadataSource) (existing : List EquipmentType) : EquipmentType :=
  { t with
    sourceName := source.sourceName
    parentTypeName := t.parent?.bind fun p => (existing.find? (·.id == p)).map (·.typeName) }

/-- A creation fails before it has declared or written anything, or fails with the type declared, or writes it. -/
theorem createType_cases {res : Except Failure EquipmentType} (h : perform (createType r k t) s = (res, s')) :
    (s'.graph = s.graph ∧ ∃ e, res = .error e) ∨ ∃ source existing w parent,
      CreateChecked s.graph t source existing w parent ∧
        ((s'.graph = declaredIn s.graph t.typeName t.attributes ∧ ∃ e, res = .error e) ∨
          ∃ receipt, execute (declaredIn s.graph t.typeName t.attributes) (createRequest t w parent) =
            .ok (receipt, s'.graph) ∧
              ∀ u as, receipt.assigned.get? typeNodeLabel = some u → assignIds receipt t.attributes = .ok as →
                res = .ok { named t source existing with id := u.text, attributes := as }) := by
  unfold createType at h
  rcases (Yields.verify r k _).step h with ⟨rfl, he⟩ | ⟨⟨⟩, -, -, h⟩
  · exact .inl ⟨rfl, he⟩
  rcases (sourceById_yields _ _).step h with ⟨rfl, he⟩ | ⟨source, ⟨w, hw, hc, hin, hsource⟩, -, h⟩
  · exact .inl ⟨rfl, he⟩
  rcases (types_yields _).step h with ⟨rfl, he⟩ | ⟨existing, hexisting, -, h⟩
  · exact .inl ⟨rfl, he⟩
  rcases (Yields.check _).step h with ⟨rfl, he⟩ | ⟨⟨⟩, hname, -, h⟩
  · exact .inl ⟨rfl, he⟩
  rcases (Yields.check _).step h with ⟨rfl, he⟩ | ⟨⟨⟩, hserves, -, h⟩
  · exact .inl ⟨rfl, he⟩
  rcases (Yields.check _).step h with ⟨rfl, he⟩ | ⟨⟨⟩, hrules, -, h⟩
  · exact .inl ⟨rfl, he⟩
  rcases (Yields.orNotFound _ _).step h with ⟨rfl, he⟩ | ⟨w', hw', -, h⟩
  · exact .inl ⟨rfl, he⟩
  obtain rfl := Option.some.inj (hw.symm.trans hw')
  rcases (parentUid_yields _).step h with ⟨rfl, he⟩ | ⟨parent, hparent, -, h⟩
  · exact .inl ⟨rfl, he⟩
  have hchecked : CreateChecked s.graph t source existing w parent :=
    ⟨hw, hc, hin, hsource, hexisting, hname, hserves, hrules, hparent⟩
  rcases perform_alter_bind h with ⟨he | he, hres⟩ | ⟨s₁, hd, h⟩
  · exact .inl ⟨he, hres⟩
  · exact .inr ⟨source, existing, w, parent, hchecked, .inl ⟨he, hres⟩⟩
  have hdeclared : s₁.graph = declaredIn s.graph t.typeName t.attributes := by rw [declaredIn, hd]
  refine .inr ⟨source, existing, w, parent, hchecked, ?_⟩
  rw [← hdeclared]
  rcases perform_execute_bind h with ⟨he, hres⟩ | ⟨receipt, s₂, he, h⟩
  · exact .inl ⟨he, hres⟩
  have hsame : s' = s₂ := by
    split at h
    · cases h
      rfl
    · exact (Yields.cases (P := fun _ => True) ((Yields.reading _).bind fun _ _ => Yields.pure trivial) h).1
  subst hsame
  refine .inr ⟨receipt, he, fun u as hu has => ?_⟩
  simp only [hu, has] at h
  cases h
  rfl

theorem createType_step {res : Except Failure EquipmentType} (hs : Coherent s.graph)
    (h : perform (createType r k t) s = (res, s')) : Step r s (.createType k t) s' ∧ Coherent s'.graph := by
  rcases createType_cases h with ⟨he, -⟩ | ⟨source, existing, w, parent, hchecked, hwrite⟩
  · exact Step.of_eq hs he
  have hr : Redeclared s.graph (declaredIn s.graph t.typeName t.attributes) := (declareAll_ok _ _).1
  have hd := declared_of_attributes hs.declared t.typeName t.attributes
  rcases hwrite with ⟨he, -⟩ | ⟨receipt, he, -⟩
  · rw [← he] at hr
    exact Step.redeclared hs hr (he ▸ hd)
  · obtain ⟨hi, hp, u, hm⟩ := typeMade_of_execute (hr.intact hs.intact) hd he
    have hm := hm.of_redeclared hr
    exact ⟨.made k t u w parent s' (hchecked.creatable hs) hm,
      hs.typeMade hi (hd.of_predicates hp) hm hchecked.known hchecked.placed⟩

theorem descendantIds_same (id : String) : Yields (descendantIds id scopes) s fun _ => True := by
  refine Yields.tryCatch (Yields.map (P := fun _ => True) ?_ fun _ _ => trivial) fun e _ => ?_
  · refine (typeUid_yields _).bind fun u _ => (types_yields _).bind fun all _ => (Yields.read _ _ _).bind fun _ _ => ?_
    exact (Yields.reading _).bind fun _ _ => Yields.pure trivial
  · split
    · exact Yields.pure trivial
    · exact Yields.throw _

theorem parent?_of_loaded {u v : Uid} (hr : Regular g v) (hl : Loaded g v t) (hu : u ∈ g.edges v metaParent) :
    t.parent? = some u.text := by
  have hne : u.text ≠ "" := fun h => by
    have := congrArg String.toList h
    simp [Uid.text] at this
  rw [EquipmentType.parent?, hl.parentId]
  cases hi : (g.edges v metaParent).items with
  | nil => simp [OrderedSet.mem_def, hi] at hu
  | cons w ws =>
      have hw : w ∈ g.edges v metaParent := by simp [OrderedSet.mem_def, hi]
      rw [hr.oneParent u hu w hw, List.head?_cons, Option.map_some, Option.filter_some, if_pos]
      rw [← hr.oneParent u hu w hw]
      exact decide_eq_true hne

theorem admitParent_yields {u : Uid} (hs : Coherent s.graph) (hv : u ∈ visibleTypes s.graph scopes)
    (hl : Loaded s.graph u t) (change : Option String) : Yields (admitParent t change scopes) s fun _ =>
      ∀ p, change.bind Uid.parse? = some p → Admitted s.graph scopes u p ∧ change = some p.text := by
  cases change with
  | none => exact Yields.pure (by simp)
  | some id =>
      have htyped : ∀ x y, y ∈ s.graph.edges x metaParent → s.graph.has x metaType = true := by
        intro x y hy
        have hne := (hs.regular x).typed y hy
        simp [has, hne]
      have hids : Yields (descendantIds t.id scopes) s fun ids => (visibleTypes s.graph scopes).length < 1 <<< 32 →
          ∃ below, ClosedBelow s.graph scopes u below ∧ ∀ v ∈ below, v.text ∈ ids := by
        by_cases hfew : (visibleTypes s.graph scopes).length < 1 <<< 32
        · rw [hl.id]
          exact (descendantIds_yields hs.intact hv htyped hfew).mono fun ids h _ => h
        · exact (descendantIds_same _).mono fun ids _ h => absurd h hfew
      refine (types_yields _).bind fun all => ?_
      rintro ⟨us, hus, hall⟩
      refine hids.bind fun ids hbelow => (hasInstances_yields _ _).bind fun occupied hoccupied => ?_
      refine (Yields.check _).mono fun _ hcheck p hp => ?_
      obtain ⟨hself, ⟨e, he, rfl⟩, habove, hfree⟩ := Admission.parent_of_checkParentChange hcheck
      obtain ⟨v, hvis, hlv⟩ := exists_loaded hall hus he
      rw [Option.bind_some, hlv.id] at hp
      obtain rfl := Uid.eq_of_parse?_text hp
      rw [hlv.id] at hself habove
      refine ⟨⟨hvis, fun hpu => hself (by rw [hpu, hl.id]), fun hfew => ?_, fun hparent hsize name w hname hw => ?_⟩,
        congrArg some hlv.id⟩
      · obtain ⟨below, hclosed, hsub⟩ := hbelow hfew
        exact ⟨below, hclosed, fun hp => habove (hsub _ hp)⟩
      · obtain ⟨q, hq⟩ : ∃ q, q ∈ s.graph.edges u metaParent := by
          by_contra hnone
          exact hparent (OrderedSet.ext fun q => iff_of_false (fun hq => hnone ⟨q, hq⟩) OrderedSet.not_mem_empty)
        have hsome : t.parent?.isSome = true := by rw [parent?_of_loaded (hs.regular u) hl hq, Option.isSome_some]
        rw [← hl.typeName name (lists_of_declared hs.declared).1 ((hs.regular u).eq_of_named hname)] at hw
        exact hoccupied (hfree hsome) hsize w hw

/-- The parent that an update asks for, if it is not the one there is. -/
def changeOf (existing : EquipmentType) (parentId : Option String) : Option String :=
  (parentId.filter (· ≠ "")).filter fun p => existing.parent? ≠ some p

/-- What has been read and made sure of when a type is changed. -/
structure UpdateChecked (g : Graph) (id : String) (parentId : Option String) (as : List Attribute)
    (scopes : List String) (u : Uid) (existing : EquipmentType) (source : MetadataSource) (parent : Option Uid) :
    Prop where
  uid : Uid.parse? id = some u
  visible : u ∈ visibleTypes g scopes
  loaded : Loaded g u existing
  found : ∃ w, Uid.parse? existing.sourceId = some w ∧ g.contains w = true ∧
    isSourceIn g existing.scopes.items w = true ∧ ReadsSource g w source
  movable : ∀ p, parent = some p → Movable g scopes u parentId p
  rules : Admission.checkUpdate source.columns existing (parentId.filter (· ≠ "")) as = .ok ⟨⟩
  canonical : ∀ p, parent = some p → changeOf existing parentId = some p.text
  parent : parent = (changeOf existing parentId).bind Uid.parse? ∧ parent.isSome = (changeOf existing parentId).isSome

/-- The request that changes a type. -/
def updateRequest (u : Uid) (parent : Option Uid) (as : List Attribute) (scopes : List String) : Store.Request :=
  .of none [⟨none, changeQuads (.node u) parent scopes ++ allAttributeQuads (.node u) as, []⟩]

/-- An update fails before it has declared or written anything, or fails with the type declared anew, or writes what
is new and reads the type back. -/
theorem updateType_cases {id : String} {parentId : Option String} {as : List Attribute}
    {res : Except Failure EquipmentType} (hs : Coherent s.graph)
    (h : perform (updateType r k id parentId as scopes) s = (res, s')) :
    (s'.graph = s.graph ∧ ∃ e, res = .error e) ∨ ∃ u existing source parent,
      UpdateChecked s.graph id parentId as scopes u existing source parent ∧
        ((s'.graph = declaredIn s.graph existing.typeName (existing.attributes ++ as) ∧ ∃ e, res = .error e) ∨
          ∃ receipt, execute (declaredIn s.graph existing.typeName (existing.attributes ++ as))
            (updateRequest u parent as scopes) = .ok (receipt, s'.graph) ∧
              ∀ bs, assignIds receipt as = .ok bs → res = (perform (typeById u.text scopes) s').1) := by
  unfold updateType at h
  rcases (Yields.verify r k _).step h with ⟨rfl, he⟩ | ⟨⟨⟩, -, -, h⟩
  · exact .inl ⟨rfl, he⟩
  rcases (typeById_yields _ _).step h with ⟨rfl, he⟩ | ⟨existing, ⟨u, hu, hv, hl⟩, -, h⟩
  · exact .inl ⟨rfl, he⟩
  rcases (sourceById_yields _ _).step h with ⟨rfl, he⟩ | ⟨source, hsource, -, h⟩
  · exact .inl ⟨rfl, he⟩
  rcases (admitParent_yields hs hv hl _).step h with ⟨rfl, he⟩ | ⟨⟨⟩, hadmissible, -, h⟩
  · exact .inl ⟨rfl, he⟩
  rcases (Yields.check _).step h with ⟨rfl, he⟩ | ⟨⟨⟩, hrules, -, h⟩
  · exact .inl ⟨rfl, he⟩
  rcases (typeUid_yields _).step h with ⟨rfl, he⟩ | ⟨u', hu', -, h⟩
  · exact .inl ⟨rfl, he⟩
  rw [hl.id] at hu'
  obtain rfl := Uid.eq_of_parse?_text hu'
  rcases (parentUid_yields _).step h with ⟨rfl, he⟩ | ⟨parent, hparent, -, h⟩
  · exact .inl ⟨rfl, he⟩
  have hmovable : ∀ p, parent = some p → Movable s.graph scopes u' parentId p := by
    intro p hp
    have hp' := hp
    rw [hparent.1] at hp'
    obtain ⟨text, htext, hparse⟩ := Option.bind_eq_some_iff.1 hp'
    rw [Option.filter_eq_some_iff, Option.filter_eq_some_iff] at htext
    exact ⟨(hadmissible p hp').1, text, htext.1.1, hparse⟩
  have hcanonical : ∀ p, parent = some p → changeOf existing parentId = some p.text := by
    intro p hp
    rw [hparent.1] at hp
    exact (hadmissible p hp).2
  have hchecked : UpdateChecked s.graph id parentId as scopes u' existing source parent :=
    ⟨hu, hv, hl, hsource, hmovable, hrules, hcanonical, hparent⟩
  rcases perform_alter_bind h with ⟨he | he, hres⟩ | ⟨s₁, hd, h⟩
  · exact .inl ⟨he, hres⟩
  · exact .inr ⟨u', existing, source, parent, hchecked, .inl ⟨he, hres⟩⟩
  have hdeclared : s₁.graph = declaredIn s.graph existing.typeName (existing.attributes ++ as) := by
    rw [declaredIn, hd]
  refine .inr ⟨u', existing, source, parent, hchecked, ?_⟩
  rw [← hdeclared]
  rcases perform_execute_bind h with ⟨he, hres⟩ | ⟨receipt, s₂, he, h⟩
  · exact .inl ⟨he, hres⟩
  rw [discard_bind] at h
  obtain ⟨rfl, -⟩ := Yields.cases (P := fun _ => True) ((Yields.reading _).bind fun _ _ =>
    (typeById_yields _ _).mono fun _ _ => trivial) h
  refine .inr ⟨receipt, he, fun bs hbs => ?_⟩
  rw [hbs, perform_bind, perform_reading, hl.id] at h
  exact congrArg Prod.fst h.symm

theorem updateType_step {id : String} {parentId : Option String} {as : List Attribute}
    {res : Except Failure EquipmentType} (hs : Coherent s.graph)
    (h : perform (updateType r k id parentId as scopes) s = (res, s')) :
    Step r s (.updateType k id parentId as scopes) s' ∧ Coherent s'.graph := by
  rcases updateType_cases hs h with ⟨he, -⟩ | ⟨u, existing, source, parent, hchecked, hwrite⟩
  · exact Step.of_eq hs he
  have hr : Redeclared s.graph (declaredIn s.graph existing.typeName (existing.attributes ++ as)) :=
    (declareAll_ok _ _).1
  have hd := declared_of_attributes hs.declared existing.typeName (existing.attributes ++ as)
  rcases hwrite with ⟨he, -⟩ | ⟨receipt, he, -⟩
  · rw [← he] at hr
    exact Step.redeclared hs hr (he ▸ hd)
  · obtain ⟨hi, hp, hm⟩ := typeChanged_of_execute (hr.intact hs.intact) hd he
    have hm := hm.of_redeclared hr
    exact ⟨.changed k id parentId as scopes u parent s' hchecked.uid hchecked.visible hchecked.movable hm,
      hs.typeChanged hi (hd.of_predicates hp) (mem_visibleTypes_values (hs.regular u) hchecked.visible) hm⟩

/-- A deletion that fails leaves the graph as it is, and any other empties a type that it has found free to go. -/
theorem deleteType_cases {name scope : String} {res : Except Failure Unit} (hs : Coherent s.graph)
    (h : perform (deleteType r k name scope) s = (res, s')) :
    (s'.graph = s.graph ∧ ∃ e, res = .error e) ∨
      ∃ u, Deletable s.graph scope name u ∧ Cleared [u] s.graph s'.graph := by
  unfold deleteType at h
  rcases (Yields.verify r k _).step h with ⟨rfl, he⟩ | ⟨⟨⟩, -, -, h⟩
  · exact .inl ⟨rfl, he⟩
  rcases (typeByName_yields _ _).step h with ⟨rfl, he⟩ | ⟨existing, ⟨u, hu, hin, hl⟩, -, h⟩
  · exact .inl ⟨rfl, he⟩
  rcases (types_yields _).step h with ⟨rfl, he⟩ | ⟨all, ⟨us, hus, hall⟩, -, h⟩
  · exact .inl ⟨rfl, he⟩
  rcases (hasInstances_yields _ _).step h with ⟨rfl, he⟩ | ⟨occupied, hoccupied, -, h⟩
  · exact .inl ⟨rfl, he⟩
  rcases (Yields.check _).step h with ⟨rfl, he⟩ | ⟨⟨⟩, hcheck, -, h⟩
  · exact .inl ⟨rfl, he⟩
  rcases (typeUid_yields _).step h with ⟨rfl, he⟩ | ⟨u', hu', -, h⟩
  · exact .inl ⟨rfl, he⟩
  rw [hl.id] at hu'
  obtain rfl := Uid.eq_of_parse?_text hu'
  obtain ⟨hchildren, hvacant⟩ := Admission.vacant_of_checkDeletion hcheck
  have hscope : .str scope ∈ s.graph.values u' scopes := by
    obtain ⟨_, hmem, hscope⟩ := inScopes_iff.1 hin
    rwa [List.mem_singleton.1 hmem] at hscope
  have hdeletable : Deletable s.graph scope name u' := by
    refine ⟨hu, hscope, fun v hv hvs => ?_, fun hsize w hw hws => ?_⟩
    · have hin := inScopes_iff.2 ⟨scope, List.mem_singleton_self scope, hvs⟩
      have hvis := visible_of_values ((hs.regular v).typed u' hv) hin
      obtain ⟨t, ht, hlt⟩ := forall₂_right hall (hus.mem_iff.2 hvis)
      have hparent := parent?_of_loaded (hs.regular v) hlt hv
      rw [← hl.id] at hparent
      exact absurd (List.any_eq_true.2 ⟨t, ht, decide_eq_true hparent⟩) (Bool.eq_false_iff.1 hchildren)
    · have hnone := hoccupied hvacant hsize w hw
      rw [inScopes_iff.2 ⟨scope, List.mem_singleton_self scope, hws⟩] at hnone
      cases hnone
  rcases perform_execute_bind h with ⟨he, hres⟩ | ⟨receipt, s₁, he, h⟩
  · exact .inl ⟨he, hres⟩
  · cases h
    exact .inr ⟨u', hdeletable, typeCleared_of_execute hs.intact he⟩

theorem deleteType_step {name scope : String} {res : Except Failure Unit} (hs : Coherent s.graph)
    (h : perform (deleteType r k name scope) s = (res, s')) :
    Step r s (.deleteType k name scope) s' ∧ Coherent s'.graph := by
  rcases deleteType_cases hs h with ⟨he, -⟩ | ⟨u, hu, hc⟩
  · exact Step.of_eq hs he
  · refine ⟨.deleted k name scope u s' hu hc, hs.cleared (fun x hx => ?_) hc⟩
    obtain rfl := List.mem_singleton.1 hx
    exact (hs.regular x).not_marked (List.ne_nil_of_mem hu.named) _

theorem sourceByName_same (name : String) : Yields (sourceByName? name scopes) s fun _ => True := by
  refine Yields.map (P := fun _ => True) ?_ fun _ _ => trivial
  exact (Yields.read _ _ _).bind fun _ _ => (Yields.reading _).mono fun _ _ => trivial

theorem upsertSource_cases {m : MetadataSource} {res : Except Failure MetadataSource}
    (h : perform (upsertSource m) s = (res, s')) : s'.graph = s.graph ∨ ∃ receipt, execute s.graph
      (.of (some ⟨"UpsertMetadata", [], [ownSource m]⟩) [sourceMutation m]) = .ok (receipt, s'.graph) := by
  unfold upsertSource at h
  simp only [discard_bind] at h
  exact perform_write (fun receipt s₂ => (sourceByName_same _).bind fun found _ => by
    split
    · exact Yields.pure trivial
    · exact Yields.throw _) h

theorem upsertSource_step {m : MetadataSource} {res : Except Failure MetadataSource} (hs : Coherent s.graph)
    (h : perform (upsertSource m) s = (res, s')) : Step r s (.upsertSource m) s' ∧ Coherent s'.graph := by
  rcases upsertSource_cases h with he | ⟨receipt, he⟩
  · exact Step.of_eq hs he
  · obtain ⟨hi, hp, us, hm⟩ := sourceWritten_of_execute hs.intact hs.declared he
    exact ⟨.source m us s' hm, hs.sourceWritten hi (hs.declared.of_predicates hp) hm⟩

/-- An upsert that fails leaves the graph as it is, and any other writes its record. -/
theorem upsertInstance_cases {scope name : String} {payload : List (String × Json)} {now : Int}
    {res : Except Failure Record} (hs : Coherent s.graph)
    (h : perform (upsertInstance r k scope name payload now) s = (res, s')) :
    (s'.graph = s.graph ∧ ∃ e, res = .error e) ∨ ∃ t record parent own stub,
      (perform (typeByName name [scope]) s).1 = .ok t ∧ res = .ok record ∧
        record.parent? t.typeName t.parentTypeName = .ok parent ∧ s'.graph.Intact ∧ Declared s'.graph ∧
          InstanceWritten s.graph s'.graph scope t.typeName record.identifier parent own stub ∧
            RecordStored s.graph s'.graph scope ∧ SameSchema s.graph s'.graph := by
  unfold upsertInstance at h
  rcases (Yields.verify r k _).step h with ⟨rfl, he⟩ | ⟨⟨⟩, -, -, h⟩
  · exact .inl ⟨rfl, he⟩
  rcases (typeByName_yields _ _).step h with ⟨rfl, he⟩ | ⟨t, -, ht, h⟩
  · exact .inl ⟨rfl, he⟩
  rcases (Yields.check _).step h with ⟨rfl, he⟩ | ⟨record, hbind, -, h⟩
  · exact .inl ⟨rfl, he⟩
  rcases (Yields.check _).step h with ⟨rfl, he⟩ | ⟨request, hreq, -, h⟩
  · exact .inl ⟨rfl, he⟩
  rw [discard_bind] at h
  rcases perform_execute_bind h with ⟨he, hres⟩ | ⟨receipt, s₁, he, h⟩
  · exact .inl ⟨he, hres⟩
  cases h
  have hfields := fun f hf => Record.predicate_of_bind (f := f) hbind hf
  obtain ⟨hi, hp, parent, own, stub, hparent, hm⟩ := instanceWritten_of_execute hs.intact hs.declared hfields hreq he
  have hstored := recordStored_of_execute hs.intact hs.declared hfields hreq he
  exact .inr ⟨t, record, parent, own, stub, by rw [ht], rfl, hparent, hi, hs.declared.of_predicates hp, hm, hstored,
    sameSchema_of_execute he⟩

theorem upsertInstance_step {scope name : String} {payload : List (String × Json)} {now : Int}
    {res : Except Failure Record} (hs : Coherent s.graph)
    (h : perform (upsertInstance r k scope name payload now) s = (res, s')) :
    Step r s (.upsertInstance k scope name payload now) s' ∧ Coherent s'.graph := by
  rcases upsertInstance_cases hs h with ⟨he, -⟩ | ⟨t, record, parent, own, stub, ht, rfl, hp, hi, hd, hm, -⟩
  · exact Step.of_eq hs he
  · have hr : (perform (r.upsertInstance k scope name payload now) s).1 = .ok record := by rw [h]
    exact ⟨.written k scope name payload now t record parent own stub s' ht hr hp hm, hs.instanceWritten hi hd hm⟩

theorem purgedIn_of_deleteInstances {elapsedMs : Nat → Nat} {scope : String} {res : Except Failure DeletionReport}
    (hs : Coherent s.graph) (h : perform (deleteInstances r k elapsedMs scope) s = (res, s')) :
    PurgedIn scope s.graph s'.graph := by
  unfold deleteInstances at h
  rcases (Yields.verify r k _).step h with ⟨rfl, -⟩ | ⟨⟨⟩, -, -, h⟩
  · exact .refl
  rw [perform_bind, perform_get] at h
  exact perform_deleteBatches hs.intact h

theorem deleteInstances_step {elapsedMs : Nat → Nat} {scope : String} {res : Except Failure DeletionReport}
    (hs : Coherent s.graph) (h : perform (deleteInstances r k elapsedMs scope) s = (res, s')) :
    Step r s (.deleteInstances k elapsedMs scope) s' ∧ Coherent s'.graph := by
  have hm := (purgedIn_of_deleteInstances hs h).purged
  exact ⟨.purged k elapsedMs scope s' hm, hs.instancesPurged hm⟩

/-- What a change makes of a store is one step, and leaves what holds of every inventory. -/
theorem Change.step (r : Repository) (c : Change) (hs : Coherent s.graph) :
    Step r s c (c.run r s) ∧ Coherent (c.run r s).graph := by
  cases c with
  | upsertSource m => exact upsertSource_step hs rfl
  | createType k t => exact createType_step hs rfl
  | updateType k id parent attributes scopes => exact updateType_step hs rfl
  | deleteType k name scope => exact deleteType_step hs rfl
  | upsertInstance k scope name payload now => exact upsertInstance_step hs rfl
  | deleteInstances k elapsedMs scope => exact deleteInstances_step hs rfl

/-- A node that is there and is no source stays as it is, unless it is a type that is changed or deleted, or instances
are deleted. -/
theorem Step.present {u : Uid} (h : Step r s c s') (hc : s.graph.contains u = true)
    (hm : .str metadataMarker ∉ s.graph.values u typeName) : Kept s.graph s'.graph u ∨
    (∃ k id parentId as scopes parent, c = .updateType k id parentId as scopes ∧ Uid.parse? id = some u ∧
      u ∈ visibleTypes s.graph scopes ∧ (∀ p, parent = some p → Movable s.graph scopes u parentId p) ∧
        TypeChanged s.graph s'.graph u parent scopes) ∨
    (∃ k name scope, c = .deleteType k name scope ∧ Deletable s.graph scope name u ∧
      Cleared [u] s.graph s'.graph) ∨
    ∃ k elapsedMs scope, c = .deleteInstances k elapsedMs scope ∧ InstancesPurged s.graph s'.graph := by
  cases h with
  | kept _ _ h => exact .inl (h.kept u)
  | source m us _ h =>
      refine .inl (h.others u fun hmem => ?_)
      obtain ⟨hmark, -⟩ := Bool.and_eq_true_iff.1 (h.known u hmem hc)
      exact hm (of_decide_eq_true hmark)
  | made k t v w parent _ _ h =>
      refine .inl (h.others u ?_)
      rintro rfl
      exact h.new hc
  | changed k id parentId as scopes v parent _ hv hvis hp h =>
      by_cases huv : u = v
      · subst huv
        exact .inr (.inl ⟨k, id, parentId, as, scopes, parent, rfl, hv, hvis, hp, h⟩)
      · exact .inl (h.others u huv)
  | deleted k name scope v _ hv h =>
      by_cases huv : u = v
      · subst huv
        exact .inr (.inr (.inl ⟨k, name, scope, rfl, hv, h⟩))
      · exact .inl (kept_of_cleared h (by simpa using huv))
  | written k scope name payload now t record parent own stub _ _ _ _ h => exact .inl (h.kept hc)
  | purged k elapsedMs scope _ h => exact .inr (.inr (.inr ⟨k, elapsedMs, scope, rfl, h⟩))

/-- Whatever is a type afterwards was so before, and is as it was. -/
def KeepsTypes (g g' : Graph) : Prop := ∀ u, g'.values u metaType ≠ [] → Kept g g' u

theorem Step.types (hs : Coherent s.graph) (h : Step r s c s') : KeepsTypes s.graph s'.graph ∨
    (∃ k t u w parent, c = .createType k t ∧ Creatable s.graph t w parent ∧
      TypeMade s.graph s'.graph u t.typeName w parent t.scopes.items) ∨
    ∃ k id parentId as scopes u parent, c = .updateType k id parentId as scopes ∧ Uid.parse? id = some u ∧
      u ∈ visibleTypes s.graph scopes ∧ (∀ p, parent = some p → Movable s.graph scopes u parentId p) ∧
        TypeChanged s.graph s'.graph u parent scopes := by
  cases h with
  | kept _ _ h => exact .inl fun u _ => h.kept u
  | source m us _ h =>
      refine .inl fun u hu => h.others u fun hmem => ?_
      rw [h.values u hmem _ (by decide) (by decide) (by decide)] at hu
      obtain ⟨hm, -⟩ := Bool.and_eq_true_iff.1 (h.known u hmem (contains_of_values hu))
      exact (hs.regular u).not_marked hu _ (of_decide_eq_true hm)
  | made k t u w parent _ hc h => exact .inr (.inl ⟨k, t, u, w, parent, rfl, hc, h⟩)
  | changed k id parentId as scopes u parent _ hu hv hp h =>
      exact .inr (.inr ⟨k, id, parentId, as, scopes, u, parent, rfl, hu, hv, hp, h⟩)
  | deleted k name scope u _ _ h =>
      exact .inl fun v hv => kept_of_cleared h fun hmem => hv (idle_of_cleared h hmem _ (by decide)).1
  | written k scope name payload now t record parent own stub _ _ _ _ h =>
      refine .inl fun u hu => h.others u (fun ho => ?_) fun hst => ?_
      · have hp := h.owned
        rw [ho] at hp
        exact hu hp.2.1.plain
      · have hp := h.stubbed
        rw [hst] at hp
        cases parent with
        | none => cases hp
        | some k => exact hu hp.2.1.plain
  | purged k elapsedMs scope _ h => exact .inl fun u hu => kept_of_purged h (by decide) hu

/-- Whatever is an instance afterwards was so before, and is as it was. -/
def KeepsInstances (g g' : Graph) : Prop := ∀ u, .str equipmentMarker ∈ g'.values u typeName → Kept g g' u

theorem Step.instances (hs : Coherent s.graph) (h : Step r s c s') : KeepsInstances s.graph s'.graph ∨
    ∃ k scope name payload now t record parent own stub, c = .upsertInstance k scope name payload now ∧
      (perform (typeByName name [scope]) s).1 = .ok t ∧
      (perform (r.upsertInstance k scope name payload now) s).1 = .ok record ∧
      record.parent? t.typeName t.parentTypeName = .ok parent ∧
      InstanceWritten s.graph s'.graph scope t.typeName record.identifier parent own stub := by
  cases h with
  | kept _ _ h => exact .inl fun u _ => h.kept u
  | source m us _ h =>
      refine .inl fun u hu => h.others u fun hmem => ?_
      rw [h.marked u hmem] at hu
      exact absurd (List.mem_singleton.1 hu) (by decide)
  | made k t u w parent _ hc h =>
      refine .inl fun v hv => h.others v ?_
      rintro rfl
      rw [h.unmarked.1] at hv
      cases hv
  | changed k id parentId as scopes u parent _ hu hvis hp h =>
      refine .inl fun v hv => h.others v ?_
      rintro rfl
      rw [h.values _ (by decide) (by decide)] at hv
      exact (hs.regular v).not_marked (mem_visibleTypes_values (hs.regular v) hvis) _ hv
  | deleted k name scope u _ _ h =>
      refine .inl fun v hv => kept_of_cleared h fun hmem => ?_
      rw [(idle_of_cleared h hmem _ (by decide)).1] at hv
      cases hv
  | written k scope name payload now t record parent own stub _ ht hr hp h =>
      exact .inr ⟨k, scope, name, payload, now, t, record, parent, own, stub, rfl, ht, hr, hp, h⟩
  | purged k elapsedMs scope _ h => exact .inl fun u hu => kept_of_purged h (by decide) (List.ne_nil_of_mem hu)

theorem Step.kept_or_stamped {u : Uid} (hs : Coherent s.graph) (h : Step r s c s')
    (hu : .str equipmentMarker ∈ s'.graph.values u typeName) :
    Kept s.graph s'.graph u ∨ ¬s.graph.contains u = true ∧ ∃ scope name id, Stamped s'.graph scope name id u := by
  rcases h.instances hs with hk | ⟨k, scope, name, payload, now, t, record, parent, own, stub, rfl, -, -, -, hm⟩
  · exact .inl (hk u hu)
  · by_cases hc : s.graph.contains u = true
    · exact .inl (hm.kept hc)
    · obtain ⟨name, id, hst⟩ := hm.stamped hc (p := typeName) (by decide) (List.ne_nil_of_mem hu)
      exact .inr ⟨hc, scope, name, id, hst⟩

theorem Step.kept_or_purged {u : Uid} (hs : Coherent s.graph) (h : Step r s c s') (hc : s.graph.contains u = true)
    (hm : .str metadataMarker ∉ s.graph.values u typeName) (ht : s.graph.values u metaType = []) :
    Kept s.graph s'.graph u ∨
      ∃ k elapsedMs scope, c = .deleteInstances k elapsedMs scope ∧ InstancesPurged s.graph s'.graph := by
  rcases h.present hc hm with hk | ⟨k, id, parentId, as, into, parent, rfl, -, hv, -⟩ |
    ⟨k, name, scope, rfl, hd, -⟩ | hp
  · exact .inl hk
  · exact absurd ht (mem_visibleTypes_values (hs.regular u) hv)
  · exact absurd ht (List.ne_nil_of_mem hd.named)
  · exact .inr hp

theorem Step.instance_kept_or_purged {u : Uid} (hs : Coherent s.graph) (h : Step r s c s')
    (hc : s.graph.contains u = true) (hu : .str equipmentMarker ∈ s.graph.values u typeName ∨ Idle s.graph u) :
    Kept s.graph s'.graph u ∨
      ∃ k elapsedMs scope, c = .deleteInstances k elapsedMs scope ∧ InstancesPurged s.graph s'.graph := by
  have hreg := hs.regular u
  refine h.kept_or_purged hs hc ?_ ?_
  · intro hm
    rcases hu with hu | hu
    · exact absurd (hreg.eq_of_marked hm hu) (by decide)
    · rw [(hu typeName (by decide)).1] at hm
      cases hm
  · rcases hu with hu | hu
    · by_contra ht
      exact hreg.not_marked ht _ hu
    · exact (hu metaType (by decide)).1

theorem Step.links (h : Step r s c s') :
    (∀ u v, v ∈ s'.graph.edges u parent → v ∈ s.graph.edges u parent) ∨
      ∃ k scope name payload now t record parent own stub, c = .upsertInstance k scope name payload now ∧
        (perform (typeByName name [scope]) s).1 = .ok t ∧
        (perform (r.upsertInstance k scope name payload now) s).1 = .ok record ∧
        record.parent? t.typeName t.parentTypeName = .ok parent ∧
        InstanceWritten s.graph s'.graph scope t.typeName record.identifier parent own stub := by
  cases h with
  | kept _ _ h =>
      obtain ⟨ps, ts, he⟩ := h
      rw [he]
      exact .inl fun _ _ hv => hv
  | source m us _ h => exact .inl fun u _ hv => h.links u ▸ hv
  | made k t v w q _ _ h => exact .inl fun u _ hv => h.links u ▸ hv
  | changed k id parentId as into v q _ _ _ _ h => exact .inl fun u _ hv => h.links u ▸ hv
  | deleted k name scope v _ _ h => exact .inl fun _ _ hv => h.of_mem_edges hv
  | written k scope name payload now t record q own stub _ ht hr hp h =>
      exact .inr ⟨k, scope, name, payload, now, t, record, q, own, stub, rfl, ht, hr, hp, h⟩
  | purged k elapsedMs scope _ h => exact .inl fun _ _ hv => h.of_mem_edges hv

end Inventory.Repository
