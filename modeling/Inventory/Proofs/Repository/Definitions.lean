import Inventory.Proofs.Repository.Described

/-!
Types as they are stored once they have been defined or updated, with all others as they were.
-/

namespace Inventory.Repository

open Inventory.Graph Store Vocabulary Outcome Hierarchy Admission

variable {r : Repository} {k : Guard} {s s' : Store} {g g' g₁ : Graph} {u v w : Uid} {us vs : List Uid}
  {t t' existing : EquipmentType} {m : MetadataSource} {as : List Attribute} {name : String}
  {scopes : List String} {parent : Option Uid} {all : List EquipmentType}

theorem Redeclared.same (h : Redeclared g g') (w : Uid) : Same g g' w := by
  obtain ⟨ps, ts, rfl⟩ := h
  exact .refl _ _

theorem Redeclared.contains (h : Redeclared g g') (w : Uid) : g'.contains w = g.contains w := by
  obtain ⟨ps, ts, rfl⟩ := h
  rfl

theorem TypeWritten.of_redeclared (h : Redeclared g g₁) (hw : TypeWritten g₁ g' u vs name w parent scopes as) :
    TypeWritten g g' u vs name w parent scopes as := by
  obtain ⟨ps, ts, rfl⟩ := h
  exact ⟨hw.beyond, hw.others, hw.name, hw.source, hw.parent, hw.scopes, hw.attributes, hw.stored⟩

theorem TypeExtended.of_redeclared (h : Redeclared g g₁) (hw : TypeExtended g₁ g' u vs parent scopes as) :
    TypeExtended g g' u vs parent scopes as := by
  obtain ⟨ps, ts, rfl⟩ := h
  exact ⟨hw.beyond, hw.others, hw.values, hw.edges, hw.parent, hw.scopes, hw.attributes, hw.stored⟩

/-- A creation leaves every node as it is, or writes the type and gives it under the ids of its nodes. -/
theorem createType_written {res : Except Failure EquipmentType} (hs : Coherent s.graph)
    (h : perform (createType r k t) s = (res, s')) :
    (Redeclared s.graph s'.graph ∧ ∃ e, res = .error e) ∨ ∃ source all w parent u vs,
      CreateChecked s.graph t source all w parent ∧
        TypeWritten s.graph s'.graph u vs t.typeName w parent t.scopes.items t.attributes ∧
          res = .ok { named t source all with id := u.text, attributes := withIds t.attributes vs } := by
  rcases createType_cases h with ⟨he, hres⟩ | ⟨source, all, w, parent, hchecked, hwrite⟩
  · exact .inl ⟨.of_eq he, hres⟩
  have hr : Redeclared s.graph (declaredIn s.graph t.typeName t.attributes) := (declareAll_ok _ _).1
  have hd := declared_of_attributes hs.declared t.typeName t.attributes
  rcases hwrite with ⟨he, hres⟩ | ⟨receipt, he, hres⟩
  · exact .inl ⟨he ▸ hr, hres⟩
  · obtain ⟨u, vs, hw, hu, hids⟩ := typeWritten_of_execute (hr.intact hs.intact) hd he
    exact .inr ⟨source, all, w, parent, u, vs, hchecked, hw.of_redeclared hr, hres u _ hu hids⟩

/-- An update leaves every node as it is, or extends the type and reads it back. -/
theorem updateType_written {id : String} {parentId : Option String} {res : Except Failure EquipmentType}
    (hs : Coherent s.graph) (h : perform (updateType r k id parentId as scopes) s = (res, s')) :
    (Redeclared s.graph s'.graph ∧ ∃ e, res = .error e) ∨ ∃ u existing source parent vs,
      UpdateChecked s.graph id parentId as scopes u existing source parent ∧
        TypeExtended s.graph s'.graph u vs parent scopes as ∧ res = (perform (typeById u.text scopes) s').1 := by
  rcases updateType_cases hs h with ⟨he, hres⟩ | ⟨u, existing, source, parent, hchecked, hwrite⟩
  · exact .inl ⟨.of_eq he, hres⟩
  have hr : Redeclared s.graph (declaredIn s.graph existing.typeName (existing.attributes ++ as)) :=
    (declareAll_ok _ _).1
  have hd := declared_of_attributes hs.declared existing.typeName (existing.attributes ++ as)
  rcases hwrite with ⟨he, hres⟩ | ⟨receipt, he, hres⟩
  · exact .inl ⟨he ▸ hr, hres⟩
  · have hc : (declaredIn s.graph existing.typeName (existing.attributes ++ as)).contains u = true := by
      rw [hr.contains]
      exact (mem_visibleTypes.1 hchecked.visible).1
    obtain ⟨vs, hw, hids⟩ := typeExtended_of_execute (hr.intact hs.intact) hd hc he
    exact .inr ⟨u, existing, source, parent, vs, hchecked, hw.of_redeclared hr, hres _ hids⟩

/-- Of the nodes that were there, none but a type has been changed, and that has kept its name. What is new beside it is
neither a type nor a source. -/
structure Beside (g g' : Graph) (u : Uid) : Prop where
  same : ∀ w, g.contains w = true → w ≠ u → Same g g' w
  type : g.contains u = true → g.values u metaType ≠ [] ∧ g'.values u metaType = g.values u metaType
  fresh : ∀ w, ¬g.contains w = true → w ≠ u → g'.values w metaType = [] ∧ g'.values w typeName = []

theorem TypeWritten.new (h : TypeWritten g g' u vs name w parent scopes as) (hg : g.Intact) (hv : v ∈ u :: vs) :
    ¬g.contains v = true := fun hc => Nat.not_lt.2 (hg.fresh v hc) (h.beyond v hv)

theorem TypeWritten.beside (h : TypeWritten g g' u vs name w parent scopes as) (hg : g.Intact) : Beside g g' u := by
  refine ⟨fun v hv _ => h.others v fun hmem => h.new hg hmem hv, fun hc => absurd hc (h.new hg List.mem_cons_self),
    fun v hv hne => ?_⟩
  by_cases hmem : v ∈ vs
  · obtain ⟨a, -, ha⟩ := forall₂_right h.stored hmem
    exact ⟨ha.unnamed, ha.unmarked⟩
  · have hs := h.others v (by simp [hne, hmem])
    rw [(hs _).1, (hs _).1, values_of_not_contains g _ hv, values_of_not_contains g _ hv]
    exact ⟨rfl, rfl⟩

theorem TypeExtended.beside (h : TypeExtended g g' u vs parent scopes as) (hg : g.Intact)
    (hu : g.values u metaType ≠ []) : Beside g g' u := by
  have hnew : ∀ v ∈ vs, ¬g.contains v = true := fun v hv hc => Nat.not_lt.2 (hg.fresh v hc) (h.beyond v hv)
  refine ⟨fun v hv hne => h.others v hne fun hmem => hnew v hmem hv, fun _ => ⟨hu, h.values _ (by decide)⟩,
    fun v hv hne => ?_⟩
  by_cases hmem : v ∈ vs
  · obtain ⟨a, -, ha⟩ := forall₂_right h.stored hmem
    exact ⟨ha.unnamed, ha.unmarked⟩
  · have hs := h.others v hne hmem
    rw [(hs _).1, (hs _).1, values_of_not_contains g _ hv, values_of_not_contains g _ hv]
    exact ⟨rfl, rfl⟩

theorem visible_iff_values (h : Regular g v) :
    v ∈ visibleTypes g scopes ↔ g.values v metaType ≠ [] ∧ g.inScopes scopes v = true :=
  ⟨fun hv => ⟨mem_visibleTypes_values h hv, (mem_visibleTypes.1 hv).2.2⟩, fun hv => visible_of_values hv.1 hv.2⟩

namespace Beside

variable (h : Beside g g' u) (hg : Coherent g)

include h

theorem nameOf (hc : g.contains w = true) : nameOf g' w = nameOf g w := by
  by_cases hw : w = u
  · subst hw
    rw [Repository.nameOf, (h.type hc).2]
    rfl
  · exact (h.same w hc hw).nameOf

include hg

theorem unmarked (hw : .str metadataMarker ∈ g.values w typeName) : w ≠ u := by
  rintro rfl
  exact (hg.regular w).not_marked (h.type (contains_of_mem_values hw)).1 _ hw

theorem source (hm : StoredSource g w m) : StoredSource g' w m :=
  hm.same (h.same w hm.contains (h.unmarked hg (hm.marked ▸ List.mem_singleton_self _)))

theorem storedType (hv : v ≠ u) (ht : StoredType g v t) : StoredType g' v t := by
  refine ht.same_of_parent (h.same v (contains_of_values ht.live) hv) (fun x hx => ?_) (fun x hx => ?_) fun x hx => ?_
  · obtain ⟨a, ha⟩ := ht.attribute hx
    refine h.same x ha.contains ?_
    rintro rfl
    exact (h.type ha.contains).1 ha.unnamed
  · obtain ⟨hmark, -⟩ := (hg.regular v).backed x hx
    exact (h.same x (contains_of_mem_values hmark) (h.unmarked hg hmark) _).1
  · exact h.nameOf (hg.intact.closed v metaParent x hx)

theorem definition (hv : v ≠ u) (hd : Definition g v t w m) : Definition g' v t w m := by
  refine ⟨h.storedType hg hv hd.type, ?_, h.source hg hd.source, hd.rules⟩
  rw [(h.same v (contains_of_values hd.type.live) hv _).2]
  exact hd.backed

/-- All is described still, if the one type is. -/
theorem described (hg' : Coherent g') (hd : Described g) (hu : ∃ t w m, Definition g' u t w m) : Described g' := by
  constructor
  · intro w hw
    have hne : w ≠ u := by
      rintro rfl
      obtain ⟨t, x, m, hdef⟩ := hu
      exact (hg'.regular w).not_marked hdef.type.live _ hw
    by_cases hc : g.contains w = true
    · rw [(h.same w hc hne _).1] at hw
      obtain ⟨m, hm⟩ := hd.sources w hw
      exact ⟨m, h.source hg hm⟩
    · rw [(h.fresh w hc hne).2] at hw
      cases hw
  · intro v hv
    by_cases hne : v = u
    · exact hne ▸ hu
    · by_cases hc : g.contains v = true
      · rw [(h.same v hc hne _).1] at hv
        obtain ⟨t, w, m, hdef⟩ := hd.types v hv
        exact ⟨t, w, m, h.definition hg hne hdef⟩
      · exact absurd (h.fresh v hc hne).1 hv

theorem visible_iff (hg' : Coherent g') (hv : v ≠ u) : v ∈ visibleTypes g' scopes ↔ v ∈ visibleTypes g scopes := by
  rw [visible_iff_values (hg'.regular v), visible_iff_values (hg.regular v)]
  by_cases hc : g.contains v = true
  · have hs := h.same v hc hv
    rw [(hs _).1, hs.inScopes]
  · rw [(h.fresh v hc hv).1, values_of_not_contains g _ hc]
    simp

end Beside

theorem bare_withIds (h : vs.length = as.length) : bare (withIds as vs) = bare as := by
  induction as generalizing vs with
  | nil => rfl
  | cons a as ih =>
      cases vs with
      | nil => cases h
      | cons v vs => exact congrArg (a.withId "" :: ·) (ih (Nat.succ.inj h))

/-- A definition as it is stored: with the id of its source as it is written, and an empty parent as none. -/
def canonical (t : EquipmentType) : EquipmentType :=
  { t with sourceId := ((Uid.parse? t.sourceId).map Uid.text).getD t.sourceId, parentId := t.parent? }

theorem nameOf_of_loaded (hg : Coherent g) (hv : v ∈ visibleTypes g scopes) (ht : Loaded g v t) :
    t.typeName = nameOf g v := by
  have hlive := mem_visibleTypes_values (hg.regular v) hv
  obtain ⟨n, hn⟩ := (hg.regular v).named.resolve_left hlive
  rw [ht.typeName n (lists_of_declared hg.declared).1 hn, nameOf, hn]

/-- The parent of a definition is a type that is there, and is named as it is. -/
theorem CreateChecked.parent_eq (h : CreateChecked g t m all w parent) (hg : Coherent g) :
    t.parent? = parent.map Uid.text ∧ (named t m all).parentTypeName = parent.map (nameOf g) ∧
      ∀ p, parent = some p → g.contains p = true := by
  obtain ⟨us, hus, hall⟩ := h.listed
  cases hp : t.parent? with
  | none =>
      have hnone : parent = none := by
        rw [h.parent.1, hp]
        rfl
      simp [hnone, named, hp]
  | some p =>
      obtain ⟨e, he, rfl⟩ := parent_of_checkCreation h.rules hp
      obtain ⟨v, hv, hl⟩ := exists_loaded hall hus he
      have hparent := h.parent
      rw [hp, hl.id] at hparent
      obtain ⟨x, hx⟩ := Option.isSome_iff_exists.1 hparent.2
      have hxv : x = v := by
        rw [hx] at hparent
        exact Uid.eq_of_parse?_text hparent.1.symm
      subst hxv
      refine ⟨by rw [hx, hl.id]; rfl, ?_, fun y hy => ?_⟩
      · obtain ⟨f, hf⟩ := Option.isSome_iff_exists.1 (List.find?_isSome.2 ⟨e, he, by simp⟩ :
          (all.find? (·.id == e.id)).isSome = true)
        have hid : f.id = e.id := by simpa using List.find?_some hf
        obtain ⟨y, hy, hly⟩ := exists_loaded hall hus (List.mem_of_find?_eq_some hf)
        have hyx : y = x := Uid.text_injective (by rw [← hly.id, hid, hl.id])
        subst hyx
        simp [named, hp, hf, hx, nameOf_of_loaded hg hy hly]
      · rw [hx] at hy
        cases hy
        exact (mem_visibleTypes.1 hv).1

theorem storedSource_of_reads (hg : Coherent g) (hd : Described g) (hin : isSourceIn g scopes w = true)
    (hr : ReadsSource g w m) : StoredSource g w m := by
  obtain ⟨m', hm'⟩ := hd.sources w (of_decide_eq_true (Bool.and_eq_true_iff.1 hin).1)
  rwa [hr.unique (hm'.reads hg.declared)]

theorem TypeWritten.definition (h : TypeWritten g g' u vs t.typeName w parent t.scopes.items t.attributes)
    (hg : Coherent g) (hd : Described g) (hc : CreateChecked g t m all w parent) :
    Definition g' u (canonical { named t m all with id := u.text, attributes := withIds t.attributes vs }) w m := by
  obtain ⟨hparent, hname, hpresent⟩ := hc.parent_eq hg
  have hb := h.beside hg.intact
  have hsource := storedSource_of_reads hg hd hc.placed hc.found
  have hsource' := hb.source hg hsource
  obtain ⟨ss, hss, hmem⟩ := foldl_put_texts t.scopes.items []
  refine ⟨⟨rfl, h.name, ⟨w, h.source, ?_, hsource'.name⟩, ⟨parent, h.parent, hparent, ?_⟩, ⟨ss, ?_, ?_, ?_⟩, ?_⟩, ?_,
    hsource', ?_⟩
  · simp [canonical, named, hc.uid]
  · rw [canonical, hname]
    cases parent with
    | none => rfl
    | some p => exact congrArg some (hb.nameOf (hpresent p rfl)).symm
  · obtain ⟨s, hs, -⟩ := inScopes_iff.1 (Bool.and_eq_true_iff.1 hc.placed).2
    exact List.ne_nil_of_mem ((hmem s).2 (.inl hs))
  · rw [h.scopes, ← hss]
    rfl
  · refine OrderedSet.ext fun s => ?_
    rw [OrderedSet.mem_ofList, hmem]
    simp [canonical, named, OrderedSet.mem_def]
  · rw [h.attributes]
    exact stored_withIds h.stored
  · simp [OrderedSet.mem_def, h.source]
  · refine (WellFormed.of_creation hc.rules).congr (bare_withIds h.stored.length_eq) ?_
    simp only [canonical, EquipmentType.parent?, named]
    rw [Option.filter_filter]
    simp

/-- A type with another parent, if one is asked for, more scopes, and more attributes behind its own. -/
def extend (t : EquipmentType) (parentId parentName : Option String) (scopes : List String) (as : List Attribute) :
    EquipmentType :=
  { t with
    parentId := (parentId.filter (· ≠ "")).or t.parentId
    parentTypeName := parentName.or t.parentTypeName
    scopes := t.scopes.insertAll scopes
    attributes := t.attributes ++ as }

/-- The parent that has been asked for is the one that is written, or the one there is. -/
theorem UpdateChecked.parentId_eq {id : String} {parentId : Option String}
    (h : UpdateChecked g id parentId as scopes u existing m parent) :
    (parentId.filter (· ≠ "")).or existing.parentId = (parent.map Uid.text).or existing.parentId := by
  cases hp : parent with
  | some x =>
      have hchange := h.canonical x hp
      rw [changeOf, Option.filter_eq_some_iff] at hchange
      rw [hchange.1]
      rfl
  | none =>
      have hchange := h.parent.2
      rw [hp, changeOf] at hchange
      cases hf : parentId.filter (· ≠ "") with
      | none => rfl
      | some q =>
          rw [hf, Option.filter_some] at hchange
          split at hchange
          · cases hchange
          · rename_i hsame
            have hq : existing.parent? = some q := by simpa using hsame
            rw [EquipmentType.parent?, Option.filter_eq_some_iff] at hq
            rw [hq.1]
            rfl

theorem Definition.source_eq (h : Definition g u t w m) :
    (g.edges u metaSource).items = [w] ∧ t.sourceId = w.text ∧ t.sourceName = m.sourceName := by
  obtain ⟨w', hw', hid, hname⟩ := h.type.source
  obtain rfl : w = w' := by
    have hover := h.backed
    rwa [OrderedSet.mem_def, hw', List.mem_singleton] at hover
  rw [h.source.name] at hname
  exact ⟨hw', hid, (Json.str.inj (List.singleton_inj.1 hname)).symm⟩

section Extended

variable {id : String} {parentId : Option String}

theorem UpdateChecked.definition (hc : UpdateChecked g id parentId as scopes u existing m parent) (hg : Coherent g)
    (hd : Described g) : ∃ w, Definition g u existing w m := by
  obtain ⟨t, w, m', hdef⟩ := hd.types u (mem_visibleTypes_values (hg.regular u) hc.visible)
  obtain rfl := hc.loaded.reads.unique (hdef.type.reads hg)
  obtain ⟨w', hw', -, -, hreads⟩ := hc.found
  rw [hdef.source_eq.2.1] at hw'
  obtain rfl := Uid.eq_of_parse?_text hw'
  obtain rfl := hreads.unique (hdef.source.reads hg.declared)
  exact ⟨_, hdef⟩

theorem UpdateChecked.wellFormed (hc : UpdateChecked g id parentId as scopes u existing m parent)
    (hrules : WellFormed m.columns existing) (parentName : Option String) (hlen : vs.length = as.length) :
    WellFormed m.columns (extend existing parentId parentName scopes (withIds as vs)) := by
  refine hrules.of_update hc.rules ?_ ?_
  · simp only [extend, bare_append, bare_withIds hlen]
  · simp only [extend, EquipmentType.parent?]
    cases hf : parentId.filter (· ≠ "") with
    | none => simp
    | some q =>
        have hq := (Option.filter_eq_some_iff.1 hf).2
        simp_all

theorem UpdateChecked.nameOf_parent {p : Option Uid} {x : Uid}
    (hc : UpdateChecked g id parentId as scopes u existing m parent) (hg : Coherent g) (hb : Beside g g' u)
    (hp : (g.edges u metaParent).items = p.toList) (hx : parent.or p = some x) : nameOf g' x = nameOf g x := by
  refine hb.nameOf ?_
  cases hq : parent with
  | some y =>
      rw [hq] at hx
      cases hx
      exact (mem_visibleTypes.1 (hc.movable _ hq).known).1
  | none =>
      rw [hq] at hx
      exact hg.intact.closed u metaParent x (by simp [OrderedSet.mem_def, hp, show p = some x from hx])

variable (h : TypeExtended g g' u vs parent scopes as)

include h

theorem TypeExtended.storedParent (hc : UpdateChecked g id parentId as scopes u existing m parent) (hg : Coherent g)
    (hb : Beside g g' u) (ht : StoredType g u existing) :
    ∃ p : Option Uid, (g'.edges u metaParent).items = p.toList ∧
      (parentId.filter (· ≠ "")).or existing.parentId = p.map Uid.text ∧
        (parent.map (nameOf g)).or existing.parentTypeName = p.map (nameOf g') := by
  obtain ⟨p, hp, hparent, hparentName⟩ := ht.parent
  refine ⟨parent.or p, ?_, ?_, ?_⟩
  · rw [h.parent, hp]
    cases parent <;> rfl
  · rw [hc.parentId_eq, hparent]
    cases parent <;> rfl
  · have hnames : (parent.or p).map (nameOf g') = (parent.or p).map (nameOf g) :=
      Option.map_congr fun x hx => hc.nameOf_parent hg hb hp hx
    rw [hnames, hparentName]
    cases parent <;> rfl

theorem TypeExtended.storedScopes (ht : StoredType g u existing) :
    ∃ ss : List String, ss ≠ [] ∧ g'.values u Vocabulary.scopes = ss.map .str ∧
      existing.scopes.insertAll scopes = .ofList ss := by
  obtain ⟨ss, hne, hss, hscopes⟩ := ht.scopes
  obtain ⟨ws, hws, hmem⟩ := foldl_put_texts scopes ss
  refine ⟨ws, ?_, ?_, ?_⟩
  · obtain ⟨s, hs⟩ := List.exists_mem_of_ne_nil ss hne
    exact List.ne_nil_of_mem ((hmem s).2 (.inr hs))
  · rw [h.scopes, hss, hws]
  · refine OrderedSet.ext fun s => ?_
    rw [hscopes]
    simp only [OrderedSet.mem_insertAll, OrderedSet.mem_ofList, hmem]

theorem TypeExtended.storedAttributes (hb : Beside g g' u) (ht : StoredType g u existing) :
    List.Forall₂ (StoredAttribute g') (g'.edges u metaAttribute).items (existing.attributes ++ withIds as vs) := by
  have hsame : ∀ v ∈ (g.edges u metaAttribute).items, Same g g' v := by
    intro v hv
    obtain ⟨a, ha⟩ := ht.attribute hv
    refine hb.same v ha.contains ?_
    rintro rfl
    exact ht.live ha.unnamed
  have hold : List.Forall₂ (StoredAttribute g') (g.edges u metaAttribute).items existing.attributes :=
    ((List.forall₂_and_left _ _).2 ⟨hsame, ht.attributes⟩).imp fun v a ha => ha.2.of_values fun p => (ha.1 p).1
  rw [h.attributes]
  exact List.rel_append hold (stored_withIds h.stored)

/-- A type that has been updated is stored as it was, with what has been given besides. -/
theorem TypeExtended.definition (hg : Coherent g) (hd : Described g)
    (hc : UpdateChecked g id parentId as scopes u existing m parent) :
    StoredType g u existing ∧ ∃ w, Definition g' u
      (extend existing parentId (parent.map (nameOf g)) scopes (withIds as vs)) w m := by
  obtain ⟨w, hdef⟩ := hc.definition hg hd
  have hb := h.beside hg.intact hdef.type.live
  have hsource := hb.source hg hdef.source
  have hedges : g'.edges u metaSource = g.edges u metaSource := h.edges _ (by decide) (by decide)
  obtain ⟨hw, hid, hname⟩ := hdef.source_eq
  refine ⟨hdef.type, w, ⟨hdef.type.id, ?_, ⟨w, ?_, hid, ?_⟩, h.storedParent hc hg hb hdef.type,
    h.storedScopes hdef.type, h.storedAttributes hb hdef.type⟩, ?_, hsource,
    hc.wellFormed hdef.rules _ h.stored.length_eq⟩
  · rw [h.values _ (by decide)]
    exact hdef.type.name
  · rw [hedges]
    exact hw
  · rw [hsource.name]
    exact congrArg (fun n => [Json.str n]) hname.symm
  · rw [hedges]
    exact hdef.backed

end Extended

/-- Whatever is done, types and sources stay stored in full, and types well formed. -/
theorem Change.described (r : Repository) (c : Change) (hs : Coherent s.graph) (hd : Described s.graph) :
    Described (c.run r s).graph := by
  have hs' := (c.step r hs).2
  cases c with
  | upsertSource m =>
      rcases upsertSource_cases (s := s) (m := m) rfl with he | ⟨receipt, he⟩
      · exact (Frame.of_redeclared (.of_eq he)).described hs hd
      · obtain ⟨us, hm, -⟩ := sourceStored_of_execute hs.intact he
        exact hm.described hs hs' hd
  | createType k t =>
      rcases createType_written (r := r) (k := k) (t := t) hs rfl with ⟨hr, -⟩ | ⟨m, all, w, parent, u, vs, hc, hw, -⟩
      · exact (Frame.of_redeclared hr).described hs hd
      · exact (hw.beside hs.intact).described hs hs' hd ⟨_, w, m, hw.definition hs hd hc⟩
  | updateType k id parentId as scopes =>
      rcases updateType_written (r := r) (k := k) hs rfl with ⟨hr, -⟩ | ⟨u, existing, m, parent, vs, hc, hw, -⟩
      · exact (Frame.of_redeclared hr).described hs hd
      · have hlive := mem_visibleTypes_values (hs.regular u) hc.visible
        obtain ⟨-, w, hdef⟩ := hw.definition hs hd hc
        exact (hw.beside hs.intact hlive).described hs hs' hd ⟨_, w, m, hdef⟩
  | deleteType k name scope =>
      rcases deleteType_cases (r := r) (k := k) hs rfl with ⟨he, -⟩ | ⟨u, hu, hc⟩
      · exact (Frame.of_redeclared (.of_eq he)).described hs hd
      · refine (Frame.of_cleared hc fun v hv => ?_).described hs hd
        rw [List.mem_singleton.1 hv]
        exact .inl (List.ne_nil_of_mem hu.named)
  | upsertInstance k scope name payload now =>
      rcases upsertInstance_cases (r := r) (k := k) hs rfl with
        ⟨he, -⟩ | ⟨t, record, parent, own, stub, -, -, -, -, -, -, hm, -⟩
      · exact (Frame.of_redeclared (.of_eq he)).described hs hd
      · exact (Frame.of_recorded hs' hm).described hs hd
  | deleteInstances k elapsedMs scope =>
      have hpurged : InstancesPurged s.graph ((Change.deleteInstances k elapsedMs scope).run r s).graph :=
        (purgedIn_of_deleteInstances hs rfl).purged
      exact described_of_purged hs hd hpurged

theorem described_after (hs : Coherent s.graph) (hd : Described s.graph) (cs : List Change) :
    Described (after r s cs).graph := by
  induction cs generalizing s with
  | nil => exact hd
  | cons c cs ih => exact ih (c.step r hs).2 (c.described r hs hd)

theorem described_bootstrapped (refusals : Refusals) : Described (bootstrapped refusals).graph := by
  have hidle := idle_bootstrapped refusals
  constructor
  · intro w hw
    rw [(hidle w typeName (by decide)).1] at hw
    cases hw
  · intro u hu
    exact absurd (hidle u metaType (by decide)).1 hu

end Inventory.Repository
