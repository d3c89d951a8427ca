import Inventory.Proofs.Repository.Coherence
import Inventory.Proofs.Repository.Rows

/-!
Types and sources as they are stored: what the cells of their nodes hold, and that their rows are loaded as just that.
-/

namespace Inventory.Repository

open Inventory.Graph Query Listing Entries Document Outcome Vocabulary

variable {g g' : Graph} {u v w : Uid} {t t' : EquipmentType} {a : Attribute} {m : MetadataSource} {p : String}

theorem isList_eq {b : Bool} (h : Declared g)
    (hq : ∃ q ∈ Schema.basePredicates, q.predicate = p ∧ q.list = b) : g.isList p = b := by
  obtain ⟨q, hq, rfl, rfl⟩ := hq
  exact isList_of_declared h hq

theorem keepsEdges_eq {b : Bool} (h : Declared g)
    (hq : ∃ q ∈ Schema.basePredicates, q.predicate = p ∧ q.list = b) : g.keepsEdges p = b := by
  obtain ⟨q, hq, rfl, rfl⟩ := hq
  exact keepsEdges_of_declared h hq

/-- A node that stores an attribute, and is no type, source or instance. -/
structure StoredAttribute (g : Graph) (v : Uid) (a : Attribute) : Prop where
  id : a.id = v.text
  name : g.values v attributeName = [.str a.name]
  type : g.values v attributeType = [.num (.int a.dataType.code)]
  displayed : g.values v attributeDisplayed = [.bool a.isDisplayed]
  identifier : g.values v attributeIdentifier = [.bool a.isIdentifier]
  parentIdentifier : g.values v attributeParentIdentifier = [.bool a.isParentIdentifier]
  searchable : g.values v attributeSearchable = [.bool a.isSearchable]
  mappedTo : g.values v attributeMappedTo = [.str a.mappedTo]
  unnamed : g.values v metaType = []
  unmarked : g.values v typeName = []

/-- The name that a node has as a type, which is empty once the type has been deleted. -/
def nameOf (g : Graph) (u : Uid) : String :=
  match g.values u metaType with
  | [.str n] => n
  | _ => ""

/-- A node that stores a type, with its attributes in the order of their nodes. -/
structure StoredType (g : Graph) (u : Uid) (t : EquipmentType) : Prop where
  id : t.id = u.text
  name : g.values u metaType = [.str t.typeName]
  source : ∃ w, (g.edges u metaSource).items = [w] ∧ t.sourceId = w.text ∧
    g.values w metadataSource = [.str t.sourceName]
  parent : ∃ p : Option Uid, (g.edges u metaParent).items = p.toList ∧ t.parentId = p.map Uid.text ∧
    t.parentTypeName = p.map (nameOf g)
  scopes : ∃ ss : List String, ss ≠ [] ∧ g.values u scopes = ss.map .str ∧ t.scopes = .ofList ss
  attributes : List.Forall₂ (StoredAttribute g) (g.edges u metaAttribute).items t.attributes

structure StoredSource (g : Graph) (w : Uid) (m : MetadataSource) : Prop where
  id : m.id = w.text
  marked : g.values w typeName = [.str metadataMarker]
  name : g.values w metadataSource = [.str m.sourceName]
  kind : g.values w metadataType = [.str m.kind.name]
  scope : g.values w scopes = [.str m.scope]
  columns : ∃ cs : List String, g.values w metadataAttributes = cs.map .str ∧ m.columns = .ofList cs
  untied : g.edges w metadataAttributes = .empty

section Rows

theorem fieldValue?_texts {ss : List String} (hp : p ≠ uid) (hl : g.isList p = true) (hv : g.values u p = ss.map .str)
    (he : g.edges u p = .empty) :
    g.fieldValue? u p = if ss = [] then none else some (.ofStrings ss) := by
  cases ss with
  | nil => simp [fieldValue?, hp, hv, he, OrderedSet.isEmpty, OrderedSet.empty]
  | cons s ss => simp [fieldValue?, hp, hl, hv, Json.ofStrings]

theorem list?_texts (ss : List String) : list? text? (.ofJson (.ofStrings ss)) = some ss := by
  rw [← reading_some]
  exact list?_text?_reading ss

theorem defaulted_texts {ss : List String} (hp : p ≠ uid) (hl : g.isList p = true)
    (hv : g.values u p = ss.map .str) (he : g.edges u p = .empty) :
    defaulted (list? text?) [] ((g.fieldValue? u p).map .ofJson) = some ss := by
  rw [fieldValue?_texts hp hl hv he]
  split
  · rename_i hs
    rw [hs]
    rfl
  · exact list?_texts ss

theorem fieldValue?_nameOf (hd : Declared g) (hr : Regular g u) :
    defaulted text? "" ((g.fieldValue? u metaType).map .ofJson) = some (nameOf g u) := by
  have hl := (lists_of_declared hd).1
  rcases hr.named with hnil | ⟨n, hn⟩
  · have hf : g.fieldValue? u metaType = none := by
      simp +decide [fieldValue?, hnil, hr.untied, OrderedSet.isEmpty, OrderedSet.empty]
    rw [hf, nameOf, hnil]
    rfl
  · rw [fieldValue?_single (by decide) hl hn, nameOf, hn]
    rfl

theorem linkedSource (hd : Declared g) {name : String} (hv : g.values w metadataSource = [.str name]) :
    Linked.ofDocument? (.ofJson (g.row w [.field idLabel uid, .field "Source" metadataSource])) =
      some ⟨w.text, name, ""⟩ := by
  have hf : g.fieldValue? w metadataSource = some (.str name) :=
    fieldValue?_single (by decide) (isList_eq hd (by decide +kernel)) hv
  rw [Linked.ofDocument?, row, record?_ofJson]
  simp [lookup_selectedAll, selectionLabel, selectedValue?, fieldValue?_uid, idLabel, hf, ofJson, Uid.toJson, required,
    defaulted, text?]

theorem linkedParent (hd : Declared g) (hr : Regular g u) :
    Linked.ofDocument? (.ofJson (g.row u [.field idLabel uid, .field "TypeName" metaType])) =
      some ⟨u.text, "", nameOf g u⟩ := by
  have hf := fieldValue?_nameOf hd hr
  rw [Linked.ofDocument?, row, record?_ofJson]
  simp [lookup_selectedAll, selectionLabel, selectedValue?, fieldValue?_uid, idLabel, ofJson, Uid.toJson, required,
    hf]
  rfl

/-- The row in which an attribute is reported. -/
def attributeRow (a : Attribute) : AttributeRow := ⟨a.dataType.code, { a with dataType := .string }⟩

theorem load_attributeRow (a : Attribute) : (attributeRow a).load = .ok a := by
  rw [AttributeRow.load, attributeRow, DataType.ofCode?_code]

theorem int?_code (t : DataType) : int? 64 (.ofJson (.num (.int t.code))) = some t.code := by
  cases t <;> rfl

theorem StoredAttribute.row (hd : Declared g) (h : StoredAttribute g v a) :
    AttributeRow.ofDocument? (.ofJson (g.row v attributeSelections)) = some (attributeRow a) := by
  have hname := fieldValue?_single (by decide) (isList_eq hd (by decide +kernel)) h.name
  have htype := fieldValue?_single (by decide) (isList_eq hd (by decide +kernel)) h.type
  have hdisplayed := fieldValue?_single (by decide) (isList_eq hd (by decide +kernel)) h.displayed
  have hidentifier := fieldValue?_single (by decide) (isList_eq hd (by decide +kernel)) h.identifier
  have hparent := fieldValue?_single (by decide) (isList_eq hd (by decide +kernel)) h.parentIdentifier
  have hsearchable := fieldValue?_single (by decide) (isList_eq hd (by decide +kernel)) h.searchable
  have hmapped := fieldValue?_single (by decide) (isList_eq hd (by decide +kernel)) h.mappedTo
  rw [AttributeRow.ofDocument?, Graph.row, record?_ofJson]
  simp [attributeSelections, lookup_selectedAll, selectionLabel, selectedValue?, fieldValue?_uid, idLabel, hname,
    htype, hdisplayed, hidentifier, hparent, hsearchable, hmapped, required, defaulted, int?_code]
  simp [attributeRow, ofJson, Uid.toJson, text?, bool?, h.id]

end Rows

theorem targets_forward (g : Graph) (u : Uid) (p : String) : g.targets u (forward p) = (g.edges u p).items := rfl

theorem StoredType.reads (hg : Coherent g) (h : StoredType g u t) : Reads g u t := by
  have hd := hg.declared
  obtain ⟨w, hw, hsource, hname⟩ := h.source
  obtain ⟨p, hp, hparent, hparentName⟩ := h.parent
  obtain ⟨ss, hne, hss, hscopes⟩ := h.scopes
  have htype : defaulted text? "" ((g.fieldValue? u metaType).map .ofJson) = some t.typeName := by
    rw [fieldValue?_single (by decide) (lists_of_declared hd).1 h.name]
    rfl
  have hsources : defaulted (list? Linked.ofDocument?) [] ((selectedValue? g u (typeSelections[2])).map .ofJson) =
      some [⟨w.text, t.sourceName, ""⟩] := by
    refine edgeRows_iff.2 ?_
    rw [targets_forward, hw]
    exact .cons (linkedSource hd hname) .nil
  have hparents : defaulted (list? Linked.ofDocument?) [] ((selectedValue? g u (typeSelections[3])).map .ofJson) =
      some (p.toList.map fun p => ⟨p.text, "", nameOf g p⟩) := by
    refine edgeRows_iff.2 ?_
    rw [targets_forward, hp, List.forall₂_map_right_iff, List.forall₂_same]
    exact fun v _ => linkedParent hd (hg.regular v)
  have hscopes' : defaulted (list? text?) [] ((g.fieldValue? u Vocabulary.scopes).map .ofJson) = some ss := by
    have hf : g.fieldValue? u Vocabulary.scopes = some (.ofStrings ss) := by
      obtain ⟨s, ss, rfl⟩ := List.exists_cons_of_ne_nil hne
      simp +decide [fieldValue?, (lists_of_declared hd).2.1, hss, Json.ofStrings]
    rw [hf]
    exact list?_texts ss
  have hattributes : defaulted (list? AttributeRow.ofDocument?) []
      ((selectedValue? g u (typeSelections[5])).map .ofJson) = some (t.attributes.map attributeRow) := by
    refine edgeRows_iff.2 ?_
    rw [List.forall₂_map_right_iff]
    exact h.attributes.imp fun v a ha => ha.row hd
  refine ⟨⟨u.text, t.typeName, [⟨w.text, t.sourceName, ""⟩], p.toList.map fun p => ⟨p.text, "", nameOf g p⟩, ss,
    t.attributes.map attributeRow⟩, ?_, ?_⟩
  · rw [TypeRow.ofDocument?, typeRow_fields]
    simp [required, htype, hsources, hparents, hscopes', hattributes]
    rfl
  · have hload : (t.attributes.map attributeRow).mapM AttributeRow.load = .ok t.attributes := by
      rw [mapM_ok_iff, List.forall₂_map_left_iff, List.forall₂_same]
      exact fun a _ => load_attributeRow a
    have hp' : p.toList.map (fun p => (⟨p.text, "", nameOf g p⟩ : Linked)) =
        (p.map fun p => (⟨p.text, "", nameOf g p⟩ : Linked)).toList := by
      cases p <;> rfl
    have hid := h.id
    refine bind_ok_iff.2 ⟨t.attributes, hload, congrArg Except.ok ?_⟩
    cases t
    simp only [hp', Option.head?_toList, Option.map_map, EquipmentType.mk.injEq]
    exact ⟨hid.symm, trivial, hparent.symm, hparentName.symm, hsource.symm, rfl, hscopes.symm, trivial⟩

theorem StoredSource.reads (hd : Declared g) (h : StoredSource g w m) : ReadsSource g w m := by
  obtain ⟨cs, hcs, hcolumns⟩ := h.columns
  have hname := fieldValue?_single (by decide) (isList_eq hd (by decide +kernel)) h.name
  have hkind := fieldValue?_single (by decide) (isList_eq hd (by decide +kernel)) h.kind
  have hscopes : defaulted (list? text?) [] ((g.fieldValue? w Vocabulary.scopes).map .ofJson) = some [m.scope] := by
    have hf : g.fieldValue? w Vocabulary.scopes = some (.ofStrings [m.scope]) := by
      simp +decide [fieldValue?, (lists_of_declared hd).2.1, h.scope, Json.ofStrings]
    rw [hf]
    exact list?_texts [m.scope]
  have hattributes := defaulted_texts (by decide) (isList_eq hd (by decide +kernel)) hcs h.untied
  refine ⟨⟨w.text, m.sourceName, m.kind.name, [m.scope], cs⟩, ?_, ?_⟩
  · rw [SourceRow.ofDocument?, Graph.row, record?_ofJson]
    simp [sourceSelections, lookup_selectedAll, selectionLabel, selectedValue?, fieldValue?_uid, idLabel, hname, hkind,
      hscopes, hattributes, required]
    simp [defaulted, ofJson, Uid.toJson, text?]
  · have hid := h.id
    cases m with
    | mk id sourceName kind scope columns =>
        cases kind
        rw [SourceRow.load, if_pos rfl]
        simp only [Except.ok.injEq, MetadataSource.mk.injEq]
        exact ⟨hid.symm, trivial, trivial, rfl, hcolumns.symm⟩

/-- A node that holds what it held. -/
def Same (g g' : Graph) (w : Uid) : Prop := ∀ p, g'.values w p = g.values w p ∧ g'.edges w p = g.edges w p

theorem same_of_holds {vars : Vars} {d d' : Draft} {qs : List Store.Quad} (h : d.Holds vars qs d')
    (hw : ∀ q ∈ qs, w ∉ d'.nodes vars q.subject) : Same d.graph d'.graph w := by
  intro p
  rw [h.values, h.edges, flatMap_written_of_apart hw, flatMap_linked_of_apart hw]
  exact ⟨rfl, rfl⟩

theorem Same.refl (g : Graph) (w : Uid) : Same g g w := fun _ => ⟨rfl, rfl⟩

theorem Same.trans {g'' : Graph} (h : Same g g' w) (h' : Same g' g'' w) : Same g g'' w :=
  fun p => ⟨(h' p).1.trans (h p).1, (h' p).2.trans (h p).2⟩

theorem Same.kept (h : Same g g' w) : Kept g g' w := fun p _ => h p

theorem Same.nameOf (h : Same g g' w) : nameOf g' w = nameOf g w := by
  rw [Repository.nameOf, (h _).1]
  rfl

theorem Same.inScopes (h : Same g g' w) (ss : List String) : g'.inScopes ss w = g.inScopes ss w := by
  rw [Graph.inScopes, (h _).1]
  rfl

theorem same_of_cleared {us : List Uid} (h : Cleared us g g') (hw : w ∉ us) : Same g g' w := by
  intro p
  rw [h.values, h.edges, if_neg hw, if_neg hw]
  exact ⟨rfl, rfl⟩

theorem StoredAttribute.of_values (h : StoredAttribute g v a) (hv : ∀ p, g'.values v p = g.values v p) :
    StoredAttribute g' v a := by
  constructor
  · exact h.id
  all_goals rw [hv]
  · exact h.name
  · exact h.type
  · exact h.displayed
  · exact h.identifier
  · exact h.parentIdentifier
  · exact h.searchable
  · exact h.mappedTo
  · exact h.unnamed
  · exact h.unmarked

theorem StoredSource.same (h : StoredSource g w m) (hs : Same g g' w) : StoredSource g' w m := by
  have hv := fun p => (hs p).1
  constructor
  · exact h.id
  · rw [hv]
    exact h.marked
  · rw [hv]
    exact h.name
  · rw [hv]
    exact h.kind
  · rw [hv]
    exact h.scope
  · rw [hv]
    exact h.columns
  · rw [(hs _).2]
    exact h.untied

/-- A type whose own nodes stay as they are keeps all but the name of its parent. -/
theorem StoredType.same (h : StoredType g u t) (hu : Same g g' u) (hv : ∀ v ∈ g.edges u metaAttribute, Same g g' v)
    (hw : ∀ w ∈ g.edges u metaSource, g'.values w metadataSource = g.values w metadataSource) :
    StoredType g' u { t with parentTypeName := (g.edges u metaParent).items.head?.map (nameOf g') } := by
  obtain ⟨w, hsource, hid, hname⟩ := h.source
  obtain ⟨p, hparent, hparentId, -⟩ := h.parent
  constructor
  · exact h.id
  · rw [(hu _).1]
    exact h.name
  · refine ⟨w, ?_, hid, ?_⟩
    · rw [(hu _).2]
      exact hsource
    · rw [hw w (by simp [OrderedSet.mem_def, hsource])]
      exact hname
  · refine ⟨p, ?_, hparentId, ?_⟩
    · rw [(hu _).2]
      exact hparent
    · rw [hparent, Option.head?_toList]
  · rw [(hu _).1]
    exact h.scopes
  · rw [(hu _).2]
    exact ((List.forall₂_and_left _ _).2 ⟨hv, h.attributes⟩).imp fun v a hs => hs.2.of_values fun p => (hs.1 p).1

/-- Where its parent keeps its name too, a type is stored as it was. -/
theorem StoredType.same_of_parent (h : StoredType g u t) (hu : Same g g' u)
    (hv : ∀ v ∈ g.edges u metaAttribute, Same g g' v)
    (hw : ∀ w ∈ g.edges u metaSource, g'.values w metadataSource = g.values w metadataSource)
    (hp : ∀ p ∈ g.edges u metaParent, nameOf g' p = nameOf g p) : StoredType g' u t := by
  have hs := h.same hu hv hw
  obtain ⟨p, hparent, -, hname⟩ := h.parent
  have he : (g.edges u metaParent).items.head?.map (nameOf g') = t.parentTypeName := by
    rw [hname, hparent, Option.head?_toList]
    cases p with
    | none => rfl
    | some p => exact congrArg some (hp p (by simp [OrderedSet.mem_def, hparent]))
  rwa [he] at hs

end Inventory.Repository
