import Inventory.Graph.Evaluation
import Inventory.Proofs.Comparison
import Inventory.Proofs.Documents
import Inventory.Proofs.Outcome
import Inventory.Repository.Rows

/-!
Definitions read back from the rows of their nodes.
-/

namespace Inventory.Repository

open Inventory.Graph Query Listing Entries Document Outcome

variable {g : Graph} {u : Uid} {t : EquipmentType}

def selectionLabel : Selection → String
  | .field label _ => label
  | .count label => label
  | .edge label _ _ => label

/-- What a selection reports of a node under its label. -/
def selectedValue? (g : Graph) (u : Uid) : Selection → Option Json
  | .field _ p => g.fieldValue? u p
  | .count _ => none
  | .edge _ e ss =>
    match g.targets u e with
    | [] => none
    | vs => some (.arr (vs.map fun v => g.row v ss))

theorem selected_eq (s : Selection) :
    g.selected u s = (selectedValue? g u s).toList.map fun v => (selectionLabel s, v) := by
  cases s with
  | field label p => rfl
  | count label => rfl
  | edge label e ss =>
      rw [selected, selectedValue?]
      cases g.targets u e <;> rfl

theorem lookup_selectedAll (k : String) (s : Selection) (ss : List Selection) :
    lookup k (g.selectedAll u (s :: ss)).reverse =
      (lookup k (g.selectedAll u ss).reverse).or (if k = selectionLabel s then selectedValue? g u s else none) := by
  rw [selectedAll, List.reverse_append, lookup_append, selected_eq]
  congr 1
  cases selectedValue? g u s with
  | none => simp [lookup]
  | some v => simp [lookup]

@[simp]
theorem lookup_selectedAll_nil (k : String) : lookup k (g.selectedAll u []).reverse = none := rfl

theorem fieldValue?_uid : g.fieldValue? u Vocabulary.uid = some u.toJson := rfl

theorem fieldValue?_single {p : String} {v : Json} (hp : p ≠ Vocabulary.uid) (hl : g.isList p = false)
    (hv : g.values u p = [v]) : g.fieldValue? u p = some v := by
  simp [fieldValue?, hp, hl, hv]

theorem typeRow_fields : record? ["ID", "Type", "DataSource", "Parent", "Scopes", "Attributes"]
    (.ofJson (g.row u typeSelections)) =
      some [some (.ofJson u.toJson), (g.fieldValue? u Vocabulary.metaType).map .ofJson,
        (selectedValue? g u (typeSelections[2])).map .ofJson, (selectedValue? g u (typeSelections[3])).map .ofJson,
        (g.fieldValue? u Vocabulary.scopes).map .ofJson, (selectedValue? g u (typeSelections[5])).map .ofJson] := by
  rw [row, record?_ofJson]
  simp [typeSelections, lookup_selectedAll, selectionLabel, selectedValue?, fieldValue?_uid, idLabel]

theorem typeRow_ok {r : TypeRow} (h : TypeRow.ofDocument? (.ofJson (g.row u typeSelections)) = some r) :
    r.id = u.text ∧ defaulted text? "" ((g.fieldValue? u Vocabulary.metaType).map .ofJson) = some r.typeName ∧
      defaulted (list? Linked.ofDocument?) [] ((selectedValue? g u (typeSelections[2])).map .ofJson) =
        some r.sources ∧
      defaulted (list? Linked.ofDocument?) [] ((selectedValue? g u (typeSelections[3])).map .ofJson) =
        some r.parents := by
  rw [TypeRow.ofDocument?, typeRow_fields] at h
  obtain ⟨fields, hf, h⟩ := Option.bind_eq_some_iff.1 h
  cases hf
  obtain ⟨id, hid, h⟩ := Option.bind_eq_some_iff.1 h
  obtain ⟨typeName, htype, h⟩ := Option.bind_eq_some_iff.1 h
  obtain ⟨sources, hsources, h⟩ := Option.bind_eq_some_iff.1 h
  obtain ⟨parents, hparents, h⟩ := Option.bind_eq_some_iff.1 h
  obtain ⟨scopes, -, h⟩ := Option.bind_eq_some_iff.1 h
  obtain ⟨attributes, -, h⟩ := Option.bind_eq_some_iff.1 h
  cases h
  cases hid
  exact ⟨rfl, htype, hsources, hparents⟩

theorem ofItems_eq_map (js : List Json) : ofItems js = js.map ofJson := by
  induction js with
  | nil => rfl
  | cons j js ih => rw [ofItems, ih, List.map_cons]

theorem linked_id {v : Uid} {s : Selection} {l : Linked} (hs : selectionLabel s ≠ idLabel)
    (h : Linked.ofDocument? (.ofJson (g.row v [.field idLabel Vocabulary.uid, s])) = some l) : l.id = v.text := by
  have hid : lookup "ID" (g.selectedAll v [.field idLabel Vocabulary.uid, s]).reverse = some v.toJson := by
    have hs' : ¬"ID" = selectionLabel s := fun h => hs h.symm
    rw [lookup_selectedAll, lookup_selectedAll, if_neg hs']
    rfl
  rw [Linked.ofDocument?, row, record?_ofJson, List.map_cons, hid] at h
  obtain ⟨fields, hf, h⟩ := Option.bind_eq_some_iff.1 h
  cases hf
  obtain ⟨id, hid, h⟩ := Option.bind_eq_some_iff.1 h
  obtain ⟨source, -, h⟩ := Option.bind_eq_some_iff.1 h
  obtain ⟨typeName, -, h⟩ := Option.bind_eq_some_iff.1 h
  cases h
  cases hid
  rfl

theorem linked_typeName {v : Uid} {l : Linked} {n : String} (hlist : g.isList Vocabulary.metaType = false)
    (hv : g.values v Vocabulary.metaType = [.str n])
    (h : Linked.ofDocument? (.ofJson (g.row v [.field idLabel Vocabulary.uid, .field "TypeName" Vocabulary.metaType])) =
      some l) : l.typeName = n := by
  have hname : lookup "TypeName" (g.selectedAll v
      [.field idLabel Vocabulary.uid, .field "TypeName" Vocabulary.metaType]).reverse = some (.str n) := by
    rw [lookup_selectedAll, lookup_selectedAll, selectedValue?, selectedValue?,
      fieldValue?_single (by decide) hlist hv]
    simp [selectionLabel, idLabel]
  rw [Linked.ofDocument?, row, record?_ofJson, List.map_cons, List.map_cons, List.map_cons, hname] at h
  obtain ⟨fields, hf, h⟩ := Option.bind_eq_some_iff.1 h
  cases hf
  obtain ⟨id, -, h⟩ := Option.bind_eq_some_iff.1 h
  obtain ⟨source, -, h⟩ := Option.bind_eq_some_iff.1 h
  obtain ⟨typeName, htype, h⟩ := Option.bind_eq_some_iff.1 h
  cases h
  cases htype
  rfl

theorem edgeRows_iff {α : Type} {read : Document → Option α} {e : Edge} {label : String} {ss : List Selection}
    {as : List α} :
    defaulted (list? read) [] ((selectedValue? g u (.edge label e ss)).map .ofJson) = some as ↔
      List.Forall₂ (fun v a => read (.ofJson (g.row v ss)) = some a) (g.targets u e) as := by
  rw [selectedValue?]
  cases htargets : g.targets u e with
  | nil => simp [defaulted, eq_comm]
  | cons v vs =>
      rw [Option.map_some, ofJson, defaulted, list?, ofItems_eq_map, mapM_some_iff, List.forall₂_map_left_iff,
        List.forall₂_map_left_iff]

theorem linked_ids {vs : List Uid} {s : Selection} {ls : List Linked} (hs : selectionLabel s ≠ idLabel)
    (h : List.Forall₂ (fun v l => Linked.ofDocument? (.ofJson (g.row v [.field idLabel Vocabulary.uid, s])) = some l)
      vs ls) : ls.map (·.id) = vs.map Uid.text := by
  induction h with
  | nil => rfl
  | cons hl _ ih => rw [List.map_cons, List.map_cons, linked_id hs hl, ih]

theorem forall₂_head {α β : Type} {R : α → β → Prop} {as : List α} {bs : List β} {b : β} (h : List.Forall₂ R as bs)
    (hb : bs.head? = some b) : ∃ a ∈ as, R a b := by
  cases h with
  | nil => cases hb
  | cons hab _ =>
      cases hb
      exact ⟨_, by simp, hab⟩

/-- The type that the row of a node is loaded as. -/
def Reads (g : Graph) (u : Uid) (t : EquipmentType) : Prop :=
  ∃ r, TypeRow.ofDocument? (.ofJson (g.row u typeSelections)) = some r ∧ r.load = .ok t

/-- The source that the row of a node is loaded as. -/
def ReadsSource (g : Graph) (w : Uid) (m : MetadataSource) : Prop :=
  ∃ r, SourceRow.ofDocument? (.ofJson (g.row w sourceSelections)) = some r ∧ r.load = .ok m

theorem Reads.unique {t' : EquipmentType} (h : Reads g u t) (h' : Reads g u t') : t = t' := by
  obtain ⟨r, hr, hl⟩ := h
  obtain ⟨r', hr', hl'⟩ := h'
  cases hr.symm.trans hr'
  exact Except.ok.inj (hl.symm.trans hl')

theorem ReadsSource.unique {w : Uid} {m m' : MetadataSource} (h : ReadsSource g w m) (h' : ReadsSource g w m') :
    m = m' := by
  obtain ⟨r, hr, hl⟩ := h
  obtain ⟨r', hr', hl'⟩ := h'
  cases hr.symm.trans hr'
  exact Except.ok.inj (hl.symm.trans hl')

/-- A type that is loaded from the row of a node. -/
structure Loaded (g : Graph) (u : Uid) (t : EquipmentType) : Prop where
  reads : Reads g u t
  id : t.id = u.text
  typeName : ∀ n, g.isList Vocabulary.metaType = false → g.values u Vocabulary.metaType = [.str n] → t.typeName = n
  sourceId : t.sourceId = ((g.edges u Vocabulary.metaSource).items.head?.map Uid.text).getD ""
  parentId : t.parentId = (g.edges u Vocabulary.metaParent).items.head?.map Uid.text
  parentTypeName : ∀ m, t.parentTypeName = some m → ∃ p ∈ g.edges u Vocabulary.metaParent, ∀ n,
    g.isList Vocabulary.metaType = false → g.values p Vocabulary.metaType = [.str n] → m = n

theorem loaded_of_row {r : TypeRow} (h : TypeRow.ofDocument? (.ofJson (g.row u typeSelections)) = some r)
    (hl : r.load = .ok t) : Loaded g u t := by
  have hreads : Reads g u t := ⟨r, h, hl⟩
  obtain ⟨hid, hname, hsources, hparents⟩ := typeRow_ok h
  obtain ⟨attributes, -, hl⟩ := bind_ok_iff.1 hl
  cases hl
  have hs := linked_ids (by decide) (edgeRows_iff.1 hsources)
  have hparents := edgeRows_iff.1 hparents
  have hp := linked_ids (by decide) hparents
  have he : ∀ p, g.targets u (forward p) = (g.edges u p).items := fun _ => rfl
  constructor
  · exact hreads
  · exact hid
  · intro n hlist hv
    rw [fieldValue?_single (by decide) hlist hv] at hname
    cases hname
    rfl
  · have hhead : r.sources.head?.map (·.id) = (g.edges u Vocabulary.metaSource).items.head?.map Uid.text := by
      rw [← List.head?_map, hs, he, List.head?_map]
    exact congrArg (·.getD "") hhead
  · change r.parents.head?.map (·.id) = _
    rw [← List.head?_map, hp, he, List.head?_map]
  · intro m hm
    obtain ⟨l, hl, rfl⟩ := Option.map_eq_some_iff.1 hm
    obtain ⟨v, hv, hrow⟩ := forall₂_head hparents hl
    exact ⟨v, hv, fun n hlist hn => linked_typeName hlist hn hrow⟩

theorem loadRows_ok_iff {ρ α : Type} {read : Document → Option ρ} {load : ρ → Except Failure α} {rows : List Json}
    {as : List α} : loadRows read load rows = .ok as ↔
      List.Forall₂ (fun j a => ∃ r, read (.ofJson j) = some r ∧ load r = .ok a) rows as := by
  unfold loadRows
  constructor
  · intro h
    split at h
    · rename_i rs hrs
      rw [mapM_some_iff] at hrs
      rw [mapM_ok_iff] at h
      induction hrs generalizing as with
      | nil =>
          cases h
          exact .nil
      | cons hr _ ih =>
          cases h with
          | cons ha has => exact .cons ⟨_, hr, ha⟩ (ih has)
    · cases h
  · intro h
    obtain ⟨rs, hrs, hload⟩ : ∃ rs, rows.mapM (fun j => read (.ofJson j)) = some rs ∧ rs.mapM load = .ok as := by
      induction h with
      | nil => exact ⟨[], rfl, rfl⟩
      | cons hr _ ih =>
          obtain ⟨r, hr, ha⟩ := hr
          obtain ⟨rs, hrs, has⟩ := ih
          rw [mapM_some_iff] at hrs
          rw [mapM_ok_iff] at has
          exact ⟨r :: rs, mapM_some_iff.2 (.cons hr hrs), mapM_ok_iff.2 (.cons ha has)⟩
    rw [hrs]
    exact hload

theorem loaded_of_rows {us : List Uid} {ts : List EquipmentType}
    (h : loadRows TypeRow.ofDocument? TypeRow.load (us.map fun u => g.row u typeSelections) = .ok ts) :
    List.Forall₂ (Loaded g) us ts := by
  rw [loadRows_ok_iff, List.forall₂_map_left_iff] at h
  refine h.imp fun u t => ?_
  rintro ⟨r, hr, hl⟩
  exact loaded_of_row hr hl

theorem get?_row_id {s : Selection} (hs : selectionLabel s ≠ idLabel) :
    (g.row u [.field idLabel Vocabulary.uid, s]).get? idLabel = some (.str u.text) := by
  have hs' : ¬idLabel = selectionLabel s := fun h => hs h.symm
  rw [row, Json.get?_ofFields, lookup_selectedAll, lookup_selectedAll, if_neg hs']
  rfl

end Inventory.Repository
