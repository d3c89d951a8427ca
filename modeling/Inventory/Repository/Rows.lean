import Inventory.EquipmentType
import Inventory.Failure
import Inventory.Listing.Filter
import Inventory.MetadataSource

/-!
Rows in which equipment types and metadata sources are read back, and the definitions that they hold.
-/

namespace Inventory.Repository

open Query Listing Document

def forward (predicate : String) : Edge := ⟨predicate, false⟩

def attributeSelections : List Selection :=
  [.field idLabel Vocabulary.uid, .field "Name" Vocabulary.attributeName, .field "Type" Vocabulary.attributeType,
    .field "IsDisplayed" Vocabulary.attributeDisplayed, .field "IsIdentifier" Vocabulary.attributeIdentifier,
    .field "IsParentIdentifier" Vocabulary.attributeParentIdentifier,
    .field "IsSearchable" Vocabulary.attributeSearchable, .field "MappedTo" Vocabulary.attributeMappedTo]

/-- A type with its source, its parent and its attributes. -/
def typeSelections : List Selection :=
  [.field idLabel Vocabulary.uid, .field "Type" Vocabulary.metaType,
    .edge "DataSource" (forward Vocabulary.metaSource)
      [.field idLabel Vocabulary.uid, .field "Source" Vocabulary.metadataSource],
    .edge "Parent" (forward Vocabulary.metaParent)
      [.field idLabel Vocabulary.uid, .field "TypeName" Vocabulary.metaType],
    .field "Scopes" Vocabulary.scopes,
    .edge "Attributes" (forward Vocabulary.metaAttribute) attributeSelections]

def sourceSelections : List Selection :=
  [.field idLabel Vocabulary.uid, .field "Source" Vocabulary.metadataSource, .field "Type" Vocabulary.metadataType,
    .field "Scopes" Vocabulary.scopes, .field "Attributes" Vocabulary.metadataAttributes]

/-- A node at an edge of a type, with the name it has as a source or as a type. -/
structure Linked where
  id : String
  source : String
  typeName : String

def Linked.ofDocument? (d : Document) : Option Linked := do
  match ← d.record? ["ID", "Source", "TypeName"] with
  | [id, source, typeName] =>
    return {
      id := ← required text? id
      source := ← defaulted text? "" source
      typeName := ← defaulted text? "" typeName }
  | _ => none

/-- An attribute whose type is still a number; until that is read, it counts as a text. -/
structure AttributeRow where
  code : Int
  untyped : Attribute

def AttributeRow.ofDocument? (d : Document) : Option AttributeRow := do
  match ← d.record? ["ID", "Name", "Type", "IsDisplayed", "IsIdentifier", "IsParentIdentifier", "IsSearchable",
      "MappedTo"] with
  | [id, name, code, displayed, identifier, parentIdentifier, searchable, mappedTo] =>
    return {
      code := ← required (int? 64) code
      untyped := {
        id := ← required text? id
        name := ← required text? name
        dataType := .string
        isIdentifier := ← defaulted bool? false identifier
        isParentIdentifier := ← defaulted bool? false parentIdentifier
        isSearchable := ← defaulted bool? false searchable
        isDisplayed := ← defaulted bool? false displayed
        mappedTo := ← defaulted text? "" mappedTo } }
  | _ => none

def AttributeRow.load (r : AttributeRow) : Except Failure Attribute :=
  match DataType.ofCode? r.code with
  | some t => .ok { r.untyped with dataType := t }
  | none => .error (.internal "load equipment type" (.unknownTypeCode r.untyped.name r.code))

structure TypeRow where
  id : String
  typeName : String
  sources : List Linked
  parents : List Linked
  scopes : List String
  attributes : List AttributeRow

def TypeRow.ofDocument? (d : Document) : Option TypeRow := do
  match ← d.record? ["ID", "Type", "DataSource", "Parent", "Scopes", "Attributes"] with
  | [id, typeName, sources, parents, scopes, attributes] =>
    return {
      id := ← required text? id
      typeName := ← defaulted text? "" typeName
      sources := ← defaulted (list? Linked.ofDocument?) [] sources
      parents := ← defaulted (list? Linked.ofDocument?) [] parents
      scopes := ← defaulted (list? text?) [] scopes
      attributes := ← defaulted (list? AttributeRow.ofDocument?) [] attributes }
  | _ => none

def TypeRow.load (r : TypeRow) : Except Failure EquipmentType := do
  let attributes ← r.attributes.mapM AttributeRow.load
  let source := r.sources.head?
  let parent := r.parents.head?
  return {
    id := r.id
    typeName := r.typeName
    parentId := parent.map (·.id)
    parentTypeName := parent.map (·.typeName)
    sourceId := (source.map (·.id)).getD ""
    sourceName := (source.map (·.source)).getD ""
    scopes := .ofList r.scopes
    attributes }

structure SourceRow where
  id : String
  source : String
  kind : String
  scopes : List String
  columns : List String

def SourceRow.ofDocument? (d : Document) : Option SourceRow := do
  match ← d.record? ["ID", "Source", "Type", "Scopes", "Attributes"] with
  | [id, source, kind, scopes, columns] =>
    return {
      id := ← required text? id
      source := ← required text? source
      kind := ← defaulted text? "" kind
      scopes := ← defaulted (list? text?) [] scopes
      columns := ← defaulted (list? text?) [] columns }
  | _ => none

def SourceRow.load (r : SourceRow) : Except Failure MetadataSource :=
  if r.kind = MetadataKind.equipment.name then
    .ok ⟨r.id, r.source, .equipment, r.scopes.headD "", .ofList r.columns⟩
  else .error (.internal "load metadata" (.unsupportedMetadata r.kind r.source))

/-- All rows are taken apart before the first is loaded. -/
def loadRows {ρ α : Type} (read : Document → Option ρ) (load : ρ → Except Failure α) (rows : List Json) :
    Except Failure (List α) :=
  match rows.mapM fun j => read (.ofJson j) with
  | some rs => rs.mapM load
  | none => .error (.internal "serialization" .unreadableRow)

end Inventory.Repository
