import Inventory.Json.Decoder

/-!
Sources of equipment data and the columns they provide.
-/

namespace Inventory

/-- What a source describes. -/
inductive MetadataKind
  | equipment
deriving DecidableEq, Inhabited

def MetadataKind.name : MetadataKind → String
  | equipment => "equipment"

structure MetadataSource where
  /-- The node that stores the source, or nothing yet. -/
  id : String
  sourceName : String
  kind : MetadataKind
  scope : String
  columns : NameSet
deriving DecidableEq, Inhabited

namespace MetadataSource

def equipment (sourceName scope : String) : MetadataSource := ⟨"", sourceName, .equipment, scope, .empty⟩

def withColumns (s : MetadataSource) (columns : List String) : MetadataSource :=
  { s with columns := s.columns.insertAll columns }

def fieldNames : List String := ["id", "source_name", "metadata_type", "scope", "available_columns"]

def toJson (s : MetadataSource) : Json :=
  .ofFields [("id", .str s.id), ("source_name", .str s.sourceName), ("metadata_type", .str s.kind.name),
    ("scope", .str s.scope), ("available_columns", .ofStrings s.columns.items)]

open Document in
def ofDocument? (d : Document) : Option MetadataSource := do
  match ← d.record? fieldNames with
  | [id, sourceName, kind, scope, columns] =>
    return {
      id := ← defaulted text? "" id
      sourceName := ← required text? sourceName
      kind := ← required (word? [("equipment", MetadataKind.equipment)]) kind
      scope := ← required text? scope
      columns := ← defaulted names? .empty columns }
  | _ => none

end MetadataSource

end Inventory
