import Inventory.Attribute

/-!
Equipment types as their users define them.
-/

namespace Inventory

structure EquipmentType where
  /-- The node that stores the type, or nothing yet. -/
  id : String
  typeName : String
  parentId : Option String
  parentTypeName : Option String
  sourceId : String
  sourceName : String
  scopes : NameSet
  attributes : List Attribute
deriving DecidableEq, Inhabited

namespace EquipmentType

def new (typeName sourceId : String) : EquipmentType := ⟨"", typeName, none, none, sourceId, "", .empty, []⟩

def withId (t : EquipmentType) (id : String) : EquipmentType := { t with id }

def withParent (t : EquipmentType) (id : String) : EquipmentType := { t with parentId := some id }

def withScope (t : EquipmentType) (scope : String) : EquipmentType := { t with scopes := t.scopes.insert scope }

def withAttribute (t : EquipmentType) (a : Attribute) : EquipmentType := { t with attributes := t.attributes ++ [a] }

/-- The parent, an empty id standing for none. -/
def parent? (t : EquipmentType) : Option String := t.parentId.filter (· ≠ "")

def identifier? (t : EquipmentType) : Option Attribute := t.attributes.find? (·.isIdentifier)

def parentIdentifier? (t : EquipmentType) : Option Attribute := t.attributes.find? (·.isParentIdentifier)

/-- The attribute of exactly this name. -/
def attribute? (t : EquipmentType) (name : String) : Option Attribute := t.attributes.find? (·.name == name)

def fieldNames : List String :=
  ["id", "type_name", "parent_id", "parent_type_name", "source_id", "source_name", "scopes", "attributes"]

def toJson (t : EquipmentType) : Json :=
  .ofFields [("id", .str t.id), ("type_name", .str t.typeName), ("parent_id", .ofOption .str t.parentId),
    ("parent_type_name", .ofOption .str t.parentTypeName), ("source_id", .str t.sourceId),
    ("source_name", .str t.sourceName), ("scopes", .ofStrings t.scopes.items),
    ("attributes", .arr (t.attributes.map Attribute.toJson))]

open Document in
def ofDocument? (d : Document) : Option EquipmentType := do
  match ← d.record? fieldNames with
  | [id, typeName, parentId, parentTypeName, sourceId, sourceName, scopes, attributes] =>
    return {
      id := ← defaulted text? "" id
      typeName := ← required text? typeName
      parentId := ← defaulted (nullable text?) none parentId
      parentTypeName := ← defaulted (nullable text?) none parentTypeName
      sourceId := ← required text? sourceId
      sourceName := ← defaulted text? "" sourceName
      scopes := ← defaulted names? .empty scopes
      attributes := ← defaulted (list? Attribute.ofDocument?) [] attributes }
  | _ => none

end EquipmentType

end Inventory
