import Inventory.Text.Blank

/-!
The names of predicates and node types that every reader of the store shares.
-/

namespace Inventory.Vocabulary

open Text

/-- The identifier of an instance, whatever its type. -/
def identifier : String := "equipment.id"

/-- The edge from an instance to its parent. -/
def parent : String := "equipment.parent"

/-- The name of an instance's type. -/
def equipmentType : String := "equipment.type"

def equipmentUsers : String := "equipment.users"

def scopes : String := "scopes"

/-- What kind of thing a node stands for. -/
def typeName : String := "type_name"

def nodeType : String := "dgraph.type"

def created : String := "created"

def updated : String := "updated"

/-- Marks an instance that has been deleted. -/
def recycle : String := "Recycle"

def uid : String := "uid"

def equipmentMarker : String := "equipment"

def equipmentNodeType : String := "Equipment"

def metadataMarker : String := "metadata"

def metadataNodeType : String := "Metadata"

def metadataEquipmentNodeType : String := "MetadataEquipment"

def attributeNodeType : String := "Attribute"

def metaType : String := "metadata.equipment.type"

def metaParent : String := "metadata.equipment.parent"

def metaSource : String := "metadata.equipment.source"

def metaAttribute : String := "metadata.equipment.attribute"

def attributeName : String := "attribute.name"

def attributeType : String := "attribute.type"

def attributeSchemaName : String := "attribute.schema_name"

def attributeSearchable : String := "attribute.searchable"

def attributeDisplayed : String := "attribute.displayed"

def attributeIdentifier : String := "attribute.identifier"

def attributeParentIdentifier : String := "attribute.parentIdentifier"

def attributeMappedTo : String := "attribute.mapped_to"

def metadataSource : String := "metadata.source"

def metadataType : String := "metadata.type"

def metadataAttributes : String := "metadata.attributes"

def productTag : String := "product.swidtag"

def productEquipment : String := "product.equipment"

def applicationId : String := "application.id"

def applicationInstance : String := "application.instance"

def instanceId : String := "instance.id"

def instanceEquipment : String := "instance.equipment"

/-- Without blanks at the ends, and with `_` for each blank inside. -/
def sanitize (name : String) : String :=
  String.ofList ((Blank.trimChars name.toList).map fun c => if Blank.isBlank c then '_' else c)

def isSafeChar (c : Char) : Bool := c.isAlphanum || c == '_' || c == '.' || c == '-'

/-- One or more letters, digits, `_`, `.` and `-`. -/
def isSafeName (name : String) : Bool := !name.isEmpty && name.toList.all isSafeChar

/-- The predicate in which instances of a type keep a plain attribute. -/
def attributePredicate (typeName attributeName : String) : String :=
  s!"equipment.{typeName}.{sanitize attributeName}"

/-- The name under which a type is declared to the store. -/
def typeDeclaration (typeName : String) : String := equipmentNodeType ++ typeName

end Inventory.Vocabulary
