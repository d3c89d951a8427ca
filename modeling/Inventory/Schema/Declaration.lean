import Inventory.Schema.Statement
import Inventory.EquipmentType
import Inventory.Vocabulary

/-!
The statements that declare an equipment type, and those that every store starts from. A type declares one
predicate for each plain attribute; identifiers and parent links share predicates that are declared once.
-/

namespace Inventory.Schema

/-- The declaration of one equipment type. -/
structure Declaration where
  predicates : List PredicateStatement
  typeStatement : TypeStatement
deriving DecidableEq

/-- The predicates that every equipment type lists before its own. -/
def sharedFields : List String :=
  [Vocabulary.typeName, Vocabulary.scopes, Vocabulary.updated, Vocabulary.created, Vocabulary.equipmentUsers,
    Vocabulary.identifier, Vocabulary.parent]

def predicateOf (typeName : String) (a : Attribute) : PredicateStatement :=
  (PredicateStatement.new (Vocabulary.attributePredicate typeName a.name) (.ofDataType a.dataType)).indexed
    (if a.isSearchable then IndexKind.forDataType a.dataType else [])

namespace Declaration

def ofAttributes (typeName : String) (attributes : List Attribute) : Declaration :=
  let predicates := (attributes.filter (·.isPlain)).map (predicateOf typeName)
  ⟨predicates, ⟨Vocabulary.typeDeclaration typeName, sharedFields ++ predicates.map (·.predicate)⟩⟩

/-- The predicates, and the type last. -/
def statements (d : Declaration) : List Statement := d.predicates.map .predicate ++ [.type d.typeStatement]

def render (d : Declaration) : String := Statement.renderAll d.statements

def toJson (d : Declaration) : Json :=
  .ofFields [("predicates", .arr (d.predicates.map fun p => .ofFields p.fields)),
    ("type_declaration", .ofFields d.typeStatement.jsonFields)]

end Declaration

open PredicateStatement Vocabulary in
/-- The predicates that instances, metadata and related entities share. -/
def basePredicates : List PredicateStatement :=
  [(new identifier .string).indexed [.exact, .trigram],
   (new equipmentType .string).indexed [.exact],
   (new parent .uid).reversed,
   (new equipmentUsers .uid).asList.reversed,
   (new scopes .string).asList.indexed [.exact],
   (new typeName .string).indexed [.exact],
   (new nodeType .string).asList.indexed [.exact],
   new created .datetime,
   new updated .datetime,
   (new recycle .string).indexed [.exact],
   (new metaType .string).indexed [.exact],
   (new metaParent .uid).reversed,
   (new metaSource .uid).reversed,
   (new metaAttribute .uid).asList,
   new attributeName .string,
   new attributeType .int,
   new attributeSchemaName .string,
   new attributeSearchable .bool,
   new attributeDisplayed .bool,
   new attributeIdentifier .bool,
   new attributeParentIdentifier .bool,
   new attributeMappedTo .string,
   (new metadataSource .string).indexed [.exact],
   (new metadataType .string).indexed [.exact],
   (new metadataAttributes .string).asList,
   (new productTag .string).indexed [.exact],
   (new productEquipment .uid).asList.reversed,
   (new applicationId .string).indexed [.exact],
   (new applicationInstance .uid).asList.reversed,
   (new instanceId .string).indexed [.exact],
   (new instanceEquipment .uid).asList.reversed]

def baseStatements : List Statement :=
  basePredicates.map .predicate ++
    [.type ⟨Vocabulary.equipmentNodeType, [Vocabulary.typeName, Vocabulary.scopes, Vocabulary.identifier,
      Vocabulary.equipmentType, Vocabulary.parent]⟩]

end Inventory.Schema
