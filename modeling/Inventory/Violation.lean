/-!
Rules that definitions and payloads are held to, and the ways in which they break them.
-/

namespace Inventory

inductive Rule
  | parentNotFound
  | selfParent
  | parentIsDescendant
  | duplicateName
  | duplicateMapping
  | unmappedColumn
  | missingIdentifier
  | multipleIdentifiers
  | identifierResubmitted
  | identifierWrongType
  | identifierNotDisplayed
  | parentKeyWrongType
  | parentKeyCountMismatch
  | identifierAndParentKey
  | searchableNotDisplayed
  | typeNameTaken
  | sourceInUse
  | hasChildren
  | hasInstances
  | invalidPayload
  | invalidName
deriving DecidableEq

def Rule.code : Rule → String
  | parentNotFound => "EQP_PARENT_NOT_FOUND"
  | selfParent => "EQP_SELF_PARENT"
  | parentIsDescendant => "EQP_PARENT_IS_DESCENDANT"
  | duplicateName => "EQP_DUPLICATE_NAME"
  | duplicateMapping => "EQP_DUPLICATE_MAPPING"
  | unmappedColumn => "EQP_UNMAPPED_COLUMN"
  | missingIdentifier => "EQP_MISSING_IDENTIFIER"
  | multipleIdentifiers => "EQP_MULTIPLE_IDENTIFIERS"
  | identifierResubmitted => "EQP_IDENTIFIER_RESUBMITTED"
  | identifierWrongType => "EQP_IDENTIFIER_WRONG_TYPE"
  | identifierNotDisplayed => "EQP_IDENTIFIER_NOT_DISPLAYED"
  | parentKeyWrongType => "EQP_PARENT_KEY_WRONG_TYPE"
  | parentKeyCountMismatch => "EQP_PARENT_KEY_COUNT_MISMATCH"
  | identifierAndParentKey => "EQP_IDENTIFIER_AND_PARENT_KEY"
  | searchableNotDisplayed => "EQP_SEARCHABLE_NOT_DISPLAYED"
  | typeNameTaken => "EQP_TYPE_NAME_TAKEN"
  | sourceInUse => "EQP_SOURCE_IN_USE"
  | hasChildren => "EQP_HAS_CHILDREN"
  | hasInstances => "EQP_HAS_INSTANCES"
  | invalidPayload => "EQP_INVALID_PAYLOAD"
  | invalidName => "EQP_INVALID_NAME"

/-- A broken rule, with what broke it. -/
inductive Violation
  | parentNotFound (parentId : String)
  | selfParent (typeName : String)
  | parentIsDescendant (parentId : String)
  | duplicateName (name : String)
  | mappedTwice (column : String)
  | mappedElsewhere (column owner : String)
  | unmappedColumn (column : String)
  | noIdentifier
  | manyIdentifiers (count : Nat)
  | typeWithoutIdentifier (typeName : String)
  | payloadWithoutIdentifier (typeName column : String)
  | identifierResubmitted (name : String)
  | identifierWrongType (name : String)
  | identifierNotDisplayed (name : String)
  | parentKeyWrongType (name : String)
  | parentKeyWithoutParent
  | parentWithoutParentKey
  | manyParentKeys (count : Nat)
  | parentKeyRequired
  | parentKeyPresent
  | parentNotSelected
  | parentValueWithoutParent (typeName identifier : String)
  | identifierAndParentKey (name : String)
  | searchableNotDisplayed (name : String)
  | typeNameTaken (typeName : String)
  | sourceInUse (sourceId owner : String)
  | hasChildren (typeName : String)
  | hasInstances (typeName : String)
  | invalidPayload (column reason : String)
  | invalidName (name : String)
deriving DecidableEq

namespace Violation

def rule : Violation → Rule
  | parentNotFound _ => .parentNotFound
  | selfParent _ => .selfParent
  | parentIsDescendant _ => .parentIsDescendant
  | duplicateName _ => .duplicateName
  | mappedTwice _ | mappedElsewhere _ _ => .duplicateMapping
  | unmappedColumn _ => .unmappedColumn
  | noIdentifier | typeWithoutIdentifier _ | payloadWithoutIdentifier _ _ => .missingIdentifier
  | manyIdentifiers _ => .multipleIdentifiers
  | identifierResubmitted _ => .identifierResubmitted
  | identifierWrongType _ => .identifierWrongType
  | identifierNotDisplayed _ => .identifierNotDisplayed
  | parentKeyWrongType _ => .parentKeyWrongType
  | parentKeyWithoutParent | parentWithoutParentKey | manyParentKeys _ | parentKeyRequired | parentKeyPresent
  | parentNotSelected | parentValueWithoutParent _ _ => .parentKeyCountMismatch
  | identifierAndParentKey _ => .identifierAndParentKey
  | searchableNotDisplayed _ => .searchableNotDisplayed
  | typeNameTaken _ => .typeNameTaken
  | sourceInUse _ _ => .sourceInUse
  | hasChildren _ => .hasChildren
  | hasInstances _ => .hasInstances
  | invalidPayload _ _ => .invalidPayload
  | invalidName _ => .invalidName

def text : Violation → String
  | parentNotFound _ => "parent type does not exist"
  | selfParent _ => "equipment type cannot be parent of itself"
  | parentIsDescendant _ => "child can not be parent"
  | duplicateName _ => "attribute name is already used"
  | mappedTwice _ => "source column is already mapped"
  | mappedElsewhere _ owner => s!"source column is already mapped to {owner}"
  | unmappedColumn _ => "source column does not exist in metadata"
  | noIdentifier => "one of the attributes must be the identifier"
  | manyIdentifiers n => s!"{Nat.repr n} identifiers found, only one is allowed"
  | typeWithoutIdentifier _ => "equipment type has no identifier attribute"
  | payloadWithoutIdentifier _ column => s!"payload has no value for identifier column '{column}'"
  | identifierResubmitted _ => "identifier cannot be changed once the type exists"
  | identifierWrongType _ => "only string data type is allowed for identifier"
  | identifierNotDisplayed _ => "identifier should always be displayable"
  | parentKeyWrongType _ => "only string data type is allowed for parent identifier"
  | parentKeyWithoutParent => "parent identifier not allowed when no parent type is selected"
  | parentWithoutParentKey => "one parent identifier required when a parent type is selected"
  | manyParentKeys n => s!"{Nat.repr n} parent identifiers found, only one is allowed"
  | parentKeyRequired => "one parent identifier required"
  | parentKeyPresent => "no parent identifier required when parent is already present"
  | parentNotSelected => "parent is not selected for equipment type"
  | parentValueWithoutParent _ id => s!"parent identifier '{id}' given but type has no parent"
  | identifierAndParentKey _ => "attribute can be either identifier or parent identifier"
  | searchableNotDisplayed _ => "searchable attribute should always be displayable"
  | typeNameTaken _ => "type name is not available"
  | sourceInUse _ owner => s!"data source is already consumed by {owner}"
  | hasChildren _ => "equipment type has children"
  | hasInstances _ => "equipment type contains equipments data"
  | invalidPayload _ reason => reason
  | invalidName _ => "only letters, digits, '_', '.' and '-' are allowed in names"

/-- What the rule was applied to, where that says more than the rule. -/
def subject? : Violation → Option String
  | parentNotFound s | selfParent s | parentIsDescendant s | duplicateName s | mappedTwice s | mappedElsewhere s _
  | unmappedColumn s | typeWithoutIdentifier s | payloadWithoutIdentifier s _ | identifierResubmitted s
  | identifierWrongType s | identifierNotDisplayed s | parentKeyWrongType s | parentValueWithoutParent s _
  | identifierAndParentKey s | searchableNotDisplayed s | typeNameTaken s | sourceInUse s _ | hasChildren s
  | hasInstances s | invalidPayload s _ | invalidName s => some s
  | noIdentifier | manyIdentifiers _ | parentKeyWithoutParent | parentWithoutParentKey | manyParentKeys _
  | parentKeyRequired | parentKeyPresent | parentNotSelected => none

def message (v : Violation) : String :=
  let head := s!"[{v.rule.code}] {v.text}"
  match v.subject? with
  | some s => s!"{head} ({s})"
  | none => head

end Violation

end Inventory
