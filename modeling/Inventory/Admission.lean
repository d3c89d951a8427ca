import Inventory.EquipmentType
import Inventory.Text.LetterCase
import Inventory.Violation
import Inventory.Vocabulary

/-!
Which definitions of equipment types, and which changes to them, are admitted. Each check answers with the
first rule that is broken, in the order of its steps.
-/

namespace Inventory.Admission

open Text

def ensure (ok : Bool) (v : Violation) : Except Violation Unit := if ok then .ok () else .error v

def isSafeAttributeName (name : String) : Bool := Vocabulary.isSafeName (Vocabulary.sanitize name)

/-- Names that can stand in predicates: those of attributes once their blanks are replaced. -/
def checkNames (t : EquipmentType) : Except Violation Unit := do
  ensure (Vocabulary.isSafeName t.typeName) (.invalidName t.typeName)
  t.attributes.forM fun a => ensure (isSafeAttributeName a.name) (.invalidName a.name)

/-- The names in capitals, and the columns with the attributes that read them, of the attributes so far. -/
structure Taken where
  names : List (List Char)
  owners : List (String × String)

namespace Taken

def empty : Taken := ⟨[], []⟩

def add (taken : Taken) (a : Attribute) : Taken :=
  ⟨LetterCase.capitalized a.name :: taken.names, (a.mappedTo, a.name) :: taken.owners⟩

/-- Adds an attribute whose name is safe and new, and whose column is known and not yet read. -/
def register (columns : NameSet) (taken : Taken) (a : Attribute) : Except Violation Taken := do
  ensure (isSafeAttributeName a.name) (.invalidName a.name)
  ensure (!taken.names.contains (LetterCase.capitalized a.name)) (.duplicateName a.name)
  ensure (columns.contains a.mappedTo) (.unmappedColumn a.mappedTo)
  match taken.owners.lookup a.mappedTo with
  | some owner => .error (.mappedElsewhere a.mappedTo owner)
  | none => .ok (taken.add a)

end Taken

/-- The marks of one attribute agree with each other and with its type. -/
def checkFlags (a : Attribute) : Except Violation Unit := do
  ensure (!(a.isIdentifier && a.isParentIdentifier)) (.identifierAndParentKey a.name)
  ensure (!a.isIdentifier || a.dataType == .string) (.identifierWrongType a.name)
  ensure (!a.isIdentifier || a.isDisplayed) (.identifierNotDisplayed a.name)
  ensure (!a.isParentIdentifier || a.dataType == .string) (.parentKeyWrongType a.name)
  ensure (!a.isSearchable || a.isDisplayed) (.searchableNotDisplayed a.name)

/-- Attributes one after another, each new beside those before it. -/
def checkAttributes (columns : NameSet) : Taken → List Attribute → Except Violation Unit
  | _, [] => .ok ()
  | taken, a :: as => do
    let taken ← taken.register columns a
    checkFlags a
    checkAttributes columns taken as

def checkIdentifierCount (attributes : List Attribute) : Except Violation Unit :=
  match attributes.countP (·.isIdentifier) with
  | 0 => .error .noIdentifier
  | 1 => .ok ()
  | n => .error (.manyIdentifiers n)

/-- One parent identifier with a parent, and none without. -/
def checkParentKeyCount (hasParent : Bool) (attributes : List Attribute) : Except Violation Unit :=
  match hasParent, attributes.countP (·.isParentIdentifier) with
  | false, 0 => .ok ()
  | false, _ => .error .parentKeyWithoutParent
  | true, 0 => .error .parentWithoutParentKey
  | true, 1 => .ok ()
  | true, n => .error (.manyParentKeys n)

def checkParentExists (existing : List EquipmentType) : Option String → Except Violation Unit
  | some p => ensure (existing.any (·.id == p)) (.parentNotFound p)
  | none => .ok ()

/-- A new type over a source with the given columns. -/
def checkCreation (columns : NameSet) (existing : List EquipmentType) (t : EquipmentType) :
    Except Violation Unit := do
  checkNames t
  checkParentExists existing t.parent?
  checkIdentifierCount t.attributes
  checkParentKeyCount t.parent?.isSome t.attributes
  checkAttributes columns .empty t.attributes

/-- No new attribute is an identifier, and new parent identifiers are texts. -/
def checkNewKeys (attributes : List Attribute) : Except Violation Unit :=
  attributes.forM fun a => do
    ensure (!a.isIdentifier) (.identifierResubmitted a.name)
    ensure (!a.isParentIdentifier || a.dataType == .string) (.parentKeyWrongType a.name)

/-- The new attributes bring a parent identifier exactly when the type gets its first parent by this update. -/
def checkNewParentKey (t : EquipmentType) (requested : Option String) (attributes : List Attribute) :
    Except Violation Unit :=
  let hasKey := t.parentIdentifier?.isSome
  match attributes.countP (·.isParentIdentifier) with
  | 0 => ensure (t.parent?.isSome || requested.isNone || hasKey) .parentKeyRequired
  | 1 => do
    ensure (!(t.parent?.isSome || hasKey)) .parentKeyPresent
    ensure requested.isSome .parentNotSelected
  | n => .error (.manyParentKeys n)

/-- New attributes for a type, and perhaps a parent, an empty id standing for none. -/
def checkUpdate (columns : NameSet) (t : EquipmentType) (parent : Option String) (attributes : List Attribute) :
    Except Violation Unit := do
  checkNewKeys attributes
  checkNewParentKey t (parent.filter (· ≠ "")) attributes
  checkAttributes columns (t.attributes.foldl Taken.add .empty) attributes

/-- A parent for an existing type: another existing type that is not below it. A type that has a parent keeps
it while there are instances. -/
def checkParentChange (t : EquipmentType) (parent : String) (existing : List EquipmentType)
    (descendants : List String) (hasInstances : Bool) : Except Violation Unit := do
  ensure (parent ≠ t.id) (.selfParent t.typeName)
  ensure (existing.any (·.id == parent)) (.parentNotFound parent)
  ensure (!descendants.contains parent) (.parentIsDescendant parent)
  ensure (!(t.parent?.isSome && hasInstances)) (.hasInstances t.typeName)

/-- Names of types differ in more than the case of their letters. -/
def checkTypeName (existing : List EquipmentType) (name : String) : Except Violation Unit :=
  ensure (!existing.any fun t => LetterCase.sameLetters t.typeName name) (.typeNameTaken name)

/-- A source serves one type. -/
def checkSource (existing : List EquipmentType) (sourceId : String) : Except Violation Unit :=
  match existing.find? (·.sourceId == sourceId) with
  | some owner => .error (.sourceInUse sourceId owner.typeName)
  | none => .ok ()

def checkDeletion (t : EquipmentType) (hasChildren hasInstances : Bool) : Except Violation Unit := do
  ensure (!hasChildren) (.hasChildren t.typeName)
  ensure (!hasInstances) (.hasInstances t.typeName)

end Inventory.Admission
