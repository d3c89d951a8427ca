import Inventory.Failure
import Inventory.Listing.Filter

/-!
Payloads as records of an equipment type.
-/

namespace Inventory

inductive FieldRole
  | identifier
  | parentIdentifier
  | plain
deriving DecidableEq

def FieldRole.ofAttribute (a : Attribute) : FieldRole :=
  if a.isIdentifier then identifier else if a.isParentIdentifier then parentIdentifier else plain

/-- Where an attribute is read from and where it is kept. -/
structure Field where
  name : String
  column : String
  dataType : DataType
  role : FieldRole
  predicate : String
deriving DecidableEq

namespace Field

def ofAttribute (t : EquipmentType) (a : Attribute) : Field :=
  ⟨a.name, a.mappedTo, a.dataType, .ofAttribute a, Listing.predicateOf t a⟩

def ofType (t : EquipmentType) : List Field := t.attributes.map (ofAttribute t)

/-- The value in the field's column; `null` is no value. -/
def read? (payload : List (String × Json)) (f : Field) : Except Violation (Option FieldValue) :=
  match Entries.lookup f.column payload with
  | none | some .null => .ok none
  | some raw =>
    match FieldValue.convert f.dataType raw with
    | .ok v => .ok (some v)
    | .error e => .error (.invalidPayload f.column e.message)

end Field

structure BoundField where
  name : String
  predicate : String
  value : FieldValue
deriving DecidableEq

/-- A payload that has been read by the attributes of a type. -/
structure Record where
  typeName : String
  identifier : String
  parentIdentifier : Option String
  /-- The identifier, and the values of plain attributes in their order. -/
  values : List BoundField
deriving DecidableEq

namespace Record

/-- The value of the attribute of a name. -/
def get? (r : Record) (name : String) : Option FieldValue := (r.values.find? (·.name == name)).map (·.value)

/-- A field with what has been read for it. -/
abbrev Reading := Field × Option FieldValue

/-- The value of each field, the first that cannot be read being an error. -/
def readAll (payload : List (String × Json)) : List Field → Except Violation (List Reading)
  | [] => .ok []
  | f :: fs => do
    let v ← f.read? payload
    return (f, v) :: (← readAll payload fs)

/-- The text of the last field in a role, unless it is blank. -/
def keyText (role : FieldRole) (read : List Reading) : Option String :=
  match (read.filter (·.1.role = role)).getLast? with
  | some (_, some v) => if Text.Blank.isAllBlank v.display then none else some v.display
  | _ => none

def plainFields (read : List Reading) : List BoundField :=
  read.filterMap fun (f, v) => if f.role = .plain then v.map fun v => ⟨f.name, f.predicate, v⟩ else none

/-- The record of a payload. -/
def bind (t : EquipmentType) (payload : List (String × Json)) : Except Violation Record :=
  match (Field.ofType t).find? (·.role = .identifier) with
  | none => .error (.typeWithoutIdentifier t.typeName)
  | some key => do
    let read ← readAll payload (Field.ofType t)
    match keyText .identifier read with
    | none => .error (.payloadWithoutIdentifier t.typeName key.column)
    | some id =>
      return {
        typeName := t.typeName
        identifier := id
        parentIdentifier := keyText .parentIdentifier read
        values := ⟨key.name, key.predicate, .string id⟩ :: plainFields read }

end Record

end Inventory
