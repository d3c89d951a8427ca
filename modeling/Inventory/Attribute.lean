import Inventory.FieldValue

/-!
Attributes of equipment types.
-/

namespace Inventory

/-- One field of an equipment type, read from a column of the type's source. -/
structure Attribute where
  /-- The node that stores the attribute, or nothing yet. -/
  id : String
  name : String
  dataType : DataType
  isIdentifier : Bool
  isParentIdentifier : Bool
  isSearchable : Bool
  isDisplayed : Bool
  /-- The column that the values come from. -/
  mappedTo : String
deriving DecidableEq, Inhabited

namespace Attribute

/-- An attribute without a mark. -/
def new (name : String) (dataType : DataType) (mappedTo : String) : Attribute :=
  ⟨"", name, dataType, false, false, false, false, mappedTo⟩

/-- A displayed text that tells the instances of a type apart. -/
def identifier (name mappedTo : String) : Attribute :=
  { new name .string mappedTo with isIdentifier := true, isDisplayed := true }

/-- A text that names the parent of an instance. -/
def parentIdentifier (name mappedTo : String) : Attribute :=
  { new name .string mappedTo with isParentIdentifier := true }

def asIdentifier (a : Attribute) : Attribute := { a with isIdentifier := true }

def asParentIdentifier (a : Attribute) : Attribute := { a with isParentIdentifier := true }

def searchable (a : Attribute) : Attribute := { a with isSearchable := true }

def displayed (a : Attribute) : Attribute := { a with isDisplayed := true }

def withId (a : Attribute) (id : String) : Attribute := { a with id }

/-- Neither identifier nor parent identifier: only such attributes have a predicate of their own. -/
def isPlain (a : Attribute) : Bool := !a.isIdentifier && !a.isParentIdentifier

def fieldNames : List String :=
  ["id", "name", "data_type", "is_identifier", "is_parent_identifier", "is_searchable", "is_displayed", "mapped_to"]

def toJson (a : Attribute) : Json :=
  .ofFields [("id", .str a.id), ("name", .str a.name), ("data_type", .str a.dataType.name),
    ("is_identifier", .bool a.isIdentifier), ("is_parent_identifier", .bool a.isParentIdentifier),
    ("is_searchable", .bool a.isSearchable), ("is_displayed", .bool a.isDisplayed), ("mapped_to", .str a.mappedTo)]

open Document in
def ofDocument? (d : Document) : Option Attribute := do
  match ← d.record? fieldNames with
  | [id, name, dataType, isIdentifier, isParentIdentifier, isSearchable, isDisplayed, mappedTo] =>
    return {
      id := ← defaulted text? "" id
      name := ← required text? name
      dataType := ← required (word? DataType.words) dataType
      isIdentifier := ← defaulted bool? false isIdentifier
      isParentIdentifier := ← defaulted bool? false isParentIdentifier
      isSearchable := ← defaulted bool? false isSearchable
      isDisplayed := ← defaulted bool? false isDisplayed
      mappedTo := ← required text? mappedTo }
  | _ => none

end Attribute

end Inventory
