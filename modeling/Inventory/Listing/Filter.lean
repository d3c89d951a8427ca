import Inventory.EquipmentType
import Inventory.Listing.Spec
import Inventory.Vocabulary

/-!
How searches, sorting and projection by attribute names become those by predicates. Searches by unknown
attributes and values of the wrong type are left out.
-/

namespace Inventory.Listing

open Query

/-- Whether numbers are searched for by equality or as a lower bound. -/
inductive Path
  | listed
  | related
deriving DecidableEq

/-- The characters that stand for themselves in a pattern only behind a backslash. -/
def metaChars : List Char :=
  ['\\', '.', '+', '*', '?', '(', ')', '|', '[', ']', '\x7b', '\x7d', '^', '$', '#', '&', '-', '~']

def escapeChar (c : Char) : List Char := if metaChars.contains c then ['\\', c] else [c]

/-- The pattern of the texts that begin with `s`. -/
def startingWith (s : String) : String := String.ofList ('^' :: s.toList.flatMap escapeChar)

/-- The predicate that holds the values of an attribute. -/
def predicateOf (t : EquipmentType) (a : Attribute) : String :=
  if a.isIdentifier then Vocabulary.identifier
  else if a.isParentIdentifier then Vocabulary.parent
  else Vocabulary.attributePredicate t.typeName a.name

def alternative (path : Path) (predicate : String) (t : DataType) (c : Comparison) (v : FieldValue) : Filter :=
  match t, c with
  | .string, .eq => .eq predicate v.toJson
  | .string, .regex => .regex predicate (startingWith v.display) true
  | _, _ => match path with
    | .listed => .eq predicate v.toJson
    | .related => .ge predicate v.toJson

/-- Any of the values that have the attribute's type. -/
def searchFilter? (path : Path) (t : EquipmentType) (a : Attribute) (s : Search) : Option Filter :=
  Filter.anyOf <| s.values.filterMap fun raw =>
    (FieldValue.convert a.dataType raw).toOption.map
      (alternative path (predicateOf t a) a.dataType s.comparison)

/-- The attribute that a search is about, if it may be searched by. -/
def searched? (path : Path) (t : EquipmentType) (key : String) : Option Attribute :=
  (t.attribute? key).filter fun a =>
    !a.isParentIdentifier && (path == .listed || (a.isSearchable && a.isDisplayed))

def attributeFilter? (path : Path) (t : EquipmentType) (f : SearchFilter) : Option Filter :=
  Filter.allOf <| f.ordered.filterMap fun s => (searched? path t s.key).bind fun a => searchFilter? path t a s

/-- The searches of a listing. -/
def instanceFilter? (t : EquipmentType) (f : SearchFilter) : Option Filter := attributeFilter? .listed t f

/-- The searches among related instances, which must be of the type: only by attributes that are both searchable
and displayed, and with numbers as lower bounds. -/
def relationshipFilter (t : EquipmentType) (f : SearchFilter) : Filter :=
  let ofType := Filter.eq Vocabulary.equipmentType (.str t.typeName)
  match attributeFilter? .related t f with
  | some attributes => .and [ofType, attributes]
  | none => ofType

/-- The nodes of any of the scopes. -/
def scopeFilter (scopes : List String) : Filter := .eq Vocabulary.scopes (.ofStrings scopes)

/-- Nodes of a type in any of the scopes. -/
def typeFilter (typeName : String) (scopes : List String) : Filter :=
  .and [.eq Vocabulary.equipmentType (.str typeName), scopeFilter scopes]

/-- The predicate to sort by: that of a displayed attribute, and else the identifier. -/
def sortPredicate (t : EquipmentType) (sortBy : String) : String :=
  if sortBy = "" then Vocabulary.identifier
  else
    match t.attribute? sortBy with
    | some a =>
      if a.isIdentifier || a.isParentIdentifier || !a.isDisplayed then Vocabulary.identifier
      else Vocabulary.attributePredicate t.typeName a.name
    | none => Vocabulary.identifier

/-- The label of a node's uid. -/
def idLabel : String := "ID"

/-- The label of an instance's identifier where its attributes are not known. -/
def identifierLabel : String := "EquipID"

def attributeSelection? (t : EquipmentType) (all : Bool) (a : Attribute) : Option Selection :=
  let label := Vocabulary.sanitize a.name
  if a.isIdentifier then some (.field label Vocabulary.identifier)
  else if a.isParentIdentifier then
    if all then
      some (.edge label ⟨Vocabulary.parent, false⟩
        [.field idLabel Vocabulary.uid, .field identifierLabel Vocabulary.identifier])
    else none
  else if all || a.isDisplayed then some (.field label (Vocabulary.attributePredicate t.typeName a.name))
  else none

/-- The uid, the identifier and the displayed attributes of an instance, or all its attributes and its parent. -/
def projection (t : EquipmentType) (all : Bool) : List Selection :=
  .field idLabel Vocabulary.uid :: t.attributes.filterMap (attributeSelection? t all)

end Inventory.Listing
