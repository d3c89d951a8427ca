import Inventory.Listing.Request
import Inventory.Record.Basic
import Inventory.Store.Request
import Inventory.Timestamp

/-!
The request that writes a record: to the instance of its identifier in the scope, which is made if there is none,
and below its parent, which is made without attributes if there is none.
-/

namespace Inventory.Record

open Query Store

def instanceVar : String := "equipment"

def parentVar : String := "parent"

/-- The instances of an identifier, of a type in a scope. -/
def lookup (var scope typeName identifier : String) : Block :=
  ((Block.var (.eq Vocabulary.identifier (.str identifier))).bindAs var).filtered
    (Filter.and [.eq Vocabulary.typeName (.str Vocabulary.equipmentMarker), Listing.scopeFilter [scope],
      .eq Vocabulary.equipmentType (.str typeName)])

/-- What every new instance carries, if the variable has no node. -/
def creation (var scope typeName identifier created : String) : Mutation :=
  let s := Subject.var var
  { condition := some (.empty var)
    set := [.text s Vocabulary.scopes scope, .text s Vocabulary.identifier identifier,
      .text s Vocabulary.typeName Vocabulary.equipmentMarker, .text s Vocabulary.nodeType Vocabulary.equipmentNodeType,
      .text s Vocabulary.nodeType (Vocabulary.typeDeclaration typeName), .text s Vocabulary.equipmentType typeName,
      .text s Vocabulary.created created]
    delete := [] }

/-- The values of a record. The identifier is written only where an instance is made. -/
def update (r : Record) (updated : String) : Mutation :=
  let s := Subject.var instanceVar
  { condition := none
    set := (r.values.filter (·.predicate ≠ Vocabulary.identifier)).map
        (fun f => Quad.value s f.predicate f.value.toJson) ++
      [.text s Vocabulary.updated updated]
    delete := [] }

def link : Mutation := ⟨none, [.edge (.var instanceVar) Vocabulary.parent (.var parentVar)], []⟩

/-- The parent of a record, as identifier and type. -/
def parent? (r : Record) (typeName : String) (parentTypeName : Option String) :
    Except Violation (Option (String × String)) :=
  match r.parentIdentifier, parentTypeName with
  | some id, some t => .ok (some (id, t))
  | some id, none => .error (.parentValueWithoutParent typeName id)
  | none, _ => .ok none

/-- The request that writes a record at a time. -/
def upsert (scope typeName : String) (parentTypeName : Option String) (r : Record) (now : Int) :
    Except Violation Request := do
  let parent ← r.parent? typeName parentTypeName
  let time := Timestamp.render now
  let own := lookup instanceVar scope typeName r.identifier
  let write := [r.update time, creation instanceVar scope typeName r.identifier time]
  match parent with
  | none => return .of (some ⟨"Upsert", [], [own]⟩) write
  | some (id, t) =>
    return .of (some ⟨"Upsert", [], [own, lookup parentVar scope t id]⟩)
      (write ++ [link, creation parentVar scope t id time])

end Inventory.Record
