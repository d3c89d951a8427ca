import Inventory.Record.Upsert
import Inventory.Repository.Types

/-!
Listings, look-ups, hierarchies and upserts of instances.
-/

namespace Inventory.Repository

/-- A page of the instances of a type. -/
def listInstances (t : EquipmentType) (s : ListingSpec) (scopes : List String) : Op Page := do
  let request := Listing.list t s scopes
  reading (Listing.readPage request.query.name (← read "list_equipments" request.query request.vars))

/-- The instance of an identifier. -/
def getInstance (t : EquipmentType) (identifier : String) (scopes : List String) : Op Json := do
  let request := Listing.get t identifier scopes
  reading (Listing.readInstance identifier (← read "equipment" request.query request.vars))

def readAnchored (operation : String) (anchor : Uid) (request : Listing.Request) : Op Page := do
  reading (Hierarchy.readPage request.query.name anchor (← read operation request.query request.vars))

/-- The parents of one type of an instance. -/
def instanceParents (t parentType : EquipmentType) (anchor : Uid) (scopes : List String) : Op Page :=
  readAnchored "equipment_parents" anchor (Hierarchy.parents t parentType anchor scopes)

/-- A page of the children of one type of an instance. -/
def instanceChildren (t childType : EquipmentType) (anchor : Uid) (s : ListingSpec) (scopes : List String) :
    Op Page :=
  readAnchored "equipment_children" anchor (Hierarchy.children t childType anchor s scopes)

/-- A depth as it is given, or one hop for each type in the scopes. -/
def depthOr (scopes : List String) : Option Nat → Op Nat
  | some d => pure d
  | none => (fun ts => Hierarchy.defaultDepth ts.length) <$> types scopes

/-- The instances above or below an instance, within some hops or as many as there are types in the scopes. -/
def instanceHierarchy (anchor : Uid) (direction : Direction) (depth : Option Nat) (scopes : List String) :
    Op Page := do
  let depth ← depthOr scopes depth
  readAnchored "equipment_hierarchy" anchor (Hierarchy.traversal anchor direction depth scopes)

/-- The instances at each level of a topology. -/
def instanceTopology (t : Topology) (anchor : Uid) (scopes : List String) : Op Hierarchy.Path := do
  reading (Hierarchy.readPath t anchor (← read "equipment_topology" (Hierarchy.topology t anchor scopes) .empty))

/-- Writes the record of a payload at a time. -/
def upsertInstance (r : Repository) (g : Guard) (scope typeName : String) (payload : List (String × Json))
    (now : Int) : Op Record := do
  let operation := "upsert_equipment"
  r.verify g operation
  let t ← typeByName typeName [scope]
  let record ← check (Record.bind t payload)
  let request ← check (record.upsert scope t.typeName t.parentTypeName now)
  discard <| step operation (Store.execute request)
  return record

end Inventory.Repository
