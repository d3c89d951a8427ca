import Inventory.Failure
import Inventory.Listing.Filter
import Inventory.Query.Answer

/-!
Queries for listings and for single instances, and what their answers say. A listing binds the instances that
match, and counts and reports them in two blocks, of which only the second is cut into pages.
-/

namespace Inventory.Listing

open Query

def rowsBlock : String := "Equipments"

def countBlock : String := "NumOfRecords"

def totalLabel : String := "TotalCount"

def offsetVar : String := "$offset"

def pageSizeVar : String := "$pagesize"

def candidatesVar : String := "EquipID"

/-- A query with the values of its variables. -/
structure Request where
  query : Query
  vars : Bindings

def pageVars (s : ListingSpec) : Bindings :=
  Table.ofList [(offsetVar, Text.Numeral.decimal s.offset), (pageSizeVar, Text.Numeral.decimal s.pageSize)]

def pageParams : List (String × String) := [(offsetVar, "int"), (pageSizeVar, "int")]

/-- A block's nodes sorted, cut into pages and projected. -/
def paged (b : Block) (t : EquipmentType) (s : ListingSpec) : Block :=
  ({ b.orderBy (sortPredicate t s.sortBy) s.sortOrder with
      first := some (.var pageSizeVar), offset := some (.var offsetVar) }).select (projection t false)

/-- The instances at an edge of an entity in scope, bound to a variable. -/
def linkedBlock (predicate id edge var : String) (scopes : List String) : Block :=
  ((Block.var (.eq predicate (.str id))).filtered (scopeFilter scopes)).traverse
    ⟨⟨edge, false⟩, none, some var, []⟩

/-- The instances of an application's installations, both in scope. -/
def applicationBlock (id var : String) (scopes : List String) : Block :=
  ((Block.var (.eq Vocabulary.applicationId (.str id))).filtered (scopeFilter scopes)).traverse
    ⟨⟨Vocabulary.applicationInstance, false⟩, scopeFilter scopes, none,
      [⟨⟨Vocabulary.instanceEquipment, false⟩, none, some var, []⟩]⟩

/-- A block for each related entity, with the variable that it binds. -/
def relatedBlocks (r : Related) (scopes : List String) : List (String × Block) :=
  (r.application.toList.map fun id => ("ID_App", applicationBlock id "ID_App" scopes)) ++
  (r.product.toList.map fun id =>
    ("ID_Pro", linkedBlock Vocabulary.productTag id Vocabulary.productEquipment "ID_Pro" scopes)) ++
  (r.installation.toList.map fun id =>
    ("ID_Ins", linkedBlock Vocabulary.instanceId id Vocabulary.instanceEquipment "ID_Ins" scopes))

def uidVar (v : String) : List NodeRef := [.var v]

def countOf (block : Block) : Block := block.select [.count totalLabel]

/-- The instances of a type that match. -/
def candidates (t : EquipmentType) (s : ListingSpec) (scopes : List String) : Block :=
  ((Block.var (.eq Vocabulary.equipmentType (.str t.typeName))).bindAs candidatesVar).filtered
    (Filter.allOf (scopeFilter scopes :: (instanceFilter? t s.filter).toList))

/-- A page of the instances of a type. -/
def list (t : EquipmentType) (s : ListingSpec) (scopes : List String) : Request :=
  let related := relatedBlocks s.related scopes
  let linked := Filter.allOf (related.map fun r => Filter.uid (uidVar r.1))
  let result := fun name => (Block.named name (.uid (uidVar candidatesVar))).filtered linked
  { query := ⟨rowsBlock, pageParams, related.map (·.2) ++
      [candidates t s scopes, countOf (result countBlock), paged (result rowsBlock) t s]⟩
    vars := pageVars s }

/-- The page in an answer to the query of a name; no match is no data. -/
def readPage (name : String) (a : Answer) : Except Failure Page :=
  let total := a.count countBlock totalLabel
  if total = 0 then .error (.noData s!"no {name} matched") else .ok ⟨total, a.rows rowsBlock⟩

def instanceBlock : String := "Equipment"

/-- The instance of an identifier, with all its attributes. -/
def get (t : EquipmentType) (identifier : String) (scopes : List String) : Request :=
  { query := ⟨instanceBlock, [],
      [((Block.named instanceBlock (.eq Vocabulary.identifier (.str identifier))).filtered
        (typeFilter t.typeName scopes)).select (projection t true)]⟩
    vars := .empty }

def readInstance (identifier : String) (a : Answer) : Except Failure Json :=
  match a.rows instanceBlock with
  | row :: _ => .ok row
  | [] => .error (.notFound s!"equipment {identifier}")

/-- The number of instances of a type. -/
def instanceCount (typeName : String) (scopes : List String) : Query :=
  ⟨"InstanceCount", [], [countOf ((Block.named countBlock (.eq Vocabulary.equipmentType (.str typeName))).filtered
    (scopeFilter scopes))]⟩

end Inventory.Listing
