import Inventory.Hierarchy.Topology
import Inventory.Listing.Request

/-!
Queries for what lies above and below one instance or type, and what their answers say. Each counts its anchor
in a block of its own, so that an anchor that is missing differs from one that reaches nothing.
-/

namespace Inventory.Hierarchy

open Query Listing

def existsBlock : String := "Exists"

def anchorVar : String := "Anchor"

def reachedVar : String := "Reached"

def typeLabel : String := "Type"

/-- One hop for each type, and at least one. -/
def defaultDepth (typeCount : Nat) : Nat := max typeCount 1 % (1 <<< 32)

def counted (block var : String) : Block := countOf (Block.named block (.uid (uidVar var)))

/-- The nodes of a variable, by identifier, with their types. -/
def reachedRows (block var : String) : Block :=
  ((Block.named block (.uid (uidVar var))).orderBy Vocabulary.identifier .asc).select
    [.field idLabel Vocabulary.uid, .field identifierLabel Vocabulary.identifier,
      .field typeLabel Vocabulary.equipmentType]

/-- The anchor if it passes a filter, and the nodes reached from it. -/
def anchored (anchor : Uid) (filter : Filter) (hop : Traversal) : Block :=
  (((Block.var (.uid [.node anchor])).bindAs anchorVar).filtered filter).traverse hop

def hopTo (direction : Direction) (predicate : String) (filter : Filter) : Traversal :=
  ⟨direction.edge predicate, filter, some reachedVar, []⟩

/-- The blocks of a query about an anchor. -/
def blocks (root rows : Block) : List Block :=
  [root, counted existsBlock anchorVar, counted countBlock reachedVar, rows]

/-- What lies within some hops of an instance. -/
def traversal (anchor : Uid) (direction : Direction) (depth : Nat) (scopes : List String) : Listing.Request :=
  let name := match direction with
    | .ancestors => "Ancestors"
    | .descendants => "Descendants"
  let root := anchored anchor (.and [.eq Vocabulary.typeName (.str Vocabulary.equipmentMarker), scopeFilter scopes])
    (hopTo direction Vocabulary.parent (scopeFilter scopes))
  let rows := reachedRows rowsBlock reachedVar
  { query := ⟨name, [], blocks { root with recursion := some ⟨depth, false⟩ } rows⟩, vars := .empty }

/-- The types within some hops of a type. -/
def typeTraversal (anchor : Uid) (direction : Direction) (depth : Nat) (scopes : List String) : Listing.Request :=
  let root := anchored anchor (.and [.has Vocabulary.metaType, scopeFilter scopes])
    (hopTo direction Vocabulary.metaParent (scopeFilter scopes))
  let rows := ((Block.named rowsBlock (.uid (uidVar reachedVar))).orderBy Vocabulary.metaType .asc).select
    [.field idLabel Vocabulary.uid, .field typeLabel Vocabulary.metaType]
  { query := ⟨"EquipmentTypeHierarchy", [], blocks { root with recursion := some ⟨depth, false⟩ } rows⟩
    vars := .empty }

/-- The parents of one type of an instance of another. -/
def parents (t parentType : EquipmentType) (anchor : Uid) (scopes : List String) : Listing.Request :=
  let root := anchored anchor (typeFilter t.typeName scopes)
    (hopTo .ancestors Vocabulary.parent (typeFilter parentType.typeName scopes))
  let rows := ((Block.named rowsBlock (.uid (uidVar reachedVar))).orderBy Vocabulary.identifier .asc).select
    (projection parentType false)
  { query := ⟨"Parents", [], blocks root rows⟩, vars := .empty }

/-- A page of the children of one type of an instance of another. -/
def children (t childType : EquipmentType) (anchor : Uid) (s : ListingSpec) (scopes : List String) : Listing.Request :=
  let root := anchored anchor (typeFilter t.typeName scopes)
    (hopTo .descendants Vocabulary.parent (.and [relationshipFilter childType s.filter, scopeFilter scopes]))
  let rows := paged (Block.named rowsBlock (.uid (uidVar reachedVar))) childType s
  { query := ⟨"Children", pageParams, blocks root rows⟩, vars := pageVars s }

/-- The page in an answer about an anchor. -/
def readPage (name : String) (anchor : Uid) (a : Answer) : Except Failure Page :=
  if a.count existsBlock totalLabel = 0 then .error (.notFound s!"equipment {anchor.text}")
  else
    let total := a.count countBlock totalLabel
    if total = 0 then .error (.noData s!"{name} of {anchor.text}") else .ok ⟨total, a.rows rowsBlock⟩

def levelVar (i : Nat) : String := "L" ++ Text.Numeral.decimal i

def levelBlock (i : Nat) : String := "Level" ++ Text.Numeral.decimal i

/-- The hops from level `i` on, each to nodes of the type of its level. -/
def levelHops (direction : Direction) (scopes : List String) : Nat → List String → List Traversal
  | _, [] => []
  | i, level :: levels =>
    [⟨direction.edge Vocabulary.parent, typeFilter level scopes, some (levelVar i),
      levelHops direction scopes (i + 1) levels⟩]

/-- The nodes at each level of a topology. -/
def topology (t : Topology) (anchor : Uid) (scopes : List String) : Query :=
  let root := { ((Block.var (.uid [.node anchor])).bindAs (levelVar 0)).filtered (typeFilter t.anchorType scopes) with
    traversals := levelHops t.direction scopes 1 t.levels.tail }
  ⟨"Topology_" ++ t.name, [], root :: counted existsBlock (levelVar 0) ::
    (List.range' 1 t.hops).map fun i => reachedRows (levelBlock i) (levelVar i)⟩

/-- The nodes of one type at one level. -/
structure Level where
  typeName : String
  rows : List Json

structure Path where
  topology : String
  anchor : Uid
  /-- The nearest level first. -/
  levels : List Level

def readPath (t : Topology) (anchor : Uid) (a : Answer) : Except Failure Path :=
  if a.count existsBlock totalLabel = 0 then .error (.notFound s!"{t.anchorType} {anchor.text}")
  else
    let levels := t.levels.tail.zipIdx.map fun (name, i) => ⟨name, a.rows (levelBlock (i + 1))⟩
    if levels.all fun (l : Level) => l.rows.isEmpty then
      .error (.noData s!"{t.name} topology of {anchor.text}")
    else .ok ⟨t.name, anchor, levels⟩

end Inventory.Hierarchy
