import Inventory.Admission
import Inventory.Hierarchy.Request
import Inventory.Repository.Sources

/-!
The life of equipment types. A type is a node with its name, source, parent and scopes, and a node for each
attribute. The schema of a type is declared before the type is written, so that a type never stands without it.
-/

namespace Inventory.Repository

open Query Store Listing

def typesBlock : String := "EqTypes"

def loadTypes (operation : String) (b : Block) : Op (List EquipmentType) := do
  let answer ← read operation ⟨typesBlock, [], [b.select typeSelections]⟩ .empty
  reading (loadRows TypeRow.ofDocument? TypeRow.load (answer.rows typesBlock))

/-- The types in any of the scopes, by name. -/
def types (scopes : List String) : Op (List EquipmentType) :=
  loadTypes "equipment_types"
    (((Block.named typesBlock (.has Vocabulary.metaType)).filtered (scopeFilter scopes)).orderBy
      Vocabulary.metaType .asc)

def typeByName (name : String) (scopes : List String) : Op EquipmentType := do
  let found ← loadTypes "equipment_type_by_name"
    ((Block.named typesBlock (.eq Vocabulary.metaType (.str name))).filtered (scopeFilter scopes))
  orNotFound s!"equipment type {name}" found.head?

def typeUid (id : String) : Op Uid := orNotFound s!"equipment type {id}" (Uid.parse? id)

def typeById (id : String) (scopes : List String) : Op EquipmentType := do
  let u ← typeUid id
  let found ← loadTypes "equipment_type_by_id" ((Block.named typesBlock (.uid [.node u])).filtered
    (Filter.and [.has Vocabulary.metaType, scopeFilter scopes]))
  orNotFound s!"equipment type {id}" found.head?

/-- The types below a type within some levels, or as many levels as there are types in the scopes. -/
def typeChildren (id : String) (depth : Option Nat) (scopes : List String) : Op (List EquipmentType) := do
  let u ← typeUid (Text.Blank.trim id)
  let all ← types scopes
  let request := Hierarchy.typeTraversal u .descendants (depth.getD (Hierarchy.defaultDepth all.length)) scopes
  let answer ← read "equipment_type_children" request.query request.vars
  let page ← reading (Hierarchy.readPage request.query.name u answer)
  let ids := (page.column idLabel).filterMap Json.str?
  return all.filter fun t => ids.contains t.id

/-- Whether there are instances of a type in any of the scopes. -/
def hasInstances (typeName : String) (scopes : List String) : Op Bool := do
  let answer ← read "has_instances" (instanceCount typeName scopes) .empty
  return 0 < answer.count countBlock totalLabel

/-- The quads of an attribute's node, which hangs on the node of its type. -/
def attributeQuads (owner : Subject) (label : String) (a : Attribute) : List Quad :=
  let node := Subject.blank label
  [.edge owner Vocabulary.metaAttribute node,
    .text node Vocabulary.nodeType Vocabulary.attributeNodeType,
    .text node Vocabulary.attributeName a.name,
    .value node Vocabulary.attributeType (.num (.int a.dataType.code)),
    .text node Vocabulary.attributeSchemaName (Vocabulary.sanitize a.name),
    .value node Vocabulary.attributeSearchable (.bool a.isSearchable),
    .value node Vocabulary.attributeDisplayed (.bool a.isDisplayed),
    .value node Vocabulary.attributeIdentifier (.bool a.isIdentifier),
    .value node Vocabulary.attributeParentIdentifier (.bool a.isParentIdentifier),
    .text node Vocabulary.attributeMappedTo a.mappedTo]

def typeNodeLabel : String := "type"

def attributeLabel (i : Nat) : String := "attr-" ++ Text.Numeral.decimal i

/-- Attributes with the labels of their nodes. -/
def labelled (attributes : List Attribute) : List (String × Attribute) :=
  attributes.zipIdx.map fun (a, i) => (attributeLabel i, a)

def allAttributeQuads (owner : Subject) (attributes : List Attribute) : List Quad :=
  (labelled attributes).flatMap fun (label, a) => attributeQuads owner label a

/-- The attributes with the uids of their nodes. -/
def assignIds (receipt : Graph.Receipt) (attributes : List Attribute) : Except Failure (List Attribute) :=
  (labelled attributes).mapM fun (label, a) =>
    match receipt.assigned.get? label with
    | some u => .ok (a.withId u.text)
    | none => .error (.internal "assign attribute ids" (.attributeWithoutUid a.name))

def declare (operation : String) (typeName : String) (attributes : List Attribute) : Op Unit :=
  alter operation (Schema.Declaration.ofAttributes typeName attributes).statements

def scopeQuads (owner : Subject) (scopes : List String) : List Quad :=
  scopes.map fun s => .text owner Vocabulary.scopes s

/-- Writes a new type, and gives it with the ids of its nodes. -/
def createType (r : Repository) (g : Guard) (t : EquipmentType) : Op EquipmentType := do
  let operation := "create_equipment_type"
  r.verify g operation
  let scopes := t.scopes.items
  let source ← sourceById t.sourceId scopes
  let existing ← types scopes
  check (Admission.checkTypeName existing t.typeName)
  check (Admission.checkSource existing t.sourceId)
  check (Admission.checkCreation source.columns existing t)
  let parentName := t.parent?.bind fun p => (existing.find? (·.id == p)).map (·.typeName)
  let owner := Subject.blank typeNodeLabel
  let sourceUid ← orNotFound s!"metadata source {t.sourceId}" (Uid.parse? t.sourceId)
  let parentUid ← t.parent?.mapM typeUid
  let quads := [.text owner Vocabulary.metaType t.typeName,
      .text owner Vocabulary.nodeType Vocabulary.metadataEquipmentNodeType,
      .edge owner Vocabulary.metaSource (.node sourceUid)] ++
    (parentUid.toList.map fun u => .edge owner Vocabulary.metaParent (.node u)) ++
    scopeQuads owner scopes ++ allAttributeQuads owner t.attributes
  declare operation t.typeName t.attributes
  let receipt ← write operation none [⟨none, quads, []⟩]
  match receipt.assigned.get? typeNodeLabel with
  | none => throw (.internal operation .typeWithoutUid)
  | some u =>
    let attributes ← reading (assignIds receipt t.attributes)
    return { t with id := u.text, sourceName := source.sourceName, parentTypeName := parentName, attributes }

/-- The ids of the types below a type. -/
def descendantIds (id : String) (scopes : List String) : Op (List String) := do
  tryCatch (List.map (·.id) <$> typeChildren id none scopes) fun f =>
    if f.isNoData then pure [] else throw f

/-- Checks a new parent of a type against the types in the scopes. -/
def admitParent (t : EquipmentType) (change : Option String) (scopes : List String) : Op Unit :=
  match change with
  | none => return
  | some p => do
    let all ← types scopes
    let descendants ← descendantIds t.id scopes
    let occupied ← hasInstances t.typeName scopes
    check (Admission.checkParentChange t p all descendants occupied)

/-- Adds attributes and scopes to a type, and perhaps a parent, an empty id standing for none. -/
def updateType (r : Repository) (g : Guard) (id : String) (parent : Option String) (attributes : List Attribute)
    (scopes : List String) : Op EquipmentType := do
  let operation := "update_equipment_type"
  r.verify g operation
  let existing ← typeById id scopes
  let parent := parent.filter (· ≠ "")
  let source ← sourceById existing.sourceId existing.scopes.items
  let change := parent.filter fun p => existing.parent? ≠ some p
  admitParent existing change scopes
  check (Admission.checkUpdate source.columns existing parent attributes)
  let owner := Subject.node (← typeUid existing.id)
  let parentUid ← change.mapM typeUid
  let quads := (parentUid.toList.map fun u => .edge owner Vocabulary.metaParent (.node u)) ++
    scopeQuads owner scopes ++ allAttributeQuads owner attributes
  declare operation existing.typeName (existing.attributes ++ attributes)
  let receipt ← write operation none [⟨none, quads, []⟩]
  discard <| reading (assignIds receipt attributes)
  typeById existing.id scopes

/-- Removes a type that has no children and no instances in the scope. Its node stays, emptied and marked. -/
def deleteType (r : Repository) (g : Guard) (typeName scope : String) : Op Unit := do
  let operation := "delete_equipment_type"
  r.verify g operation
  let existing ← typeByName typeName [scope]
  let all ← types [scope]
  let occupied ← hasInstances typeName [scope]
  check (Admission.checkDeletion existing (all.any fun t => t.parent? = some existing.id) occupied)
  let node := Subject.node (← typeUid existing.id)
  discard <| write operation none [⟨none, [.text node Vocabulary.recycle "true"], [.everything node]⟩]

end Inventory.Repository
