import Inventory.Ordered.Set
import Inventory.Query.Basic
import Inventory.Schema.Statement
import Inventory.Store.Error

/-!
Graphs of nodes that hold values and edges by predicate. Every edge is also kept from its target backwards. Nodes
are never removed, and each new one has a larger uid than those before it.
-/

namespace Inventory

abbrev UidSet := OrderedSet Uid

structure Node where
  values : Table String (List Json)
  edges : Table String UidSet
deriving DecidableEq

def Node.empty : Node := ⟨.empty, .empty⟩

structure Graph where
  lastUid : Nat
  nodes : Table Uid Node
  /-- For each predicate and target the nodes that have an edge to it. -/
  reverse : Table String (Table Uid UidSet)
  predicates : Table String Schema.PredicateStatement
  types : Table String Schema.TypeStatement
deriving DecidableEq

namespace Graph

open Schema

def empty : Graph := ⟨0, .empty, .empty, .empty, .empty⟩

instance : Inhabited Graph := ⟨empty⟩

def uids (g : Graph) : List Uid := g.nodes.keys

def size (g : Graph) : Nat := g.nodes.size

def contains (g : Graph) (u : Uid) : Bool := g.nodes.contains u

def values (g : Graph) (u : Uid) (p : String) : List Json := ((g.nodes.get? u).bind (·.values.get? p)).getD []

def edges (g : Graph) (u : Uid) (p : String) : UidSet := ((g.nodes.get? u).bind (·.edges.get? p)).getD .empty

/-- The nodes with an edge to `u`. -/
def sources (g : Graph) (u : Uid) (p : String) : UidSet := ((g.reverse.get? p).bind (·.get? u)).getD .empty

/-- The nodes at the other ends of the edges of a node, followed forwards or backwards. -/
def targets (g : Graph) (u : Uid) (e : Query.Edge) : List Uid :=
  (if e.reverse then g.sources u e.predicate else g.edges u e.predicate).items

/-- Whether a node has a value or an edge. -/
def has (g : Graph) (u : Uid) (p : String) : Bool := !(g.values u p).isEmpty || !(g.edges u p).isEmpty

def isList (g : Graph) (p : String) : Bool := ((g.predicates.get? p).map (·.list)).getD false

/-- Edges of a predicate that is not declared add up, as those of a list do. -/
def keepsEdges (g : Graph) (p : String) : Bool := ((g.predicates.get? p).map (·.list)).getD true

/-- A new node. -/
def allocate (g : Graph) : Uid × Graph :=
  let u : Uid := ⟨g.lastUid + 1⟩
  (u, { g with lastUid := g.lastUid + 1, nodes := g.nodes.insert u .empty })

def modifyNode (g : Graph) (u : Uid) (f : Node → Node) : Graph :=
  match g.nodes.get? u with
  | some n => { g with nodes := g.nodes.insert u (f n) }
  | none => g

def modifyValues (g : Graph) (u : Uid) (p : String) (f : List Json → List Json) : Graph :=
  g.modifyNode u fun n =>
    { n with values := n.values.alter p fun vs =>
        match f (vs.getD []) with
        | [] => none
        | ws => some ws }

/-- A value more in a list that does not hold it, and the only value of any other predicate. -/
def setValue (g : Graph) (u : Uid) (p : String) (v : Json) : Graph :=
  g.modifyValues u p fun vs =>
    if g.isList p then (if vs.any v.same then vs else vs ++ [v]) else [v]

def removeValue (g : Graph) (u : Uid) (p : String) (v : Json) : Graph :=
  g.modifyValues u p fun vs => vs.filter fun w => !w.same v

def clearValues (g : Graph) (u : Uid) (p : String) : Graph := g.modifyValues u p fun _ => []

/-- A set that a change may leave empty, in which case it is dropped. -/
def keep (s : UidSet) : Option UidSet := if s.isEmpty then none else some s

def keepTable (t : Table Uid UidSet) : Option (Table Uid UidSet) := if t.isEmpty then none else some t

/-- Changes the sources of one target. -/
def modifySources (g : Graph) (p : String) (target : Uid) (f : UidSet → UidSet) : Graph :=
  { g with reverse := g.reverse.alter p fun t =>
      keepTable ((t.getD .empty).alter target fun s => keep (f (s.getD .empty))) }

def modifyEdges (g : Graph) (u : Uid) (p : String) (f : UidSet → UidSet) : Graph :=
  g.modifyNode u fun n => { n with edges := n.edges.alter p fun s => keep (f (s.getD .empty)) }

/-- Drops an edge at both of its ends. -/
def removeEdge (g : Graph) (u : Uid) (p : String) (target : Uid) : Graph :=
  (g.modifyEdges u p (·.erase target)).modifySources p target (·.erase u)

def clearEdges (g : Graph) (u : Uid) (p : String) : Graph :=
  (g.edges u p).items.foldl (fun g target => g.removeEdge u p target) g

/-- Writes an edge at both of its ends. -/
def addEdge (g : Graph) (u : Uid) (p : String) (target : Uid) : Graph :=
  if g.contains u then (g.modifyEdges u p (·.insert target)).modifySources p target (·.insert u) else g

/-- An edge more where edges add up, and otherwise the only edge of the predicate. -/
def setEdge (g : Graph) (u : Uid) (p : String) (target : Uid) : Graph :=
  (if g.keepsEdges p then g else g.clearEdges u p).addEdge u p target

def clearPredicate (g : Graph) (u : Uid) (p : String) : Graph := (g.clearValues u p).clearEdges u p

/-- Drops all values and edges of a node. -/
def clearAll (g : Graph) (u : Uid) : Graph :=
  match g.nodes.get? u with
  | some n => n.edges.keys.foldl (fun g p => g.clearEdges u p) (g.modifyNode u fun n => { n with values := .empty })
  | none => g

/-- Declares a predicate or a type anew. A predicate never changes between values and edges. -/
def declare (g : Graph) : Statement → Except SchemaFault Graph
  | .predicate p =>
    match g.predicates.get? p.predicate with
    | some old =>
      if (old.kind == .uid) = (p.kind == .uid) then .ok { g with predicates := g.predicates.insert p.predicate p }
      else .error (.kindChanged p.predicate)
    | none => .ok { g with predicates := g.predicates.insert p.predicate p }
  | .type t => .ok { g with types := g.types.insert t.name t }

/-- Declares statements up to the first that is refused, and says which one that is. -/
def declareAll (g : Graph) : List Statement → Option SchemaFault × Graph
  | [] => (none, g)
  | s :: ss =>
    match g.declare s with
    | .ok g => g.declareAll ss
    | .error f => (some f, g)

/-- The uid of a node, its values, and its edges in their places. -/
def nodeJson? (g : Graph) (u : Uid) : Option Json :=
  (g.nodes.get? u).map fun n =>
    .ofFields (("uid", u.toJson) ::
      (n.values.entries.map fun (p, vs) =>
        (p, match vs with
          | [v] => if g.isList p then .arr vs else v
          | _ => .arr vs)) ++
      n.edges.entries.map fun (p, s) => (p, .arr (s.items.map Uid.toJson)))

end Graph

end Inventory
