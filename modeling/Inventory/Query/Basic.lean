import Inventory.Uid
import Inventory.Ordered.Table

/-!
Queries: blocks that start from some nodes, filter and order them, follow edges from them and select what to
report of them.
-/

namespace Inventory

namespace Query

/-- Nodes named in a `uid` test: those bound to a variable, or one node. -/
inductive NodeRef
  | var (name : String)
  | node (uid : Uid)
deriving DecidableEq

/-- The nodes that a block starts from. An array as a value stands for any of its items. -/
inductive Root
  | eq (predicate : String) (value : Json)
  | has (predicate : String)
  | uid (refs : List NodeRef)
  | type (name : String)

/-- A test of a node. An array as the value of `eq` stands for any of its items. -/
inductive Filter
  | eq (predicate : String) (value : Json)
  | ge (predicate : String) (value : Json)
  | regex (predicate pattern : String) (ignoreCase : Bool)
  | uid (refs : List NodeRef)
  | has (predicate : String)
  | and (parts : List Filter)
  | or (parts : List Filter)
  | not (inner : Filter)

namespace Filter

/-- Nothing for no parts, and the part itself for one. -/
def allOf : List Filter → Option Filter
  | [] => none
  | [f] => some f
  | fs => some (and fs)

/-- Nothing for no parts, and the part itself for one. -/
def anyOf : List Filter → Option Filter
  | [] => none
  | [f] => some f
  | fs => some (or fs)

end Filter

/-- An edge, followed forwards or backwards. -/
structure Edge where
  predicate : String
  reverse : Bool
deriving DecidableEq

/-- A hop over an edge to the nodes that pass a filter, and the hops from there. -/
structure Traversal where
  edge : Edge
  filter : Option Filter
  /-- The variable that collects the nodes reached. -/
  bind : Option String
  children : List Traversal

/-- What a row reports: the values of a predicate, the number of nodes, or the rows of nodes at an edge. -/
inductive Selection
  | field (label predicate : String)
  | count (label : String)
  | edge (label : String) (edge : Edge) (selections : List Selection)

inductive SortDirection
  | asc
  | desc
deriving DecidableEq, Inhabited

namespace SortDirection

def name : SortDirection → String
  | asc => "asc"
  | desc => "desc"

def words : List (String × SortDirection) := [("asc", asc), ("desc", desc)]

end SortDirection

structure Order where
  predicate : String
  direction : SortDirection
deriving DecidableEq

/-- A count given by itself or by a variable of the query. -/
inductive PageArg
  | literal (n : Nat)
  | var (name : String)
deriving DecidableEq

/-- Repetition of a block's hops up to a depth, through each node once unless loops are allowed. -/
structure Recursion where
  depth : Nat
  allowLoop : Bool
deriving DecidableEq

structure Block where
  /-- The name under which rows are reported; a block without one only binds variables. -/
  name : Option String
  /-- The variable that collects the block's nodes. -/
  bind : Option String
  root : Root
  filter : Option Filter
  order : Option Order
  first : Option PageArg
  offset : Option PageArg
  recursion : Option Recursion
  traversals : List Traversal
  selections : List Selection

namespace Block

def start (name : Option String) (root : Root) : Block := ⟨name, none, root, none, none, none, none, none, [], []⟩

def var (root : Root) : Block := start none root

def named (name : String) (root : Root) : Block := start (some name) root

def bindAs (b : Block) (v : String) : Block := { b with bind := some v }

def filtered (b : Block) (f : Option Filter) : Block := { b with filter := f }

def orderBy (b : Block) (predicate : String) (direction : SortDirection) : Block :=
  { b with order := some ⟨predicate, direction⟩ }

def traverse (b : Block) (t : Traversal) : Block := { b with traversals := b.traversals ++ [t] }

def select (b : Block) (ss : List Selection) : Block := { b with selections := b.selections ++ ss }

end Block

/-- The values of a query's variables. -/
abbrev Bindings := Table String String

end Query

/-- A query with its declared variables, each with its kind. -/
structure Query where
  name : String
  params : List (String × String)
  blocks : List Query.Block

namespace Query

/-- The first block of a name. -/
def block? (q : Query) (name : String) : Option Block := q.blocks.find? fun b => b.name == some name

end Query

end Inventory
