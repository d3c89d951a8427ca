import Inventory.Query.Basic

/-!
Requests to change a store: a query, and mutations that may depend on what it binds. All of a request is done, or
nothing.
-/

namespace Inventory.Store

open Query

/-- Nodes that a quad is about. -/
inductive Subject
  /-- The nodes of a variable; where values are set and there are none, one new node for the request. -/
  | var (name : String)
  /-- A node that is new in each request. -/
  | blank (label : String)
  | node (uid : Uid)
deriving DecidableEq

inductive Object
  | value (v : Json)
  | node (s : Subject)
  /-- Whatever is there; only for deletion. -/
  | any
deriving DecidableEq

/-- The predicate that stands for every predicate in a deletion. -/
def anyPredicate : String := "*"

structure Quad where
  subject : Subject
  predicate : String
  object : Object
deriving DecidableEq

namespace Quad

def value (s : Subject) (predicate : String) (v : Json) : Quad := ⟨s, predicate, .value v⟩

def text (s : Subject) (predicate v : String) : Quad := value s predicate (.str v)

def edge (s : Subject) (predicate : String) (target : Subject) : Quad := ⟨s, predicate, .node target⟩

/-- Everything that a node holds. -/
def everything (s : Subject) : Quad := ⟨s, anyPredicate, .any⟩

end Quad

/-- A test of how many nodes a variable has. -/
inductive Condition
  | empty (var : String)
  | notEmpty (var : String)
deriving DecidableEq

/-- Quads to delete and then quads to set, if the condition holds. -/
structure Mutation where
  condition : Option Condition
  set : List Quad
  delete : List Quad
deriving DecidableEq

def Mutation.isEmpty (m : Mutation) : Bool := m.set.isEmpty && m.delete.isEmpty

structure Request where
  query : Option Query
  vars : Bindings
  mutations : List Mutation

/-- A request without mutations that do nothing. -/
def Request.of (query : Option Query) (mutations : List Mutation) : Request :=
  ⟨query, .empty, mutations.filter (!·.isEmpty)⟩

end Inventory.Store
