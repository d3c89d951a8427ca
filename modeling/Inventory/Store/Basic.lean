import Inventory.Graph.Mutation

/-!
A store: a graph, and a schedule of calls that are refused without effect.
-/

namespace Inventory

/-- The calls that a store refuses. Requests and alterations are told apart by their number. -/
structure Refusals where
  query : Option StoreError
  execute : Nat → Option StoreError
  alter : Nat → Option StoreError

def Refusals.none : Refusals := ⟨.none, fun _ => .none, fun _ => .none⟩

structure Store where
  graph : Graph
  refusals : Refusals
  /-- The requests made so far. -/
  executed : Nat
  /-- The alterations made so far. -/
  altered : Nat

namespace Store

def empty : Store := ⟨.empty, .none, 0, 0⟩

/-- An action on a store. What it changed before it failed stays changed. -/
abbrev Action := ExceptT StoreError (StateM Store)

def refuse : Option StoreError → Action Unit
  | some e => throw e
  | none => pure ()

def query (q : Query) (vars : Query.Bindings) : Action Answer := do
  let s ← get
  refuse s.refusals.query
  match s.graph.evaluate q vars with
  | .ok (answer, _) => return answer
  | .error f => throw (.query f)

/-- Makes all the changes of a request, or none. -/
def execute (r : Request) : Action Graph.Receipt := do
  let s ← get
  set { s with executed := s.executed + 1 }
  refuse (s.refusals.execute s.executed)
  match s.graph.execute r with
  | .ok (receipt, g) =>
    modify fun s => { s with graph := g }
    return receipt
  | .error e => throw e

/-- Declares statements in turn; those before one that is refused stay declared. -/
def alter (ss : List Schema.Statement) : Action Unit := do
  let s ← get
  set { s with altered := s.altered + 1 }
  refuse (s.refusals.alter s.altered)
  let (fault, g) := s.graph.declareAll ss
  modify fun s => { s with graph := g }
  match fault with
  | some f => throw (.schema f)
  | none => return

end Store

end Inventory
