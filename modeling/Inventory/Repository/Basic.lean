import Inventory.Config
import Inventory.Failure
import Inventory.Schema.Declaration
import Inventory.Store.Basic

/-!
Operations on an inventory in a store. Changes of structure need a guard of the repository's own lock.
-/

namespace Inventory

/-- Shows that the lock of a repository is held. -/
structure Guard where
  lock : Nat
deriving DecidableEq

structure Repository where
  lock : Nat
  config : DeletionConfig
deriving DecidableEq

/-- An operation on the store of a repository. What it changed before it failed stays changed. -/
abbrev Op := ExceptT Failure (StateM Store)

namespace Repository

def guard (r : Repository) : Guard := ⟨r.lock⟩

/-- A store action as a step of an operation. -/
def step {α : Type} (operation : String) (a : Store.Action α) : Op α := a.adapt (Failure.ofStore operation)

def read (operation : String) (q : Query) (vars : Query.Bindings) : Op Answer := step operation (Store.query q vars)

def write (operation : String) (q : Option Query) (mutations : List Store.Mutation) : Op Graph.Receipt :=
  step operation (Store.execute (.of q mutations))

def alter (operation : String) (ss : List Schema.Statement) : Op Unit := step operation (Store.alter ss)

/-- A check as a step of an operation. -/
def check {α : Type} (r : Except Violation α) : Op α :=
  match r with
  | .ok a => pure a
  | .error v => throw (.violation v)

def orNotFound {α : Type} (what : String) : Option α → Op α
  | some a => pure a
  | none => throw (.notFound what)

/-- What is stored as the reading of an answer. -/
def reading {α : Type} : Except Failure α → Op α
  | .ok a => pure a
  | .error f => throw f

def verify (r : Repository) (g : Guard) (operation : String) : Op Unit :=
  if g.lock = r.lock then pure () else throw (.internal operation .foreignGuard)

/-- Declares the predicates and types that every inventory shares. -/
def bootstrap : Op Unit := alter "bootstrap" Schema.baseStatements

end Repository

end Inventory
