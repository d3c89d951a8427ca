import Inventory.Listing.Request
import Inventory.Repository.Basic

/-!
Deletion of all instances of a scope in batches. A batch that keeps conflicting is given up and passed over, and
no batch is begun after the deadline.
-/

namespace Inventory.Repository

open Query Store Listing

structure DeletionReport where
  /-- The instances deleted. -/
  deleted : Nat
  /-- The instances of the batches given up. -/
  abandoned : Nat
  batches : Nat
  deadlineExceeded : Bool
deriving DecidableEq

namespace DeletionReport

def empty : DeletionReport := ⟨0, 0, 0, false⟩

def isComplete (r : DeletionReport) : Bool := r.abandoned == 0 && !r.deadlineExceeded

end DeletionReport

def victimsVar : String := "victims"

def batchBlock : String := "Batch"

/-- The next instances of a scope after those passed over, and their number. -/
def batchQuery (scope : String) (size skip : Nat) : Query :=
  ⟨"DeleteEquipments", [],
    [{ ((Block.var (.eq Vocabulary.typeName (.str Vocabulary.equipmentMarker))).filtered
          (scopeFilter [scope])).bindAs victimsVar with
        first := some (.literal size), offset := some (.literal skip) },
      countOf (Block.named batchBlock (.uid (uidVar victimsVar)))]⟩

/-- Empties the instances of a batch and marks them. -/
def batchMutation : Mutation :=
  { condition := some (.notEmpty victimsVar)
    set := [.text (.var victimsVar) Vocabulary.recycle "true"]
    delete := [.everything (.var victimsVar)] }

def deletionName : String := "delete_equipments"

/-- Deletes a batch. The number of instances deleted, or nothing if it conflicts. -/
def tryBatch (q : Query) : Op (Option Nat) :=
  tryCatch
    (do return some ((← write deletionName (some q) [batchMutation]).answer.count batchBlock totalLabel))
    fun f => if f.isConflict then pure none else throw f

/-- Deletes a batch, with so many further tries while it conflicts. -/
def deleteBatch (q : Query) : Nat → Op (Option Nat)
  | 0 => tryBatch q
  | retries + 1 => do
    match ← tryBatch q with
    | some n => return some n
    | none => deleteBatch q retries

/-- Batch after batch. Each batch deletes instances or passes over them, so that one step for each instance and
one more are enough. -/
def deleteBatches (c : DeletionConfig) (elapsedMs : Nat → Nat) (scope : String) :
    Nat → DeletionReport → Op DeletionReport
  | 0, report => return report
  | fuel + 1, report => do
    if 0 < report.batches ∧ c.deadlineMs ≤ elapsedMs report.batches then
      return { report with deadlineExceeded := true }
    let q := batchQuery scope c.batchSize report.abandoned
    let pending := (← read deletionName q .empty).count batchBlock totalLabel
    if pending = 0 then return report
    let report := { report with batches := report.batches + 1 }
    match ← deleteBatch q c.maxRetries with
    | some n => deleteBatches c elapsedMs scope fuel { report with deleted := report.deleted + n }
    | none => deleteBatches c elapsedMs scope fuel { report with abandoned := report.abandoned + pending }

/-- Deletes the instances of a scope. `elapsedMs` is the time that has passed when so many batches are done. -/
def deleteInstances (r : Repository) (g : Guard) (elapsedMs : Nat → Nat) (scope : String) : Op DeletionReport := do
  r.verify g deletionName
  let s ← get
  deleteBatches r.config elapsedMs scope (s.graph.size + 1) .empty

end Inventory.Repository
