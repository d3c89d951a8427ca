import Inventory.Store.Error
import Inventory.Text.Numeral
import Inventory.Violation

/-!
Why an operation on the inventory does not give what was asked for.
-/

namespace Inventory

/-- A failure that no caller can mend. -/
inductive Cause
  | store (e : StoreError)
  | foreignGuard
  /-- A stored row that does not have the form of what it stands for. -/
  | unreadableRow
  | unknownTypeCode (name : String) (code : Int)
  | unsupportedMetadata (kind source : String)
  | sourceMissing
  | attributeWithoutUid (name : String)
  | typeWithoutUid
  | tooFewLevels
  | blankLevel
  | other (reason : String)
deriving DecidableEq

def Cause.reason : Cause → String
  | store e => e.message
  | foreignGuard => "structural guard belongs to another repository"
  | unreadableRow => "unreadable row"
  | unknownTypeCode name code => s!"attribute {name} has unknown type code " ++ Text.Numeral.signed code
  | unsupportedMetadata kind source => s!"unsupported metadata type '{kind}' on {source}"
  | sourceMissing => "metadata source missing after upsert"
  | attributeWithoutUid name => s!"no uid for attribute {name}"
  | typeWithoutUid => "no uid assigned to equipment type"
  | tooFewLevels => "at least two levels are required"
  | blankLevel => "level type names cannot be empty"
  | other r => r

inductive Failure
  | violation (v : Violation)
  | notFound (what : String)
  /-- The request was sound and nothing matched. -/
  | noData (what : String)
  /-- A transaction was aborted, so that the same operation may succeed later. -/
  | conflict (operation reason : String)
  | internal (operation : String) (cause : Cause)
deriving DecidableEq

namespace Failure

/-- The failure of an operation whose store failed. -/
def ofStore (operation : String) : StoreError → Failure
  | .aborted r => conflict operation (StoreError.aborted r).message
  | e => internal operation (.store e)

def code : Failure → String
  | violation _ => "EQP_VALIDATION_FAILED"
  | notFound _ => "EQP_NOT_FOUND"
  | noData _ => "EQP_NO_DATA"
  | conflict _ _ => "EQP_CONFLICT"
  | internal _ _ => "EQP_INTERNAL"

/-- The status for transports that have numbers; no data is no failure there. -/
def status : Failure → Nat
  | violation _ => 400
  | notFound _ => 404
  | noData _ => 200
  | conflict _ _ => 409
  | internal _ _ => 500

def message : Failure → String
  | violation v => "Validation failed: " ++ v.message
  | notFound what => s!"Not found: {what}"
  | noData what => s!"No data: {what}"
  | conflict operation reason => s!"{operation}: transaction conflict: {reason}"
  | internal operation cause => s!"{operation}: " ++ cause.reason

def isConflict : Failure → Bool
  | conflict _ _ => true
  | _ => false

def isNoData : Failure → Bool
  | noData _ => true
  | _ => false

def isNotFound : Failure → Bool
  | notFound _ => true
  | _ => false

def violation? : Failure → Option Violation
  | violation v => some v
  | _ => none

end Failure

/-- A check of rules as part of an operation. -/
def checked {α : Type} (r : Except Violation α) : Except Failure α := r.mapError .violation

end Inventory
