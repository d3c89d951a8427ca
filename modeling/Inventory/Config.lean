import Inventory.Json.Decoder
import Inventory.Text.Blank
import Inventory.Text.Numeral

/-!
Settings of the deletion in batches.
-/

namespace Inventory

structure DeletionConfig where
  /-- How many instances one request deletes. -/
  batchSize : Nat
  /-- The seconds after which no batch is begun. -/
  deadlineSecs : Nat
  /-- How often a batch that conflicts is tried again. -/
  maxRetries : Nat
  /-- The milliseconds before each further try. -/
  retryBackoffMs : Nat
deriving DecidableEq, Inhabited

namespace DeletionConfig

def standard : DeletionConfig := ⟨25000, 300, 2, 1000⟩

/-- The batch size that a setting names, if it is a number above zero. -/
def batchSize? (raw : String) : Option Nat :=
  (Text.Numeral.readUnsigned? 10 64 (Text.Blank.trimChars raw.toList)).filter (0 < ·)

/-- The standard settings with the batch size of a setting that is present and sound. -/
def ofSetting (raw : Option String) : DeletionConfig :=
  match raw.bind batchSize? with
  | some n => { standard with batchSize := n }
  | none => standard

/-- Batches have at least one instance. -/
def withBatchSize (c : DeletionConfig) (n : Nat) : DeletionConfig := { c with batchSize := max n 1 }

/-- Whole seconds of a number of milliseconds. -/
def withDeadlineMs (c : DeletionConfig) (ms : Nat) : DeletionConfig := { c with deadlineSecs := ms / 1000 }

def withMaxRetries (c : DeletionConfig) (n : Nat) : DeletionConfig := { c with maxRetries := n }

/-- Whole milliseconds of a number of microseconds. -/
def withRetryBackoffUs (c : DeletionConfig) (us : Nat) : DeletionConfig :=
  { c with retryBackoffMs := us / 1000 % (1 <<< 64) }

def deadlineMs (c : DeletionConfig) : Nat := c.deadlineSecs * 1000

def fieldNames : List String := ["batch_size", "deadline_secs", "max_retries", "retry_backoff_ms"]

def toJson (c : DeletionConfig) : Json :=
  .ofFields [("batch_size", .ofNat c.batchSize), ("deadline_secs", .ofNat c.deadlineSecs),
    ("max_retries", .ofNat c.maxRetries), ("retry_backoff_ms", .ofNat c.retryBackoffMs)]

open Document in
def ofDocument? (d : Document) : Option DeletionConfig := do
  match ← d.record? fieldNames with
  | [batchSize, deadlineSecs, maxRetries, retryBackoffMs] =>
    return {
      batchSize := ← defaulted (nat? 64) standard.batchSize batchSize
      deadlineSecs := ← defaulted (nat? 64) standard.deadlineSecs deadlineSecs
      maxRetries := ← defaulted (nat? 32) standard.maxRetries maxRetries
      retryBackoffMs := ← defaulted (nat? 64) standard.retryBackoffMs retryBackoffMs }
  | _ => none

end DeletionConfig

end Inventory
