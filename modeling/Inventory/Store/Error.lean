import Inventory.Text.Pattern.Size
import Inventory.Uid

/-!
Why a store refuses a request.
-/

namespace Inventory

/-- Why a text is no pattern. -/
inductive PatternFault
  | unreadable (pattern : String)
  | tooLarge (pattern : String)
deriving DecidableEq

def PatternFault.reason : PatternFault → String
  | unreadable p => s!"invalid regex /{p}/"
  | tooLarge p => s!"invalid regex /{p}/: Compiled regex exceeds size limit of {Nat.repr Text.Pattern.Size.limit} bytes."

inductive QueryFault
  | invalidPattern (fault : PatternFault)
  | unboundVariable (name : String)
  | unboundParameter (name : String)
  | notACount (name value : String)
  | other (reason : String)
deriving DecidableEq

def QueryFault.reason : QueryFault → String
  | invalidPattern f => f.reason
  | unboundVariable v => s!"variable {v} used but not defined"
  | unboundParameter v => s!"query variable {v} not bound"
  | notACount v raw => s!"query variable {v} is not a count: {raw}"
  | other r => r

inductive MutationFault
  | noSuchNode (uid : Uid)
  | unboundVariable (name : String)
  | wildcardPredicate
  | wildcardObject (predicate : String)
  | other (reason : String)
deriving DecidableEq

def MutationFault.reason : MutationFault → String
  | noSuchNode u => s!"node {u.text} does not exist"
  | unboundVariable v => s!"variable {v} used but not defined"
  | wildcardPredicate => "wildcard predicate in set"
  | wildcardObject p => s!"wildcard object in set of {p}"
  | other r => r

inductive SchemaFault
  /-- An edge became a value, or a value an edge. -/
  | kindChanged (predicate : String)
  | other (reason : String)
deriving DecidableEq

def SchemaFault.reason : SchemaFault → String
  | kindChanged p => s!"predicate {p} cannot change between uid and scalar"
  | other r => r

inductive StoreError
  /-- Another commit came first, so that the same request may succeed later. -/
  | aborted (reason : String)
  | query (fault : QueryFault)
  | mutation (fault : MutationFault)
  | schema (fault : SchemaFault)
  | unavailable (reason : String)
deriving DecidableEq

namespace StoreError

def message : StoreError → String
  | aborted r => s!"Transaction aborted: {r}"
  | query f => "Query failed: " ++ f.reason
  | mutation f => "Mutation failed: " ++ f.reason
  | schema f => "Schema alteration failed: " ++ f.reason
  | unavailable r => s!"Store unavailable: {r}"

def isAborted : StoreError → Bool
  | aborted _ => true
  | _ => false

end StoreError

end Inventory
