import Inventory.Schema.Statement
import Inventory.Ordered.Table

/-!
Statements that have been applied, by key.
-/

namespace Inventory.Schema

structure Catalog where
  applied : Table String Statement
deriving DecidableEq

namespace Catalog

def empty : Catalog := ⟨.empty⟩

def get? (c : Catalog) (key : String) : Option Statement := c.applied.get? key

/-- The statements that have not been applied in exactly this form. -/
def missing (c : Catalog) (ss : List Statement) : List Statement := ss.filter fun s => c.get? s.key ≠ some s

def record (c : Catalog) (ss : List Statement) : Catalog := ⟨ss.foldl (fun t s => t.insert s.key s) c.applied⟩

def size (c : Catalog) : Nat := c.applied.size

def isEmpty (c : Catalog) : Bool := c.applied.isEmpty

end Catalog

end Inventory.Schema
