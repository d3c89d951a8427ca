import Inventory.Ordered.Table
import Inventory.Json.Basic

/-!
What a store answers to a query: rows for each named block.
-/

namespace Inventory

abbrev Answer := Table String (List Json)

namespace Answer

def rows (a : Answer) (block : String) : List Json := (a.get? block).getD []

/-- The count in the first row of a block, and zero where there is none. -/
def count (a : Answer) (block label : String) : Nat :=
  (((a.rows block).head?.bind (·.get? label)).bind (·.nat?)).getD 0

end Answer

/-- Some of the rows that match, and how many there are in all. -/
structure Page where
  total : Nat
  rows : List Json

namespace Page

def size (p : Page) : Nat := p.rows.length

def isEmpty (p : Page) : Bool := p.rows.isEmpty

/-- The values of one key, of the rows that have it. -/
def column (p : Page) (key : String) : List Json := p.rows.filterMap (·.get? key)

end Page

end Inventory
