import Inventory.Json.Basic

/-!
How stored values are compared with each other and with the values of a query.
-/

namespace Inventory.Comparison

/-- Two integers that fit 64 bits with sign are equal as such; other numbers as floating-point numbers. -/
def numberEq : Number → Number → Bool
  | .int i, .int j => if Bits.isSigned 64 i && Bits.isSigned 64 j then i == j else (Binary64.ofInt i).same (.ofInt j)
  | m, n => m.toBinary64.same n.toBinary64

def valueEq : Json → Json → Bool
  | .num m, .num n => numberEq m n
  | a, b => a.same b

/-- Whether some stored value is the wanted one, or one of those in a wanted array. -/
def valuesMatch (stored : List Json) : Json → Bool
  | .arr wanted => wanted.any fun w => stored.any fun s => valueEq s w
  | w => stored.any fun s => valueEq s w

def orderingOf (lt eq : Bool) : Ordering := if lt then .lt else if eq then .eq else .gt

/-- The order of two values of one kind that has an order. -/
def compareAlike? : Json → Json → Option Ordering
  | .num m, .num n => some (orderingOf (m.toBinary64.lt n.toBinary64) (m.toBinary64.same n.toBinary64))
  | .str s, .str t => some (orderingOf (s < t) (s = t))
  | .bool a, .bool b => some (orderingOf (!a && b) (a == b))
  | _, _ => none

def rank : Json → Nat
  | .null => 0
  | .bool _ => 1
  | .num _ => 2
  | .str _ => 3
  | .arr _ => 4
  | .obj _ => 5

/-- The order of any two values: by kind where they differ in it. -/
def compareValues (a b : Json) : Ordering := (compareAlike? a b).getD (compare (rank a) (rank b))

/-- Whether a stored value reaches a bound of its own kind. -/
def reaches (stored bound : Json) : Bool :=
  match compareAlike? stored bound with
  | some o => o != .lt
  | none => false

end Inventory.Comparison
