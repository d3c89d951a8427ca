import Inventory.Binary64.Rounding

/-!
Floating-point numbers scaled by powers of ten. The power is rounded before the number is multiplied or divided by it,
and the result is rounded again, so that it is close to the exact one and need not be the nearest number to it.
-/

namespace Inventory.Binary64

def withSign (negative : Bool) (x : Binary64) : Binary64 := { x with negative }

/-- The number nearest to a product, unless it is too large for any. -/
def times? (x y : Binary64) : Option Binary64 :=
  nearest? (x.negative != y.negative) (x.magnitude * y.magnitude) (unitsPerOne * unitsPerOne)

/-- The number nearest to a quotient, unless it is too large for any. -/
def over? (x y : Binary64) : Option Binary64 := nearest? (x.negative != y.negative) x.magnitude y.magnitude

/-- The number nearest to a power of ten, and the largest one beyond the range. -/
def tenTo (n : Nat) : Binary64 := (nearest? false (Nat.pow 10 n) 1).getD (largest false)

/-- A number times ten to `e`, unless it is too large. Exponents below those of all powers of ten take several steps. -/
def scale? (x : Binary64) (e : Int) : Option Binary64 :=
  if e.natAbs ≤ 308 then
    if 0 ≤ e then x.times? (tenTo e.natAbs) else x.over? (tenTo e.natAbs)
  else if x.isZero then some x
  else if 0 ≤ e then none
  else (x.over? (tenTo 308)).bind fun y => scale? y (e + 308)
termination_by e.natAbs

end Inventory.Binary64
