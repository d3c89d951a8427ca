/-!
Finite floating-point numbers of 64 bits as whole numbers of the smallest unit, `2 ^ -1074`.
-/

namespace Inventory

/-- The number `± mant * 2 ^ shift`, counted in units of `2 ^ -1074`. The bounds leave one form for each
number, and two for zero. -/
structure Binary64 where
  negative : Bool
  mant : Nat
  shift : Nat
  mant_lt : mant < 1 <<< 53
  normal : shift = 0 ∨ 1 <<< 52 ≤ mant
  shift_le : shift ≤ 2045
deriving DecidableEq

namespace Binary64

def unitsPerOne : Nat := 1 <<< 1074

def zero (negative : Bool) : Binary64 := ⟨negative, 0, 0, by decide, by decide, by decide⟩

instance : Inhabited Binary64 := ⟨zero false⟩

/-- The largest number of the sign. -/
def largest (negative : Bool) : Binary64 := ⟨negative, (1 <<< 53) - 1, 2045, by decide, by decide, by decide⟩

def ofParts? (negative : Bool) (mant shift : Nat) : Option Binary64 :=
  if h : mant < 1 <<< 53 ∧ (shift = 0 ∨ 1 <<< 52 ≤ mant) ∧ shift ≤ 2045 then
    some ⟨negative, mant, shift, h.1, h.2.1, h.2.2⟩
  else none

def magnitude (x : Binary64) : Nat := x.mant <<< x.shift

/-- The number itself, in units. -/
def units (x : Binary64) : Int := if x.negative then -(x.magnitude : Int) else x.magnitude

def isZero (x : Binary64) : Bool := x.mant == 0

/-- Numerical equality, under which the two zeros are one. -/
def same (x y : Binary64) : Bool := x.units == y.units

def lt (x y : Binary64) : Bool := x.units < y.units

def le (x y : Binary64) : Bool := x.units ≤ y.units

/-- The integer that the number is, if it is one. -/
def toInt? (x : Binary64) : Option Int :=
  if x.magnitude % unitsPerOne = 0 then some (x.units / unitsPerOne) else none

theorem same_refl (x : Binary64) : x.same x := by simp [same]

theorem same_comm (x y : Binary64) : x.same y = y.same x := by simp [same, Bool.beq_comm]

end Binary64

end Inventory
