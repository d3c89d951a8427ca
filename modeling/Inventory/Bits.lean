/-!
Integers of a limited number of bits.
-/

namespace Inventory.Bits

/-- Whether `i` has at most so many bits and no sign. -/
def isUnsigned (bits : Nat) (i : Int) : Bool := 0 ≤ i && i.natAbs < 1 <<< bits

/-- Whether `i` has at most so many bits in two's complement. -/
def isSigned (bits : Nat) (i : Int) : Bool :=
  if 0 ≤ i then i.natAbs < 1 <<< (bits - 1) else i.natAbs ≤ 1 <<< (bits - 1)

theorem isUnsigned_64_iff {i : Int} : isUnsigned 64 i ↔ 0 ≤ i ∧ i < 18446744073709551616 := by
  simp only [isUnsigned, Bool.and_eq_true, decide_eq_true_eq]
  omega

theorem isSigned_64_iff {i : Int} :
    isSigned 64 i ↔ -9223372036854775808 ≤ i ∧ i < 9223372036854775808 := by
  simp only [isSigned]
  split <;> simp only [decide_eq_true_eq] <;> omega

end Inventory.Bits
