import Inventory.Binary64.Basic

/-!
The floating-point number nearest to a fraction, a decimal or an integer, a tie going to the even mantissa.
-/

namespace Inventory.Binary64

/-- The whole number nearest to `num / den`, of two the even one. -/
def roundDiv (num den : Nat) : Nat :=
  let q := num / den
  let r := num % den
  if den < 2 * r ∨ (den = 2 * r ∧ q % 2 = 1) then q + 1 else q

/-- The number nearest to `± num / den`, unless it is too large for any. -/
def nearest? (negative : Bool) (num den : Nat) : Option Binary64 :=
  let total := num * unitsPerOne
  let shift := (total / den).log2 - 52
  let mant := roundDiv total (den <<< shift)
  if mant = 1 <<< 53 then ofParts? negative (1 <<< 52) (shift + 1) else ofParts? negative mant shift

/-- The number nearest to `± digits * 10 ^ scale`. Scales that are far outside the range are answered
without raising ten to them. -/
def ofDecimal? (negative : Bool) (digits : Nat) (scale : Int) : Option Binary64 :=
  if digits = 0 then some (zero negative)
  else if 400 < scale then none
  else if scale < -(400 + (digits.log2 : Int)) then some (zero negative)
  else if 0 ≤ scale then nearest? negative (digits * Nat.pow 10 scale.toNat) 1
  else nearest? negative digits (Nat.pow 10 (-scale).toNat)

/-- The number nearest to an integer, and the largest one beyond the range. -/
def ofInt (i : Int) : Binary64 :=
  (nearest? (decide (i < 0)) i.natAbs 1).getD (largest (decide (i < 0)))

theorem roundDiv_of_mod_eq_zero {num den : Nat} (h : num % den = 0) : roundDiv num den = num / den := by
  rcases Nat.eq_zero_or_pos den with rfl | hd
  · simp_all [roundDiv]
  · simp only [roundDiv, h, ite_eq_right_iff]
    omega

end Inventory.Binary64
