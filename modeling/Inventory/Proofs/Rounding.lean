import Mathlib
import Inventory.Binary64.Rounding

/-!
The floating-point numbers that integers are rounded to. Rounding keeps the order of integers, though it may make two of
them one, and it changes none of 53 bits.
-/

namespace Inventory.Binary64

variable {i j : Int} {m n d num num' : Nat}

theorem mul_one_shiftLeft (n k : Nat) : n * 1 <<< k = n <<< k := by rw [Nat.shiftLeft_eq, Nat.shiftLeft_eq, Nat.one_mul]

theorem mul_unitsPerOne (n : Nat) : n * unitsPerOne = n <<< 1074 := mul_one_shiftLeft n _

theorem div_le_roundDiv (num den : Nat) : num / den ≤ roundDiv num den := by
  simp only [roundDiv]
  split
  · exact Nat.le_succ _
  · exact Nat.le_refl _

theorem roundDiv_le (num den : Nat) : roundDiv num den ≤ num / den + 1 := by
  simp only [roundDiv]
  split
  · exact Nat.le_refl _
  · exact Nat.le_succ _

theorem roundDiv_mono (h : num ≤ num') : roundDiv num d ≤ roundDiv num' d := by
  rcases Nat.lt_or_ge (num / d) (num' / d) with hlt | hge
  · exact Nat.le_trans (roundDiv_le num d) (Nat.le_trans hlt (div_le_roundDiv num' d))
  -- between two multiples the remainders decide
  · have hquot : num / d = num' / d := Nat.le_antisymm (Nat.div_le_div_right h) hge
    have hrem : num % d ≤ num' % d := by
      have hnum := Nat.div_add_mod num d
      have hnum' := Nat.div_add_mod num' d
      rw [hquot] at hnum
      omega
    simp only [roundDiv, hquot]
    split
    · rename_i hup
      have hup' : d < 2 * (num' % d) ∨ (d = 2 * (num' % d) ∧ num' / d % 2 = 1) := by omega
      exact Nat.le_of_eq (if_pos hup').symm
    · split
      · exact Nat.le_succ _
      · exact Nat.le_refl _

/-- By how many bits an integer of units is too long for a mantissa. -/
def excess (num : Nat) : Nat := num.log2 - 52

/-- The number of units to which a number of them is rounded. -/
def rounded (num : Nat) : Nat := roundDiv num (1 <<< excess num) <<< excess num

theorem lt_two_pow_excess (num : Nat) : num < 2 ^ (excess num + 53) := by
  refine Nat.lt_of_lt_of_le Nat.lt_log2_self (Nat.pow_le_pow_right (by decide) ?_)
  unfold excess
  omega

theorem two_pow_excess_le (h : 0 < excess num) : 2 ^ (excess num + 52) ≤ num := by
  have hne : num ≠ 0 := by
    rintro rfl
    exact absurd h (by decide)
  have hlog : excess num + 52 = num.log2 := by
    unfold excess at h ⊢
    omega
  rw [hlog]
  exact Nat.log2_self_le hne

theorem excess_mono (h : num ≤ num') : excess num ≤ excess num' := by
  by_contra hlt
  have hlt : excess num' < excess num := Nat.lt_of_not_le hlt
  have hle : 2 ^ (excess num + 52) ≤ num := two_pow_excess_le (by omega)
  have hpow : 2 ^ (excess num' + 53) ≤ 2 ^ (excess num + 52) := Nat.pow_le_pow_right (by decide) (by omega)
  have := lt_two_pow_excess num'
  omega

theorem rounded_eq (num : Nat) : rounded num = roundDiv num (2 ^ excess num) * 2 ^ excess num := by
  rw [rounded, Nat.shiftLeft_eq, Nat.one_shiftLeft]

theorem roundDiv_excess_le (num : Nat) : roundDiv num (2 ^ excess num) ≤ 2 ^ 53 := by
  have hlt : num / 2 ^ excess num < 2 ^ 53 := by
    rw [Nat.div_lt_iff_lt_mul (Nat.two_pow_pos _), ← Nat.pow_add, Nat.add_comm]
    exact lt_two_pow_excess num
  exact Nat.le_trans (roundDiv_le _ _) hlt

theorem le_roundDiv_excess (h : 0 < excess num) : 2 ^ 52 ≤ roundDiv num (2 ^ excess num) := by
  refine Nat.le_trans ?_ (div_le_roundDiv _ _)
  rw [Nat.le_div_iff_mul_le (Nat.two_pow_pos _), ← Nat.pow_add, Nat.add_comm]
  exact two_pow_excess_le h

theorem rounded_mono (h : num ≤ num') : rounded num ≤ rounded num' := by
  rw [rounded_eq, rounded_eq]
  rcases Nat.lt_or_ge (excess num) (excess num') with hlt | hge
  -- a power of two stands between numbers of different excess
  · calc roundDiv num (2 ^ excess num) * 2 ^ excess num
        ≤ 2 ^ 53 * 2 ^ excess num := Nat.mul_le_mul_right _ (roundDiv_excess_le num)
      _ = 2 ^ (53 + excess num) := (Nat.pow_add ..).symm
      _ ≤ 2 ^ (52 + excess num') := Nat.pow_le_pow_right (by decide) (by omega)
      _ = 2 ^ 52 * 2 ^ excess num' := Nat.pow_add ..
      _ ≤ roundDiv num' (2 ^ excess num') * 2 ^ excess num' :=
        Nat.mul_le_mul_right _ (le_roundDiv_excess (by omega))
  · have heq : excess num = excess num' := Nat.le_antisymm (excess_mono h) hge
    rw [heq]
    exact Nat.mul_le_mul_right _ (roundDiv_mono h)

theorem rounded_of_dvd (h : 2 ^ excess num ∣ num) : rounded num = num := by
  rw [rounded_eq, roundDiv_of_mod_eq_zero (Nat.mod_eq_zero_of_dvd h), Nat.div_mul_cancel h]

theorem excess_shiftLeft_le {k l : Nat} (h : n < 2 ^ (k + 53)) : excess (n <<< l) ≤ k + l := by
  rcases Nat.eq_zero_or_pos (excess (n <<< l)) with hzero | hpos
  · omega
  · have hle := two_pow_excess_le hpos
    have hlt : n <<< l < 2 ^ (k + l + 53) := by
      rw [Nat.shiftLeft_eq, Nat.add_right_comm, Nat.pow_add]
      exact Nat.mul_lt_mul_of_pos_right h (Nat.two_pow_pos l)
    have hexp := (Nat.pow_lt_pow_iff_right (by decide : 1 < 2)).1 (Nat.lt_of_le_of_lt hle hlt)
    omega

theorem rounded_shiftLeft {l : Nat} (h : n ≤ 2 ^ 53) : rounded (n <<< l) = n <<< l := by
  rcases Nat.lt_or_eq_of_le h with hlt | rfl
  · have hle : excess (n <<< l) ≤ 0 + l := excess_shiftLeft_le hlt
    rw [Nat.zero_add] at hle
    refine rounded_of_dvd (Nat.dvd_trans (Nat.pow_dvd_pow 2 hle) ?_)
    rw [Nat.shiftLeft_eq]
    exact Nat.dvd_mul_left _ _
  · have hle : excess (2 ^ 53 <<< l) ≤ 1 + l := excess_shiftLeft_le (by decide)
    refine rounded_of_dvd (Nat.dvd_trans (Nat.pow_dvd_pow 2 hle) ?_)
    rw [Nat.shiftLeft_eq, ← Nat.pow_add]
    exact Nat.pow_dvd_pow 2 (by omega)

theorem nearest?_eq_some (negative : Bool) (h : n < 2 ^ 128) : ∃ y, nearest? negative n 1 = some y ∧
    y.negative = negative ∧ y.magnitude = rounded (n <<< 1074) := by
  have hle : excess (n <<< 1074) ≤ 75 + 1074 := excess_shiftLeft_le h
  have hmant : roundDiv (n <<< 1074) (1 <<< excess (n <<< 1074)) ≤ 1 <<< 53 := by
    rw [Nat.one_shiftLeft (excess _)]
    exact roundDiv_excess_le _
  have hnormal : excess (n <<< 1074) = 0 ∨ 1 <<< 52 ≤ roundDiv (n <<< 1074) (1 <<< excess (n <<< 1074)) := by
    rw [Nat.one_shiftLeft (excess _)]
    exact (Nat.eq_zero_or_pos _).imp_right le_roundDiv_excess
  rw [nearest?, mul_unitsPerOne, Nat.div_one, ← excess, rounded]
  generalize roundDiv (n <<< 1074) (1 <<< excess (n <<< 1074)) = mant at hmant hnormal ⊢
  generalize excess (n <<< 1074) = shift at hle hnormal ⊢
  split
  -- a mantissa of one bit more is halved
  · rename_i hfull
    have hhalf : 1 <<< 52 <<< (shift + 1) = mant <<< shift := by
      rw [hfull, ← Nat.shiftLeft_add, ← Nat.shiftLeft_add, Nat.add_comm shift 1, ← Nat.add_assoc]
    exact ⟨_, dif_pos ⟨by decide, .inr (Nat.le_refl _), by omega⟩, rfl, hhalf⟩
  · exact ⟨_, dif_pos ⟨by omega, hnormal, by omega⟩, rfl, rfl⟩

theorem units_ofInt (h : i.natAbs < 2 ^ 64) : (ofInt i).units =
    if i < 0 then -(rounded (i.natAbs <<< 1074) : Int) else rounded (i.natAbs <<< 1074) := by
  obtain ⟨y, hy, hnegative, hmagnitude⟩ := nearest?_eq_some (decide (i < 0)) (Nat.lt_trans h (by decide))
  rw [ofInt, hy, Option.getD_some, units, hnegative, hmagnitude]
  simp only [decide_eq_true_eq]

theorem units_ofInt_mono (hi : i.natAbs < 2 ^ 64) (hj : j.natAbs < 2 ^ 64) (h : i ≤ j) :
    (ofInt i).units ≤ (ofInt j).units := by
  have hmono : ∀ {m n : Nat}, m ≤ n → rounded (m <<< 1074) ≤ rounded (n <<< 1074) := by
    intro m n hmn
    refine rounded_mono ?_
    rw [← mul_unitsPerOne, ← mul_unitsPerOne]
    exact Nat.mul_le_mul_right _ hmn
  rw [units_ofInt hi, units_ofInt hj]
  split
  · split
    · have hle := hmono (m := j.natAbs) (n := i.natAbs) (by omega)
      omega
    · omega
  · have hle := hmono (m := i.natAbs) (n := j.natAbs) (by omega)
    rw [if_neg (by omega)]
    omega

theorem units_ofInt_of_le (h : i.natAbs ≤ 2 ^ 53) : (ofInt i).units = i * unitsPerOne := by
  rw [units_ofInt (Nat.lt_of_le_of_lt h (by decide)), rounded_shiftLeft h, ← mul_unitsPerOne]
  generalize unitsPerOne = k
  split
  · rw [Int.natCast_mul, ← Int.neg_mul]
    congr 1
    omega
  · rw [Int.natCast_mul]
    congr 1
    omega

end Inventory.Binary64
