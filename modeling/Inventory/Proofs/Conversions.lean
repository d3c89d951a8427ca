import Inventory.FieldValue

/-!
How numbers become integers of 64 bits: by their exact values, with one number left out. Whatever its type, a value that
has been converted is converted to itself.
-/

namespace Inventory

namespace Binary64

variable {x : Binary64} {i : Int}

theorem unitsPerOne_pos : 0 < unitsPerOne := by decide

theorem natAbs_units (x : Binary64) : x.units.natAbs = x.magnitude := by
  unfold units
  split
  · rw [Int.natAbs_neg, Int.natAbs_natCast]
  · rw [Int.natAbs_natCast]

/-- A number is read as an integer by its exact value. -/
theorem toInt?_eq_some_iff : x.toInt? = some i ↔ x.units = i * unitsPerOne := by
  have hne : (unitsPerOne : Int) ≠ 0 := Int.natCast_ne_zero.2 (Nat.ne_of_gt unitsPerOne_pos)
  have hdvd : x.magnitude % unitsPerOne = 0 ↔ (unitsPerOne : Int) ∣ x.units := by
    rw [← natAbs_units, ← Nat.dvd_iff_mod_eq_zero, Int.ofNat_dvd_left]
  unfold toInt?
  split
  · rename_i h
    rw [Option.some.injEq, Int.ediv_eq_iff_eq_mul_left hne (hdvd.1 h)]
  · rename_i h
    refine iff_of_false (by simp) fun he => h (hdvd.2 ?_)
    rw [he]
    exact Int.dvd_mul_left i _

end Binary64

namespace Conversions

open Text FieldValue

variable {t : DataType} {n : Number} {i j : Int} {x : Binary64} {raw : Json} {s : String} {v : FieldValue}

/-- The exact value of a number is an integer. -/
def Equals : Number → Int → Prop
  | .int j, i => j = i
  | .float x, i => x.units = i * Binary64.unitsPerOne

/-- An integer of 64 bits. -/
def InRange (i : Int) : Prop := -9223372036854775808 ≤ i ∧ i < 9223372036854775808

/-- A number is read as the integer that it is, if that has 64 bits, and refused otherwise. -/
structure ReadExactly (n : Number) : Prop where
  ok : ∀ i, convert .int (.num n) = .ok (.int i) ↔ Equals n i ∧ InRange i
  error : (¬∃ i, Equals n i ∧ InRange i) → convert .int (.num n) = .error (.fractional n)

/-- The least integer of 64 bits, as a floating-point number. -/
def IsLeastFloat (n : Number) : Prop := ∃ x, n = .float x ∧ Equals n (-9223372036854775808)

/-- A value of a type, of which an integer has 64 bits. -/
def IsOf (t : DataType) : FieldValue → Prop
  | .string _ => t = .string
  | .int i => t = .int ∧ InRange i
  | .float _ => t = .float

theorem equals_unique (hi : Equals n i) (hj : Equals n j) : i = j := by
  cases n with
  | int k => exact hi.symm.trans hj
  | float x =>
      have hne : (Binary64.unitsPerOne : Int) ≠ 0 := Int.natCast_ne_zero.2 (Nat.ne_of_gt Binary64.unitsPerOne_pos)
      exact Int.eq_of_mul_eq_mul_right hne (hi.symm.trans hj)

theorem isLeastFloat_iff (h : Equals (.float x) i) : IsLeastFloat (.float x) ↔ i = -9223372036854775808 := by
  refine ⟨?_, fun hi => ⟨x, rfl, hi ▸ h⟩⟩
  rintro ⟨y, hy, hleast⟩
  obtain rfl := Number.float.inj hy
  exact equals_unique h hleast

theorem inRange_iff : InRange i ↔ Bits.isSigned 64 i = true := Bits.isSigned_64_iff.symm

theorem natAbs_lt_iff : i.natAbs < 1 <<< 63 ↔ InRange i ∧ i ≠ -9223372036854775808 := by
  have hshift : 1 <<< 63 = 9223372036854775808 := rfl
  unfold InRange
  omega

section Kinds

theorem isOf_of_number (h : ofNumber t n = .ok v) : IsOf t v := by
  unfold ofNumber at h
  split at h
  · cases h
    rfl
  · split at h
    · cases h
      exact ⟨rfl, inRange_iff.2 ‹_›⟩
    · cases h
  · split at h
    · split at h
      · cases h
        exact ⟨rfl, (natAbs_lt_iff.1 ‹_›).1⟩
      · cases h
    · cases h
  · cases h
    rfl

theorem inRange_of_readSigned? {cs : List Char} (h : Numeral.readSigned? cs = some i) : InRange i := by
  unfold Numeral.readSigned? at h
  exact inRange_iff.2 (Option.filter_eq_some_iff.1 h).2

theorem isOf_of_text (h : ofText t s = .ok v) : IsOf t v := by
  unfold ofText at h
  split at h
  · cases h
    rfl
  · split at h
    · cases h
      exact ⟨rfl, inRange_of_readSigned? ‹_›⟩
    · cases h
  · split at h
    · cases h
      rfl
    · cases h

theorem isOf_of_convert (h : convert t raw = .ok v) : IsOf t v := by
  cases raw with
  | num n => exact isOf_of_number h
  | str s => exact isOf_of_text h
  | bool b =>
      rw [convert] at h
      split at h
      · rename_i ht
        cases h
        exact ht
      · cases h
  | null | arr _ | obj _ => cases h

theorem dataType_of_isOf (h : IsOf t v) : v.dataType = t := by
  cases v with
  | string s => exact h.symm
  | int i => exact h.1.symm
  | float x => exact h.symm

theorem dataType_of_convert (h : convert t raw = .ok v) : v.dataType = t := dataType_of_isOf (isOf_of_convert h)

theorem convert_toJson (h : IsOf t v) : convert t v.toJson = .ok v := by
  cases v with
  | string s =>
      obtain rfl := h
      rfl
  | int i =>
      obtain ⟨rfl, hi⟩ := h
      exact if_pos (inRange_iff.1 hi)
  | float x =>
      obtain rfl := h
      rfl

end Kinds

section Integers

theorem convert_int : convert .int (.num (.int j)) =
    if Bits.isSigned 64 j = true then .ok (.int j) else .error (.fractional (.int j)) := rfl

theorem convert_float : convert .int (.num (.float x)) =
    match x.toInt? with
    | some i => if i.natAbs < 1 <<< 63 then .ok (.int i) else .error (.fractional (.float x))
    | none => .error (.fractional (.float x)) := rfl

theorem convert_num_error (h : ∀ i, convert .int (.num n) ≠ .ok (.int i)) :
    convert .int (.num n) = .error (.fractional n) := by
  cases n with
  | int j =>
      rw [convert_int] at h ⊢
      exact if_neg fun hj => h j (if_pos hj)
  | float x =>
      rw [convert_float] at h ⊢
      cases hx : x.toInt? with
      | none => rfl
      | some i =>
          simp only [hx] at h ⊢
          exact if_neg fun hi => h i (if_pos hi)

/-- Of the numbers that are integers of 64 bits all but one are read as what they are. -/
theorem convert_num_ok_iff :
    convert .int (.num n) = .ok (.int i) ↔ (Equals n i ∧ InRange i) ∧ ¬IsLeastFloat n := by
  cases n with
  | int j =>
      have hleast : ¬IsLeastFloat (.int j) := by
        rintro ⟨x, ⟨⟩, -⟩
      rw [and_iff_left hleast, inRange_iff, convert_int]
      constructor
      · intro h
        split at h
        · cases h
          exact ⟨rfl, ‹_›⟩
        · cases h
      · rintro ⟨rfl, hj⟩
        exact if_pos hj
  | float x =>
      have hequals : ∀ i, x.toInt? = some i ↔ Equals (.float x) i := fun i => Binary64.toInt?_eq_some_iff
      rw [convert_float]
      constructor
      · intro h
        split at h
        · rename_i j hj
          split at h
          · rename_i hlt
            cases h
            have hi := (hequals i).1 hj
            obtain ⟨hrange, hne⟩ := natAbs_lt_iff.1 hlt
            exact ⟨⟨hi, hrange⟩, fun h => hne ((isLeastFloat_iff hi).1 h)⟩
          · cases h
        · cases h
      · rintro ⟨⟨hi, hrange⟩, hnot⟩
        simp only [(hequals i).2 hi]
        exact if_pos (natAbs_lt_iff.2 ⟨hrange, fun h => hnot ((isLeastFloat_iff hi).2 h)⟩)

theorem readExactly_iff_not_isLeastFloat : ReadExactly n ↔ ¬IsLeastFloat n := by
  constructor
  · rintro hread ⟨x, hx, hi⟩
    have hrange : InRange (-9223372036854775808) := ⟨by decide, by decide⟩
    have hok := (hread.ok _).2 ⟨hi, hrange⟩
    exact (convert_num_ok_iff.1 hok).2 ⟨x, hx, hi⟩
  · intro hleast
    have hok : ∀ i, convert .int (.num n) = .ok (.int i) ↔ Equals n i ∧ InRange i := fun i => by
      rw [convert_num_ok_iff, and_iff_left hleast]
    exact ⟨hok, fun hnone => convert_num_error fun i hi => hnone ⟨i, (hok i).1 hi⟩⟩

end Integers

/-- Numbers are read as the integers that they are, except that the least integer of 64 bits is refused in floating
point. What has been converted is converted to itself. -/
theorem read_exactly_except_least (n : Number) (t : DataType) (raw : Json) :
    ((ReadExactly n ↔ ¬IsLeastFloat n) ∧ (IsLeastFloat n → convert .int (.num n) = .error (.fractional n))) ∧
    ∀ v, convert t raw = .ok v → convert t v.toJson = .ok v := by
  refine ⟨⟨readExactly_iff_not_isLeastFloat, fun hleast => ?_⟩, fun v h => ?_⟩
  · exact convert_num_error fun i hi => (convert_num_ok_iff.1 hi).2 hleast
  · exact convert_toJson (isOf_of_convert h)

theorem eight_reads_exactly : ReadExactly (.float (.ofInt 8)) ∧ convert .int (.str " \"8\" ") = .ok (.int 8) ∧
    convert .int (FieldValue.int 8).toJson = .ok (.int 8) := by
  have hint : (Binary64.ofInt 8).toInt? = some 8 := by decide +kernel
  have hnot : ¬IsLeastFloat (.float (.ofInt 8)) :=
    (not_congr (isLeastFloat_iff (Binary64.toInt?_eq_some_iff.1 hint))).2 (by decide)
  have hdigits : Numeral.readSigned? (unquoted " \"8\" ") = some 8 := by decide +kernel
  have hread : convert .int (.str " \"8\" ") = .ok (.int 8) := by rw [convert, ofText, hdigits]
  obtain ⟨⟨hexactly, -⟩, hagain⟩ := read_exactly_except_least (.float (.ofInt 8)) .int (.str " \"8\" ")
  exact ⟨hexactly.2 hnot, hread, hagain _ hread⟩

/-- The bound on the magnitude leaves out `-2^63`, which is an integer of 64 bits and is read where it is written as
one. -/
theorem least_float_refused : Equals (.float (.ofInt (-9223372036854775808))) (-9223372036854775808) ∧
    InRange (-9223372036854775808) ∧
    convert .int (.num (.float (.ofInt (-9223372036854775808)))) =
      .error (.fractional (.float (.ofInt (-9223372036854775808)))) ∧
    convert .int (.num (.int (-9223372036854775808))) = .ok (.int (-9223372036854775808)) ∧
    convert .int (.str "-9223372036854775808") = .ok (.int (-9223372036854775808)) := by
  have hint : (Binary64.ofInt (-9223372036854775808)).toInt? = some (-9223372036854775808) := by decide +kernel
  refine ⟨Binary64.toInt?_eq_some_iff.1 hint, ⟨by decide, by decide⟩, ?_, rfl, rfl⟩
  rw [convert_float, hint]
  rfl

end Conversions

end Inventory
