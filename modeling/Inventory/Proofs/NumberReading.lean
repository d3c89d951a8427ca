import Inventory.Proofs.Conversions
import Inventory.Proofs.DocumentTexts
import Inventory.Proofs.Rounding

/-!
What the texts of numbers are read as in documents. Integers of 64 bits are read as they are. A floating-point number is
read in two steps, each of which may round: its digits, and their product with or quotient by a power of ten. With at
most fifteen digits no step but the last one does, and the number is read as it is.
-/

namespace Inventory.Binary64

open Text Numeral

variable {x : Binary64} {n m num den num' den' : Nat} {e : Int} {negative : Bool}

section Quotients

theorem roundDiv_mul {k : Nat} (hk : 0 < k) (num den : Nat) : roundDiv (num * k) (den * k) = roundDiv num den := by
  have hhalf : (den * k < 2 * (num % den * k) ∨ den * k = 2 * (num % den * k) ∧ num / den % 2 = 1) ↔
      (den < 2 * (num % den) ∨ den = 2 * (num % den) ∧ num / den % 2 = 1) := by
    rw [← Nat.mul_assoc, Nat.mul_lt_mul_right hk, Nat.mul_left_inj (Nat.ne_of_gt hk)]
  simp only [roundDiv, Nat.mul_div_mul_right num den hk, Nat.mul_mod_mul_right, hhalf]

theorem nearest?_mul {k : Nat} (hk : 0 < k) (negative : Bool) (num den : Nat) :
    nearest? negative (num * k) (den * k) = nearest? negative num den := by
  have hshift : ∀ s, (den * k) <<< s = den <<< s * k := by
    intro s
    rw [Nat.shiftLeft_eq, Nat.shiftLeft_eq, Nat.mul_right_comm]
  simp only [nearest?, Nat.mul_right_comm num k unitsPerOne, Nat.mul_div_mul_right _ den hk, hshift, roundDiv_mul hk]

theorem nearest?_congr (negative : Bool) (hden : 0 < den) (hden' : 0 < den') (h : num * den' = num' * den) :
    nearest? negative num den = nearest? negative num' den' := by
  calc
    nearest? negative num den = nearest? negative (num * den') (den * den') := (nearest?_mul hden' _ _ _).symm
    _ = nearest? negative (num' * den) (den' * den) := by rw [h, Nat.mul_comm den]
    _ = nearest? negative num' den' := nearest?_mul hden _ _ _

theorem map_withSign_nearest? (negative : Bool) (num den : Nat) :
    (nearest? false num den).map (withSign negative) = nearest? negative num den := by
  have hparts : ∀ mant shift, (ofParts? false mant shift).map (withSign negative) = ofParts? negative mant shift := by
    intro mant shift
    unfold ofParts?
    split <;> rfl
  simp only [nearest?]
  split <;> exact hparts _ _

theorem nearest?_zero (negative : Bool) (den : Nat) : nearest? negative 0 den = some (zero negative) := by
  simp [nearest?, roundDiv, ofParts?, zero]

/-- A decimal that is not far outside the range is rounded as a fraction. -/
theorem ofDecimal?_eq_nearest? (hlow : -400 ≤ e) (hhigh : e ≤ 400) :
    ofDecimal? negative n e = nearest? negative (n * Nat.pow 10 e.toNat) (Nat.pow 10 (-e).toNat) := by
  unfold ofDecimal?
  split
  · rename_i hn
    rw [hn, Nat.zero_mul, nearest?_zero]
  rw [if_neg (by omega), if_neg (by omega)]
  split
  · rw [Int.toNat_of_nonpos (by omega : -e ≤ 0)]
  · rw [Int.toNat_of_nonpos (by omega : e ≤ 0)]
    exact congrArg (nearest? negative · _) (Nat.mul_one n).symm

theorem ofDecimal?_zeros {k : Nat} (hlow : -300 ≤ e) (hhigh : e ≤ 300) (hk : k ≤ 100) :
    ofDecimal? negative (n * 10 ^ k) (e - k) = ofDecimal? negative n e := by
  rw [ofDecimal?_eq_nearest? (by omega) (by omega), ofDecimal?_eq_nearest? (by omega) (by omega)]
  refine nearest?_congr negative (Nat.pow_pos (by decide)) (Nat.pow_pos (by decide)) ?_
  have hexp : k + (e - k).toNat + (-e).toNat = e.toNat + (-(e - k)).toNat := by omega
  simp only [Nat.pow_eq, Nat.mul_assoc, ← Nat.pow_add, hexp]

end Quotients

section Integers

/-- The number is a natural number. -/
structure IsNat (x : Binary64) (n : Nat) : Prop where
  negative : x.negative = false
  magnitude : x.magnitude = n * unitsPerOne

theorem exists_isNat (hn : n < 2 ^ 128) (hm : m ≤ 2 ^ 53) {k : Nat} (h : n = m <<< k) :
    ∃ y, nearest? false n 1 = some y ∧ IsNat y n := by
  obtain ⟨y, hy, hnegative, hmagnitude⟩ := nearest?_eq_some false hn
  refine ⟨y, hy, hnegative, ?_⟩
  rw [hmagnitude, mul_unitsPerOne, h, ← Nat.shiftLeft_add, rounded_shiftLeft hm]

theorem isNat_ofInt (hn : n < 2 ^ 128) (hm : m ≤ 2 ^ 53) {k : Nat} (h : n = m <<< k) : IsNat (ofInt n) n := by
  obtain ⟨y, hy, hnat⟩ := exists_isNat hn hm h
  have hsign : decide ((n : Int) < 0) = false := decide_eq_false (by omega)
  rw [ofInt, hsign, Int.natAbs_natCast, hy]
  exact hnat

/-- Powers of ten up to this one need no rounding. -/
theorem isNat_tenTo (hn : n ≤ 22) : IsNat (tenTo n) (Nat.pow 10 n) := by
  have hpow : Nat.pow 10 n = 5 ^ n <<< n := by
    rw [Nat.shiftLeft_eq, ← Nat.mul_pow]
    rfl
  have hfive : 5 ^ n ≤ 2 ^ 53 := Nat.le_trans (Nat.pow_le_pow_right (by decide) hn) (by decide)
  have hlt : Nat.pow 10 n < 2 ^ 128 :=
    Nat.lt_of_le_of_lt (Nat.pow_le_pow_right (by decide : 0 < 10) hn) (by decide : 10 ^ 22 < 2 ^ 128)
  obtain ⟨y, hy, hnat⟩ := exists_isNat hlt hfive hpow
  rw [tenTo, hy]
  exact hnat

/-- Scaling by such a power rounds once. -/
theorem scale?_of_isNat (hx : IsNat x n) (he : e.natAbs ≤ 22) :
    x.scale? e = nearest? false (n * Nat.pow 10 e.toNat) (Nat.pow 10 (-e).toNat) := by
  have hten := isNat_tenTo he
  rw [scale?, if_pos (Nat.le_trans he (by decide))]
  -- both factors are counted in units, which cancel
  split
  · have hprod : n * unitsPerOne * (Nat.pow 10 e.natAbs * unitsPerOne) =
        n * Nat.pow 10 e.natAbs * (unitsPerOne * unitsPerOne) := Nat.mul_mul_mul_comm ..
    have hone := nearest?_mul (Nat.mul_pos unitsPerOne_pos unitsPerOne_pos) false (n * Nat.pow 10 e.natAbs) 1
    rw [Nat.one_mul] at hone
    rw [times?, hx.negative, hten.negative, hx.magnitude, hten.magnitude, hprod, bne_self_eq_false, hone,
      Int.toNat_of_nonpos (by omega : -e ≤ 0), show e.toNat = e.natAbs by omega]
  · rw [over?, hx.negative, hten.negative, hx.magnitude, hten.magnitude, bne_self_eq_false,
      nearest?_mul unitsPerOne_pos, Int.toNat_of_nonpos (by omega : e ≤ 0), show (-e).toNat = e.natAbs by omega]
    exact congrArg (nearest? false · _) (Nat.mul_one n).symm

end Integers

end Inventory.Binary64

namespace Inventory.NumberReading

open Text Numeral Binary64 Json Reader NumberTexts Spellings DocumentTexts

variable {cs ds whole fraction : List Char} {k n m v : Nat} {lead e : Int} {negative : Bool} {x : Binary64}

section Digits

theorem le_readOnto (h : readOnto 10 n cs = some v) : n ≤ v := by
  induction cs generalizing n with
  | nil => exact Nat.le_of_eq (Option.some.inj h)
  | cons c cs ih =>
      obtain ⟨d, -, hd⟩ := Option.bind_eq_some_iff.1 h
      have := ih hd
      omega

theorem readOnto_lt (h : readOnto 10 n cs = some v) : v < (n + 1) * 10 ^ cs.length := by
  induction cs generalizing n with
  | nil =>
      obtain rfl := Option.some.inj h
      simp
  | cons c cs ih =>
      obtain ⟨d, hc, hd⟩ := Option.bind_eq_some_iff.1 h
      have hlt : d < 10 := by simpa using (Option.filter_eq_some_iff.1 hc).2
      calc
        v < (n * 10 + d + 1) * 10 ^ cs.length := ih hd
        _ ≤ (n + 1) * 10 * 10 ^ cs.length := Nat.mul_le_mul_right _ (by omega)
        _ = (n + 1) * 10 ^ (c :: cs).length := by rw [List.length_cons, Nat.pow_succ', Nat.mul_assoc]

theorem readOnto_zeros (k n : Nat) : readOnto 10 n (List.replicate k '0') = some (n * 10 ^ k) := by
  induction k generalizing n with
  | zero => simp [readOnto]
  | succ k ih =>
      have hzero : digitOf? 10 '0' = some 0 := by decide
      rw [List.replicate_succ, readOnto, hzero, Option.bind_some, Nat.add_zero, ih, Nat.pow_succ', Nat.mul_assoc]

theorem gather_of_readOnto (h : readOnto 10 n cs = some v) (hv : v < 1 <<< 64) : gather n cs = (v, []) := by
  induction cs generalizing n with
  | nil =>
      obtain rfl := Option.some.inj h
      rfl
  | cons c cs ih =>
      obtain ⟨d, hc, hd⟩ := Option.bind_eq_some_iff.1 h
      simp only [gather, hc, if_pos (Nat.lt_of_le_of_lt (le_readOnto hd) hv), ih hd]

theorem approximate?_eq (h : readOnto 10 0 (whole ++ fraction) = some v) (hv : v < 1 <<< 64) :
    approximate? negative whole fraction e =
      ((Binary64.ofInt v).scale? (e - fraction.length)).map (withSign negative) := by
  rw [readOnto_append] at h
  obtain ⟨w, hw, hfraction⟩ := Option.bind_eq_some_iff.1 h
  have hscale : ((([] : List Char).length : Int) - (fraction.length - ([] : List Char).length : Nat)) + e =
      e - fraction.length := by
    simp only [List.length_nil]
    omega
  simp only [approximate?, gather_of_readOnto hw (Nat.lt_of_le_of_lt (le_readOnto hfraction) hv),
    gather_of_readOnto hfraction hv, hscale]

end Digits

section Integers

theorem readBack_int {i : Int} (hlow : -9223372036854775808 ≤ i) (hhigh : i < 18446744073709551616) :
    readBack (.int i) = some (.int i) := by
  have hread : read? 10 (digits 10 i.natAbs) = some i.natAbs := read?_digits (by decide) (by decide) _
  have hnumber : (integer i).number = wholeNumber (decide (i < 0)) (digits 10 i.natAbs) := rfl
  rw [readBack_eq (m := .int i) (sound_integer i) (chars_integer i), hnumber, wholeNumber, hread, Option.bind_some]
  by_cases hneg : i < 0
  · have hi : -(i.natAbs : Int) = i := by omega
    rw [if_pos (decide_eq_true hneg), hi, if_pos ⟨by omega, Bits.isSigned_64_iff.2 ⟨hlow, by omega⟩⟩]
  · have hi : (i.natAbs : Int) = i := by omega
    rw [if_neg (by simpa using hneg), hi, if_pos (Bits.isUnsigned_64_iff.2 ⟨by omega, hhigh⟩)]

end Integers

section Floats

/-- Decimals of at most fifteen digits, none of them before the fifteenth place before the point or behind the 22nd
after it. -/
structure IsShort (d : Decimal) : Prop where
  few : d.digits < 10 ^ 15
  first : d.scale + (digits 10 d.digits).length ≤ 15
  last : -22 ≤ d.scale

theorem eq_zero_of_isZero (hx : x.isZero = true) : x = zero x.negative := by
  obtain ⟨negative, mant, shift, _, hnormal, _⟩ := x
  have hmant : mant = 0 := eq_of_beq hx
  have hshift : shift = 0 := by
    rcases hnormal with h | h
    · exact h
    · rw [hmant] at h
      cases h
  subst hmant hshift
  rfl

theorem ofDecimal?_shortest {tie : Tie} (hlast : -22 ≤ (shortest tie x).scale) :
    ofDecimal? x.negative (shortest tie x).digits (shortest tie x).scale = some x := by
  cases hx : x.isZero with
  | true =>
      rw [shortest, if_pos hx, eq_zero_of_isZero hx]
      rfl
  | false =>
      rcases readsAs_shortest tie hx with h | h
      · exact eq_of_beq h
      · rw [h] at hlast
        exact absurd (show (-22 : Int) ≤ -1074 from hlast) (by decide)

/-- The digits that are written for a number, and the zeros that are not. -/
theorem readOnto_significant (n : Nat) : ∃ m k, readOnto 10 0 (significant (digits 10 n)) = some m ∧ n = m * 10 ^ k ∧
    (digits 10 n).length = (significant (digits 10 n)).length + k := by
  obtain ⟨k, hk⟩ := digits_eq_significant n
  have hread : readOnto 10 0 (digits 10 n) = some n := readOnto_digits (by decide) (by decide) n
  rw [hk, readOnto_append] at hread
  obtain ⟨m, hm, hzeros⟩ := Option.bind_eq_some_iff.1 hread
  rw [readOnto_zeros] at hzeros
  refine ⟨m, k, hm, (Option.some.inj hzeros).symm, ?_⟩
  rw [hk, List.length_append, List.length_replicate, ← hk]

theorem number_of_mark {sp : Spelling} (hs : sp.Sound) (h : ∃ c ∈ sp.chars, isMark c = true) :
    sp.number = (approximate? sp.negative sp.whole sp.fraction (sp.exp.getD 0)).map .float := by
  rw [Spelling.number, makeNumber, if_neg]
  intro hplain
  obtain ⟨c, hc, hmark⟩ := h
  simp only [Bool.and_eq_true, List.isEmpty_iff, Option.isNone_iff_eq_none] at hplain
  have hmem : c = '-' ∨ c ∈ sp.whole := by
    simp only [Spelling.chars, Spelling.unsigned, hplain.1, hplain.2, Spelling.pointed, Spelling.powered,
      List.append_nil] at hc
    split at hc
    · exact List.mem_cons.1 hc
    · exact .inr hc
  rcases hmem with rfl | hmem
  · cases hmark
  · rw [not_isMark_of_isDigit (hs.whole c hmem)] at hmark
    cases hmark

/-- A number whose digits fit 53 bits, but for a factor of two, and that need a small power of ten is read as the
nearest one. -/
theorem approximate?_eq_ofDecimal? {sp : Spelling} (h : readOnto 10 0 (sp.whole ++ sp.fraction) = some n)
    (hm : m ≤ 2 ^ 53) (hn : n = m <<< k) (hlt : n < 1 <<< 64) (hscale : sp.scale.natAbs ≤ 22) :
    approximate? sp.negative sp.whole sp.fraction (sp.exp.getD 0) = ofDecimal? sp.negative n sp.scale := by
  have hnat : IsNat (Binary64.ofInt n) n := isNat_ofInt (Nat.lt_trans hlt (by decide)) hm hn
  rw [approximate?_eq h hlt, ← Spelling.scale, scale?_of_isNat hnat hscale, map_withSign_nearest?,
    ofDecimal?_eq_nearest? (by omega) (by omega)]

theorem exists_shiftLeft (h : m < 10 ^ 15) (hn : n = m ∨ n = m * 10) :
    ∃ l k, l ≤ 2 ^ 53 ∧ n = l <<< k ∧ n < 1 <<< 64 := by
  have hfifteen : m < 1000000000000000 := h
  rcases hn with rfl | rfl
  · exact ⟨n, 0, Nat.le_of_lt (Nat.lt_trans h (by decide)), rfl, by omega⟩
  -- ten times as much takes more bits, but the last of them is zero
  · refine ⟨m * 5, 1, by omega, ?_, by omega⟩
    rw [Nat.shiftLeft_eq, Nat.mul_assoc]

/-- How a decimal is spelled: by its digits `m`, which have some zeros after them, as they have in the decimal. -/
structure Places (sp : Spelling) (d : Decimal) (ds : List Char) (m k after : Nat) : Prop where
  value : d.digits = m * 10 ^ k
  read : readOnto 10 0 ds = some m
  length : (digits 10 d.digits).length = ds.length + k
  spelled : readOnto 10 0 (sp.whole ++ sp.fraction) = some (m * 10 ^ after)
  scale : sp.scale = d.scale + k - after
  after : after = 0 ∨ sp.scale = -1

theorem exists_places_render (x : Binary64) : ∃ sp ds m k after, sp.Sound ∧ sp.negative = x.negative ∧
    (x.render .document).toList = sp.chars ∧ Places sp (shortest .toEven x) ds m k after := by
  obtain ⟨sp, hsp, hneg, ht⟩ := exists_spells_render x
  obtain ⟨before, after, hplaces, hscale, hafter⟩ := hsp.places
  obtain ⟨m, k, hm, hdigits, hlength⟩ := readOnto_significant (shortest .toEven x).digits
  refine ⟨sp, _, m, k, after, hsp.sound, hneg, ht, hdigits, hm, hlength, ?_, ?_, hafter⟩
  · rw [hplaces, readOnto_append, readOnto_zeros, Option.bind_some, Nat.zero_mul, readOnto_append, figures]
    simp only [Layout.document, hm, Option.bind_some, readOnto_zeros]
  · rw [hscale, leading, figures]
    simp only [Layout.document]
    omega

namespace Places

variable {sp : Spelling} {d : Decimal} {after : Nat}

theorem natAbs_scale_le (h : Places sp d ds m k after) (hd : IsShort d) : sp.scale.natAbs ≤ 22 := by
  obtain ⟨-, hfirst, hlast⟩ := hd
  have hlength := h.length
  have hscale := h.scale
  rcases h.after with hzero | hone
  · omega
  · omega

/-- One zero is all that the spelling may have beyond fifteen digits. -/
theorem exists_lt (h : Places sp d ds m k after) (hd : IsShort d) :
    ∃ w, w < 10 ^ 15 ∧ (m * 10 ^ after = w ∨ m * 10 ^ after = w * 10) := by
  obtain ⟨hfew, hfirst, -⟩ := hd
  cases after with
  | zero =>
      refine ⟨m, Nat.lt_of_le_of_lt ?_ hfew, .inl (by rw [Nat.pow_zero, Nat.mul_one])⟩
      rw [h.value]
      exact Nat.le_mul_of_pos_right m (Nat.pow_pos (by decide))
  -- the digits and all zeros but one make up the decimal, which is a whole number of as many places
  | succ after =>
      refine ⟨m * 10 ^ after, ?_, .inr (by rw [Nat.pow_succ, Nat.mul_assoc])⟩
      have hm := readOnto_lt h.read
      rw [Nat.zero_add, Nat.one_mul] at hm
      have hlength := h.length
      have hscale := h.scale
      have hone := h.after.resolve_left (Nat.succ_ne_zero after)
      calc
        m * 10 ^ after < 10 ^ ds.length * 10 ^ after := Nat.mul_lt_mul_of_pos_right hm (Nat.pow_pos (by decide))
        _ = 10 ^ (ds.length + after) := (Nat.pow_add ..).symm
        _ ≤ 10 ^ 15 := Nat.pow_le_pow_right (by decide) (by omega)

theorem ofDecimal?_eq (h : Places sp d ds m k after) (hd : IsShort d) :
    ofDecimal? negative (m * 10 ^ after) sp.scale = ofDecimal? negative d.digits d.scale := by
  have hsmall := h.natAbs_scale_le hd
  obtain ⟨-, hfirst, hlast⟩ := hd
  have hlength := h.length
  have hscale := h.scale
  calc
    ofDecimal? negative (m * 10 ^ after) sp.scale = ofDecimal? negative m (d.scale + k) := by
      rw [hscale]
      exact ofDecimal?_zeros (by omega) (by omega) (by omega)
    _ = ofDecimal? negative (m * 10 ^ k) (d.scale + k - k) := (ofDecimal?_zeros (by omega) (by omega) (by omega)).symm
    _ = ofDecimal? negative d.digits d.scale := by rw [← h.value, Int.add_sub_cancel]

end Places

theorem readBack_float (h : IsShort (shortest .toEven x)) : readBack (.float x) = some (.float x) := by
  obtain ⟨sp, ds, m, k, after, hs, hneg, ht, hplaces⟩ := exists_places_render x
  obtain ⟨w, hw, hvalue⟩ := hplaces.exists_lt h
  obtain ⟨l, i, hl, hshifted, hlt⟩ := exists_shiftLeft hw hvalue
  have hmark : ∃ c ∈ sp.chars, isMark c = true := by
    rw [← ht]
    exact exists_mark_render x
  rw [readBack_eq (m := .float x) hs ht, number_of_mark hs hmark,
    approximate?_eq_ofDecimal? hplaces.spelled hl hshifted hlt (hplaces.natAbs_scale_le h), hplaces.ofDecimal?_eq h,
    hneg, ofDecimal?_shortest h.last, Option.map_some]

end Floats

end Inventory.NumberReading
