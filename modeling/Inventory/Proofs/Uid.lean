import Inventory.Text.Blank
import Inventory.Uid

/-!
The text of a uid is read as that uid and no other, and has no blanks around it.
-/

namespace Inventory

open Text Numeral

theorem Text.Numeral.mem_digits {base n : Nat} {c : Char} (h1 : 1 < base) (h : c ∈ digits base n) :
    ∃ d, d < base ∧ c = digitChar d := by
  induction n using Nat.strongRecOn with
  | ind n ih =>
      rw [digits] at h
      split at h
      · rename_i hn
        rcases List.mem_append.1 h with h | h
        · exact ih _ (Nat.div_lt_self (by omega) h1) h
        · exact ⟨n % base, Nat.mod_lt _ (by omega), by simpa using h⟩
      · rename_i hn
        exact ⟨n, by omega, by simpa using h⟩

theorem Text.Numeral.digitChar_plain : ∀ d, d < 16 → Blank.isBlank (digitChar d) = false ∧ digitChar d ≠ '+' := by
  decide

theorem Text.Numeral.readUnsigned?_digits {base : Nat} (h1 : 1 < base) (h16 : base ≤ 16) (bits n : Nat) :
    readUnsigned? base bits (digits base n) = if Bits.isUnsigned bits n then some n else none := by
  have hplus : ∀ r, digits base n ≠ '+' :: r := by
    intro r hr
    have hmem : '+' ∈ digits base n := by
      rw [hr]
      exact List.mem_cons_self
    obtain ⟨d, hlt, hc⟩ := mem_digits h1 hmem
    exact (digitChar_plain d (Nat.lt_of_lt_of_le hlt h16)).2 hc.symm
  unfold readUnsigned?
  split
  · rename_i r hr
    exact absurd hr (hplus r)
  · have hread : read? base (digits base n) = some n := read?_digits h1 h16 n
    simp only [hread, Option.filter_some]

theorem Text.Numeral.readUnsigned?_decimal {n : Nat} (hn : n < 1 <<< 64) :
    readUnsigned? 10 64 (decimal n).toList = some n := by
  have hb : Bits.isUnsigned 64 (n : Int) = true := by
    rw [Bits.isUnsigned_64_iff]
    omega
  rw [decimal, String.toList_ofList, readUnsigned?_digits (by decide) (by decide), if_pos hb]

theorem Text.Blank.trimChars_eq_self {cs : List Char} (h : ∀ c ∈ cs, Blank.isBlank c = false) :
    Blank.trimChars cs = cs := by
  have keep : ∀ cs : List Char, (∀ c ∈ cs, Blank.isBlank c = false) → cs.dropWhile Blank.isBlank = cs := by
    intro cs h
    cases cs with
    | nil => rfl
    | cons c cs => rw [List.dropWhile_cons, h c (by simp)]; simp
  rw [Blank.trimChars, keep cs h, Blank.trimEnd, keep cs.reverse fun c hc => h c (List.mem_reverse.1 hc),
    List.reverse_reverse]

namespace Uid

theorem parse?_text (u : Uid) : parse? u.text = if Bits.isUnsigned 64 u.value then some u else none := by
  have hl : u.text.toList = '0' :: 'x' :: digits 16 u.value := String.toList_ofList
  rw [parse?, parse, hl]
  simp only [Option.bind_some, readUnsigned?_digits (show 1 < 16 by decide) (by decide)]
  by_cases hb : Bits.isUnsigned 64 u.value
  · simp [hb, Except.toOption]
  · simp [hb, Except.toOption]

theorem eq_of_parse?_text {u v : Uid} (h : parse? u.text = some v) : v = u := by
  rw [parse?_text] at h
  split at h
  · cases h
    rfl
  · cases h

theorem text_injective {u v : Uid} (h : u.text = v.text) : u = v := by
  have hd : digits 16 u.value = digits 16 v.value := by
    have := congrArg String.toList h
    simpa [text] using this
  have hread : ∀ n, read? 16 (digits 16 n) = some n := read?_digits (by decide) (by decide)
  have hv : some u.value = some v.value := by
    rw [← hread u.value, hd, hread]
  exact eq_iff.2 (Option.some.inj hv)

theorem trim_text (u : Uid) : Blank.trim u.text = u.text := by
  have hl : u.text.toList = '0' :: 'x' :: digits 16 u.value := String.toList_ofList
  rw [Blank.trim, Blank.trimChars_eq_self, String.ofList_toList]
  intro c hc
  rw [hl] at hc
  rcases List.mem_cons.1 hc with rfl | hc
  · rfl
  · rcases List.mem_cons.1 hc with rfl | hc
    · rfl
    · obtain ⟨d, hlt, rfl⟩ := mem_digits (by decide) hc
      exact (digitChar_plain d hlt).1

end Uid

end Inventory
