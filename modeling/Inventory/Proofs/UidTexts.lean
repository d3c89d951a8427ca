import Inventory.Proofs.Uid
import Mathlib.Data.List.Induction

/-!
Which texts are read as uids. The text of a uid is, and so are all texts of `0x` or `0X` and the hexadecimal digits of a
number of 64 bits; but a plus sign may stand before the digits, as it may before any unsigned number.
-/

namespace Inventory.UidTexts

open Text Numeral Uid

variable {c : Char} {cs ds : List Char} {d n : Nat} {s : String} {u : Uid}

/-- A hexadecimal digit of either case, and its value. -/
def Digit (c : Char) (d : Nat) : Prop :=
  "0123456789abcdef".toList[d]? = some c ∨ "0123456789ABCDEF".toList[d]? = some c

/-- One or more digits, and the number that they stand for. -/
inductive Digits : List Char → Nat → Prop
  | one {c : Char} {d : Nat} (h : Digit c d) : Digits [c] d
  | more {cs : List Char} {c : Char} {n d : Nat} (hs : Digits cs n) (h : Digit c d) : Digits (cs ++ [c]) (n * 16 + d)

/-- What stands behind `0x` or `0X`. -/
def Behind (s : String) (ds : List Char) : Prop := s.toList = '0' :: 'x' :: ds ∨ s.toList = '0' :: 'X' :: ds

/-- A spelling of a number as a uid. -/
def Spells (s : String) (n : Nat) : Prop := ∃ ds, Behind s ds ∧ Digits ds n

/-- A spelling with a plus sign before the digits. -/
def SpellsSigned (s : String) (n : Nat) : Prop := ∃ ds, Behind s ('+' :: ds) ∧ Digits ds n

/-- A uid as nodes have them, with a number of 64 bits. -/
def InRange (u : Uid) : Prop := u.value < 1 <<< 64

/-- A text is read as the uid that it spells, and is refused if it spells none. -/
structure ReadExactly (s : String) : Prop where
  ok : ∀ u, parse s = .ok u ↔ Spells s u.value ∧ InRange u
  error : (¬∃ u : Uid, Spells s u.value ∧ InRange u) → parse s = .error ⟨s⟩

section Digits

theorem toNat_lt_of_digitValue? (h : digitValue? c = some d) : c.toNat < 128 := by
  have below : ∀ {a b : Char}, a ≤ c ∧ c ≤ b → c.toNat ≤ b.toNat := fun h => h.2
  unfold digitValue? at h
  split at h
  · exact Nat.lt_of_le_of_lt (below ‹_›) (by decide)
  · split at h
    · exact Nat.lt_of_le_of_lt (below ‹_›) (by decide)
    · split at h
      · exact Nat.lt_of_le_of_lt (below ‹_›) (by decide)
      · cases h

theorem digitOf?_eq_some_iff : digitOf? 16 c = some d ↔ Digit c d := by
  constructor
  · intro h
    obtain ⟨hvalue, hlt⟩ := Option.filter_eq_some_iff.1 h
    have hall : ∀ k, k < 128 → ∀ d, d < 16 → digitOf? 16 (Char.ofNat k) = some d → Digit (Char.ofNat k) d := by
      unfold Digit
      decide +kernel
    have hc := hall c.toNat (toNat_lt_of_digitValue? hvalue) d (of_decide_eq_true hlt)
    rw [Char.ofNat_toNat] at hc
    exact hc h
  · intro h
    have hlow : ∀ d, d < 16 → ("0123456789abcdef".toList[d]?).bind (digitOf? 16) = some d := by decide
    have hhigh : ∀ d, d < 16 → ("0123456789ABCDEF".toList[d]?).bind (digitOf? 16) = some d := by decide
    rcases h with h | h
    · have := hlow d (List.getElem?_eq_some_iff.1 h).1
      rwa [h] at this
    · have := hhigh d (List.getElem?_eq_some_iff.1 h).1
      rwa [h] at this

/-- Digits are read from the left, and their number is built from the left. -/
theorem read?_eq_some_iff : read? 16 cs = some n ↔ Digits cs n := by
  constructor
  · intro h
    induction cs using List.reverseRecOn generalizing n with
    | nil => cases h
    | append_singleton cs c ih =>
        rw [read?, if_neg (by simp), readOnto_append] at h
        obtain ⟨m, hm, hc⟩ := Option.bind_eq_some_iff.1 h
        obtain ⟨d, hd, hn⟩ := Option.bind_eq_some_iff.1 hc
        obtain rfl := Option.some.inj hn
        have hdigit := digitOf?_eq_some_iff.1 hd
        cases cs with
        | nil =>
            obtain rfl := Option.some.inj hm
            rw [Nat.zero_mul, Nat.zero_add]
            exact .one hdigit
        | cons b bs => exact .more (ih (by rwa [read?, if_neg (by simp)])) hdigit
  · intro h
    induction h with
    | one h => simp [read?, readOnto, digitOf?_eq_some_iff.2 h]
    | @more cs c n d hs h ih =>
        have hcs : readOnto 16 0 cs = some n := by
          unfold read? at ih
          split at ih
          · cases ih
          · exact ih
        rw [read?, if_neg (by simp), readOnto_append, hcs]
        simp [readOnto, digitOf?_eq_some_iff.2 h]

theorem not_digits_plus : ¬Digits ('+' :: cs) n := by
  rw [← read?_eq_some_iff]
  intro h
  cases h

theorem readUnsigned?_eq_some_iff : readUnsigned? 16 64 ds = some n ↔
    (Digits ds n ∨ ∃ cs, ds = '+' :: cs ∧ Digits cs n) ∧ n < 1 <<< 64 := by
  have hbits : Bits.isUnsigned 64 (n : Int) = true ↔ n < 1 <<< 64 := by
    rw [Bits.isUnsigned_64_iff]
    omega
  unfold readUnsigned?
  rw [Option.filter_eq_some_iff, hbits]
  refine and_congr_left fun _ => ?_
  split
  · rename_i cs
    rw [read?_eq_some_iff]
    constructor
    · exact fun h => .inr ⟨cs, rfl, h⟩
    · rintro (h | ⟨cs, he, h⟩)
      · exact absurd h not_digits_plus
      · cases he
        exact h
  · rename_i hne
    rw [read?_eq_some_iff]
    constructor
    · exact .inl
    · rintro (h | ⟨cs, rfl, -⟩)
      · exact h
      · exact absurd rfl (hne cs)

end Digits

section Texts

theorem parse_of_behind (h : Behind s ds) :
    parse s = (readUnsigned? 16 64 ds).elim (.error ⟨s⟩) fun n => .ok ⟨n⟩ := by
  unfold parse
  rcases h with h | h
  · rw [h]
    cases hr : readUnsigned? 16 64 ds <;> simp [hr]
  · rw [h]
    cases hr : readUnsigned? 16 64 ds <;> simp [hr]

theorem parse_of_not_behind (h : ∀ ds, ¬Behind s ds) : parse s = .error ⟨s⟩ := by
  unfold parse
  split
  · exact absurd (.inl ‹_›) (h _)
  · exact absurd (.inr ‹_›) (h _)
  · rfl

theorem Behind.unique {ds' : List Char} (h : Behind s ds) (h' : Behind s ds') : ds' = ds := by
  rcases h with h | h <;> rcases h' with h' | h' <;> simp_all

theorem parse_eq_ok_iff_of_behind (h : Behind s ds) : parse s = .ok u ↔ readUnsigned? 16 64 ds = some u.value := by
  rw [parse_of_behind h]
  cases readUnsigned? 16 64 ds <;> simp [eq_iff]

theorem spells_iff (h : Behind s ds) : Spells s n ↔ Digits ds n := by
  refine ⟨?_, fun hd => ⟨ds, h, hd⟩⟩
  rintro ⟨ds', h', hd⟩
  rwa [h.unique h'] at hd

theorem spellsSigned_iff (h : Behind s ds) : SpellsSigned s n ↔ ∃ cs, ds = '+' :: cs ∧ Digits cs n := by
  constructor
  · rintro ⟨cs, h', hd⟩
    exact ⟨cs, (h.unique h').symm, hd⟩
  · rintro ⟨cs, rfl, hd⟩
    exact ⟨cs, h, hd⟩

/-- The texts that are read, and what they are read as. -/
theorem parse_eq_ok_iff : parse s = .ok u ↔ (Spells s u.value ∨ SpellsSigned s u.value) ∧ InRange u := by
  by_cases h : ∃ ds, Behind s ds
  · obtain ⟨ds, h⟩ := h
    rw [parse_eq_ok_iff_of_behind h, readUnsigned?_eq_some_iff, spells_iff h, spellsSigned_iff h, InRange]
  · have hnone : ∀ ds, ¬Behind s ds := fun ds hds => h ⟨ds, hds⟩
    rw [parse_of_not_behind hnone]
    refine iff_of_false (fun he => by cases he) ?_
    rintro ⟨⟨ds, hds, -⟩ | ⟨ds, hds, -⟩, -⟩
    · exact hnone _ hds
    · exact hnone _ hds

theorem parse_eq_error (h : ∀ u, parse s ≠ .ok u) : parse s = .error ⟨s⟩ := by
  by_cases hb : ∃ ds, Behind s ds
  · obtain ⟨ds, hb⟩ := hb
    rw [parse_of_behind hb] at h ⊢
    cases hr : readUnsigned? 16 64 ds with
    | none => rfl
    | some n => exact absurd (by rw [hr]; rfl) (h ⟨n⟩)
  · exact parse_of_not_behind fun ds hds => hb ⟨ds, hds⟩

/-- No text is a spelling both with a sign and without. -/
theorem not_spells_of_signed {m : Nat} (h : SpellsSigned s n) : ¬Spells s m := by
  obtain ⟨cs, hb, -⟩ := h
  rw [spells_iff hb]
  exact not_digits_plus

theorem parse_text (h : InRange u) : parse u.text = .ok u := by
  have hp := parse?_text u
  have hb : Bits.isUnsigned 64 (u.value : Int) = true := by
    unfold InRange at h
    rw [Bits.isUnsigned_64_iff]
    omega
  rw [if_pos hb, parse?] at hp
  cases he : parse u.text with
  | error e => rw [he] at hp; cases hp
  | ok v => rw [he] at hp; exact congrArg _ (Option.some.inj hp)

theorem readExactly_iff : ReadExactly s ↔ ¬∃ u : Uid, SpellsSigned s u.value ∧ InRange u := by
  constructor
  · rintro h ⟨u, hu, hrange⟩
    have hok := parse_eq_ok_iff.2 ⟨.inr hu, hrange⟩
    exact not_spells_of_signed hu ((h.ok u).1 hok).1
  · intro h
    have hok : ∀ u, parse s = .ok u ↔ Spells s u.value ∧ InRange u := by
      intro u
      rw [parse_eq_ok_iff]
      refine and_congr_left fun hrange => or_iff_left fun hsigned => h ⟨u, hsigned, hrange⟩
    exact ⟨hok, fun hnone => parse_eq_error fun u hu => hnone ⟨u, (hok u).1 hu⟩⟩

end Texts

/-- A uid is read back from its text. Every text is read as the uid that it spells and refused if it spells none, except
that the texts with a plus sign before the digits of a number of 64 bits are read too. -/
theorem read_exactly_unless_signed (u : Uid) (h : InRange u) (s : String) :
    parse u.text = .ok u ∧ (ReadExactly s ↔ ¬∃ v : Uid, SpellsSigned s v.value ∧ InRange v) ∧
      ∀ v, parse s = .ok v ↔ (Spells s v.value ∨ SpellsSigned s v.value) ∧ InRange v :=
  ⟨parse_text h, readExactly_iff, fun _ => parse_eq_ok_iff⟩

theorem read_exactly_upper : InRange ⟨42⟩ ∧ parse (Uid.text ⟨42⟩) = .ok ⟨42⟩ ∧ Spells "0X002A" 42 ∧
    parse "0X002A" = .ok ⟨42⟩ := by
  have hrange : InRange ⟨42⟩ := show 42 < 1 <<< 64 by decide
  have hspells : Spells "0X002A" 42 := ⟨"002A".toList, .inr rfl, read?_eq_some_iff.1 (by decide)⟩
  obtain ⟨hback, -, hread⟩ := read_exactly_unless_signed ⟨42⟩ hrange "0X002A"
  exact ⟨hrange, hback, hspells, (hread ⟨42⟩).2 ⟨.inl hspells, hrange⟩⟩

/-- A sign is not a digit, but a text with one is read. -/
theorem not_readExactly_signed : ¬Spells "0x+2a" 42 ∧ parse "0x+2a" = .ok ⟨42⟩ ∧ ¬ReadExactly "0x+2a" := by
  have hsigned : SpellsSigned "0x+2a" 42 := ⟨"2a".toList, .inl rfl, read?_eq_some_iff.1 (by decide)⟩
  have hrange : InRange ⟨42⟩ := show 42 < 1 <<< 64 by decide
  exact ⟨not_spells_of_signed hsigned, parse_eq_ok_iff.2 ⟨.inr hsigned, hrange⟩,
    fun h => readExactly_iff.1 h ⟨⟨42⟩, hsigned, hrange⟩⟩

end Inventory.UidTexts
