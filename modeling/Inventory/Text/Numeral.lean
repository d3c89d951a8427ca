import Inventory.Bits

/-!
Numerals: the digits of a natural number in a base of at most sixteen, and the number that digits stand for.
-/

namespace Inventory.Text.Numeral

def digitChar (d : Nat) : Char := if d < 10 then Char.ofNat (48 + d) else Char.ofNat (87 + d)

/-- The value of a digit of any base up to sixteen, in either case. -/
def digitValue? (c : Char) : Option Nat :=
  if '0' ≤ c ∧ c ≤ '9' then some (c.toNat - 48)
  else if 'a' ≤ c ∧ c ≤ 'f' then some (c.toNat - 87)
  else if 'A' ≤ c ∧ c ≤ 'F' then some (c.toNat - 55)
  else none

/-- The digits of `n`, the most significant first and without leading zeros; `0` is one digit. -/
def digits (base n : Nat) : List Char :=
  if 1 < base ∧ base ≤ n then digits base (n / base) ++ [digitChar (n % base)]
  else [digitChar n]
termination_by n
decreasing_by exact Nat.div_lt_self (by omega) (by omega)

def digitOf? (base : Nat) (c : Char) : Option Nat := (digitValue? c).filter (· < base)

/-- Reads digits onto `acc`, and nothing but digits. -/
def readOnto (base : Nat) : Nat → List Char → Option Nat
  | acc, [] => some acc
  | acc, c :: cs => (digitOf? base c).bind fun d => readOnto base (acc * base + d) cs

/-- The number that one or more digits stand for. -/
def read? (base : Nat) (cs : List Char) : Option Nat :=
  if cs.isEmpty then none else readOnto base 0 cs

def decimal (n : Nat) : String := String.ofList (digits 10 n)

/-- Decimal digits with a leading `-` for numbers below zero. -/
def signed (i : Int) : String :=
  if i < 0 then String.ofList ('-' :: digits 10 i.natAbs) else decimal i.natAbs

/-- Digits after at most one leading `+`, for a number of so many bits. -/
def readUnsigned? (base bits : Nat) (cs : List Char) : Option Nat :=
  let ds := match cs with
    | '+' :: r => r
    | _ => cs
  (read? base ds).filter fun n => Bits.isUnsigned bits n

/-- Decimal digits after at most one leading sign, for a number of 64 bits in two's complement. -/
def readSigned? (cs : List Char) : Option Int :=
  let i? : Option Int := match cs with
    | '-' :: r => (read? 10 r).map fun n => -(n : Int)
    | '+' :: r => (read? 10 r).map fun n => (n : Int)
    | _ => (read? 10 cs).map fun n => (n : Int)
  i?.filter (Bits.isSigned 64)

theorem digitValue?_digitChar : ∀ d, d < 16 → digitValue? (digitChar d) = some d := by decide

theorem readOnto_append (base acc : Nat) (cs ds : List Char) :
    readOnto base acc (cs ++ ds) = (readOnto base acc cs).bind fun n => readOnto base n ds := by
  induction cs generalizing acc with
  | nil => rfl
  | cons c cs ih =>
    simp only [List.cons_append, readOnto]
    cases digitOf? base c <;> simp [ih]

theorem digits_ne_nil (base n : Nat) : digits base n ≠ [] := by
  rw [digits]
  split <;> simp

/-- What was written is read back. -/
theorem readOnto_digits {base : Nat} (h1 : 1 < base) (h16 : base ≤ 16) (n : Nat) :
    readOnto base 0 (digits base n) = some n := by
  induction n using Nat.strongRecOn with
  | ind n ih =>
    rw [digits]
    split
    · rename_i h
      have hlt : n % base < base := Nat.mod_lt _ (by omega)
      have hdiv : n / base < n := Nat.div_lt_self (by omega) h1
      rw [readOnto_append, ih _ hdiv]
      simp [readOnto, digitOf?, digitValue?_digitChar _ (Nat.lt_of_lt_of_le hlt h16), Option.filter, hlt,
        Nat.div_add_mod' n base]
    · rename_i h
      have hlt : n < base := by omega
      simp [readOnto, digitOf?, digitValue?_digitChar n (Nat.lt_of_lt_of_le hlt h16), Option.filter, hlt]

theorem read?_digits {base : Nat} (h1 : 1 < base) (h16 : base ≤ 16) (n : Nat) :
    read? base (digits base n) = some n := by
  simp [read?, digits_ne_nil, readOnto_digits h1 h16]

theorem digits_injective {m n : Nat} (h : digits 10 m = digits 10 n) : m = n := by
  have hread : ∀ n, read? 10 (digits 10 n) = some n := read?_digits (by decide) (by decide)
  have hv : some m = some n := by
    rw [← hread m, h, hread]
  exact Option.some.inj hv

theorem decimal_injective {m n : Nat} (h : decimal m = decimal n) : m = n := by
  refine digits_injective ?_
  have hd := congrArg String.toList h
  rwa [decimal, decimal, String.toList_ofList, String.toList_ofList] at hd

end Inventory.Text.Numeral
