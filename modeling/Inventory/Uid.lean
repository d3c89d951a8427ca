import Inventory.Text.Numeral
import Inventory.Json.Decoder

/-!
Identifiers of nodes, and their text.
-/

namespace Inventory

open Text

structure Uid where
  value : Nat
deriving DecidableEq, Inhabited

namespace Uid

instance : LT Uid := ⟨fun a b => a.value < b.value⟩

instance : LE Uid := ⟨fun a b => a.value ≤ b.value⟩

instance : DecidableLT Uid := fun a b => inferInstanceAs (Decidable (a.value < b.value))

theorem lt_def {a b : Uid} : a < b ↔ a.value < b.value := Iff.rfl

theorem le_def {a b : Uid} : a ≤ b ↔ a.value ≤ b.value := Iff.rfl

theorem eq_iff {a b : Uid} : a = b ↔ a.value = b.value := by cases a; cases b; simp

instance : Std.IsLinearOrder Uid where
  le_refl _ := Nat.le_refl _
  le_trans _ _ _ := Nat.le_trans
  le_antisymm _ _ hab hba := eq_iff.2 (Nat.le_antisymm hab hba)
  le_total a b := Nat.le_total a.value b.value

instance : Std.LawfulOrderLT Uid where
  lt_iff _ _ := by simp only [lt_def, le_def]; omega

/-- `0x` and the hexadecimal digits. -/
def text (u : Uid) : String := String.ofList ('0' :: 'x' :: Numeral.digits 16 u.value)

structure ParseError where
  text : String
deriving DecidableEq

def ParseError.message (e : ParseError) : String := s!"invalid uid '{e.text}'"

/-- `0x` or `0X`, one `+` or none, and the digits of a number of 64 bits. -/
def parse (s : String) : Except ParseError Uid :=
  let digits? := match s.toList with
    | '0' :: 'x' :: ds => some ds
    | '0' :: 'X' :: ds => some ds
    | _ => none
  match digits?.bind (Numeral.readUnsigned? 16 64) with
  | some n => .ok ⟨n⟩
  | none => .error ⟨s⟩

def parse? (s : String) : Option Uid := (parse s).toOption

def toJson (u : Uid) : Json := .str u.text

def ofDocument? (d : Document) : Option Uid := d.text?.bind parse?

end Uid

end Inventory
