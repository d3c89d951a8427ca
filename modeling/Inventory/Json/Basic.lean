import Inventory.Binary64.Rounding
import Inventory.Bits
import Inventory.Ordered.Table

/-!
Loosely typed values: what payloads, filter values and stored predicates hold.
-/

namespace Inventory

/-- A number is an integer or a floating-point number, and the two kinds never compare equal. -/
inductive Number
  | int (i : Int)
  | float (x : Binary64)
deriving DecidableEq

inductive Json
  | null
  | bool (b : Bool)
  | num (n : Number)
  | str (s : String)
  | arr (items : List Json)
  | obj (fields : List (String × Json))

namespace Number

def same : Number → Number → Bool
  | int i, int j => i == j
  | float x, float y => x.same y
  | _, _ => false

def toBinary64 : Number → Binary64
  | int i => .ofInt i
  | float x => x

end Number

namespace Json

instance : Inhabited Json := ⟨null⟩

mutual

/-- Agreement of two values whose numbers are compared by `eq`. -/
def agree (eq : Number → Number → Bool) : Json → Json → Bool
  | null, null => true
  | bool a, bool b => a == b
  | num a, num b => eq a b
  | str a, str b => a == b
  | arr as, arr bs => agreeItems eq as bs
  | obj as, obj bs => agreeFields eq as bs
  | _, _ => false

def agreeItems (eq : Number → Number → Bool) : List Json → List Json → Bool
  | [], [] => true
  | a :: as, b :: bs => agree eq a b && agreeItems eq as bs
  | _, _ => false

def agreeFields (eq : Number → Number → Bool) : List (String × Json) → List (String × Json) → Bool
  | [], [] => true
  | (k, a) :: as, (l, b) :: bs => k == l && agree eq a b && agreeFields eq as bs
  | _, _ => false

end

/-- Equality of values: an integer differs from a floating-point number, and the two zeros of the latter
are equal. -/
def same (a b : Json) : Bool := agree Number.same a b

mutual

/-- Agreement by a test that decides equality of numbers is equality. -/
theorem agree_iff_eq {eq : Number → Number → Bool} (heq : ∀ m n, eq m n = true ↔ m = n) :
    ∀ a b : Json, agree eq a b = true ↔ a = b
  | null, b => by cases b <;> simp [agree]
  | bool _, b => by cases b <;> simp [agree]
  | num _, b => by cases b <;> simp [agree, heq]
  | str _, b => by cases b <;> simp [agree]
  | arr as, b => by
    cases b
    case arr bs => simp [agree, agreeItems_iff_eq heq as bs]
    all_goals simp [agree]
  | obj as, b => by
    cases b
    case obj bs => simp [agree, agreeFields_iff_eq heq as bs]
    all_goals simp [agree]

theorem agreeItems_iff_eq {eq : Number → Number → Bool} (heq : ∀ m n, eq m n = true ↔ m = n) :
    ∀ as bs : List Json, agreeItems eq as bs = true ↔ as = bs
  | [], bs => by cases bs <;> simp [agreeItems]
  | a :: as, bs => by
    cases bs with
    | nil => simp [agreeItems]
    | cons b bs => simp [agreeItems, agree_iff_eq heq a b, agreeItems_iff_eq heq as bs]

theorem agreeFields_iff_eq {eq : Number → Number → Bool} (heq : ∀ m n, eq m n = true ↔ m = n) :
    ∀ as bs : List (String × Json), agreeFields eq as bs = true ↔ as = bs
  | [], bs => by cases bs <;> simp [agreeFields]
  | (k, a) :: as, bs => by
    cases bs with
    | nil => simp [agreeFields]
    | cons b bs =>
      obtain ⟨l, b⟩ := b
      simp [agreeFields, agree_iff_eq heq a b, agreeFields_iff_eq heq as bs]

end

instance : DecidableEq Json := fun a b =>
  decidable_of_iff _ (@agree_iff_eq (fun m n => decide (m = n)) (by simp) a b)

mutual

theorem same_refl : ∀ a : Json, a.same a = true
  | null => rfl
  | bool _ => by simp [same, agree]
  | num (.int _) => by simp [same, agree, Number.same]
  | num (.float x) => by simp [same, agree, Number.same, x.same_refl]
  | str _ => by simp [same, agree]
  | arr as => by simpa [same, agree] using sameItems_refl as
  | obj as => by simpa [same, agree] using sameFields_refl as

theorem sameItems_refl : ∀ as : List Json, agreeItems Number.same as as = true
  | [] => rfl
  | a :: as => by
    have := same_refl a
    simp_all [same, agreeItems, sameItems_refl as]

theorem sameFields_refl : ∀ as : List (String × Json), agreeFields Number.same as as = true
  | [] => rfl
  | (k, a) :: as => by
    have := same_refl a
    simp_all [same, agreeFields, sameFields_refl as]

end

def ofNat (n : Nat) : Json := num (.int n)

def ofOption (f : α → Json) : Option α → Json
  | none => null
  | some a => f a

def ofStrings (ss : List String) : Json := arr (ss.map str)

/-- The object of some fields: sorted by key, the last of several fields with one key kept. -/
def ofFields (fields : List (String × Json)) : Json :=
  obj (fields.foldl (fun acc f => Entries.place f.1 f.2 acc) [])

/-- The kind of a value, as messages call it. -/
def kind : Json → String
  | null => "null"
  | bool _ => "bool"
  | num _ => "number"
  | str _ => "string"
  | arr _ => "array"
  | obj _ => "object"

def get? (key : String) : Json → Option Json
  | obj fields => Entries.lookup key fields
  | _ => none

def isNull : Json → Bool
  | null => true
  | _ => false

def str? : Json → Option String
  | str s => some s
  | _ => none

def bool? : Json → Option Bool
  | bool b => some b
  | _ => none

def arr? : Json → Option (List Json)
  | arr items => some items
  | _ => none

/-- An integer that fits 64 bits without sign. -/
def nat? : Json → Option Nat
  | num (.int i) => if Bits.isUnsigned 64 i then some i.toNat else none
  | _ => none

/-- An integer that fits 64 bits with sign. -/
def int? : Json → Option Int
  | num (.int i) => if Bits.isSigned 64 i then some i else none
  | _ => none

end Json

end Inventory
