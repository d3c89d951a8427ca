import Inventory.Json.Document
import Inventory.Ordered.Set

/-!
Taking documents apart. A record is an object, in which a known field stands at most once and unknown ones
are ignored, or an array of its fields in order.
-/

namespace Inventory.Document

variable {α : Type}

/-- The field of a name, if there is one, and a failure if there are several. -/
def field? (name : String) (fields : List (Option String × Document)) : Option (Option Document) :=
  match fields.filter (·.1 == some name) with
  | [] => some none
  | [(_, d)] => some (some d)
  | _ => none

/-- The fields of a record in the order of their names, each with what is written for it. -/
def record? (names : List String) : Document → Option (List (Option Document))
  | obj fields => if fields.all (·.1.isSome) then names.mapM fun n => field? n fields else none
  | arr items =>
    if items.length ≤ names.length then
      some (items.map some ++ List.replicate (names.length - items.length) none)
    else none
  | _ => none

def required (read : Document → Option α) (d : Option Document) : Option α := d.bind read

def defaulted (read : Document → Option α) (value : α) : Option Document → Option α
  | none => some value
  | some d => read d

/-- `null` where a value may be absent. -/
def nullable (read : Document → Option α) : Document → Option (Option α)
  | null => some none
  | d => (read d).map some

def text? : Document → Option String
  | str s => s
  | _ => none

def bool? : Document → Option Bool
  | bool b => some b
  | _ => none

/-- An integer of so many bits without a sign. -/
def nat? (bits : Nat) : Document → Option Nat
  | num (some (.int i)) => if Bits.isUnsigned bits i then some i.toNat else none
  | _ => none

/-- An integer of so many bits in two's complement. -/
def int? (bits : Nat) : Document → Option Int
  | num (some (.int i)) => if Bits.isSigned bits i then some i else none
  | _ => none

def list? (read : Document → Option α) : Document → Option (List α)
  | arr items => items.mapM read
  | _ => none

def names? (d : Document) : Option NameSet := (list? text? d).map OrderedSet.ofList

/-- One of several words, as a string or as the only field of an object that holds `null`. -/
def word? (words : List (String × α)) : Document → Option α
  | str (some w) => words.lookup w
  | obj [(some w, null)] => words.lookup w
  | _ => none

/-- A word whose object may also hold an empty object. -/
def openWord? (words : List (String × α)) : Document → Option α
  | obj [(some w, obj [])] => words.lookup w
  | d => word? words d

end Inventory.Document
