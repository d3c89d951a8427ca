import Inventory.Json.Basic

/-!
Documents as written: repeated keys are kept, and a string or number that stands for no value is kept as
such, because a reader that skips it does not mind.
-/

namespace Inventory

inductive Document
  | null
  | bool (b : Bool)
  /-- A number, or one too large to hold. -/
  | num (n : Option Number)
  /-- A text, or one with half of a surrogate pair. -/
  | str (s : Option String)
  | arr (items : List Document)
  | obj (fields : List (Option String × Document))

namespace Document

instance : Inhabited Document := ⟨null⟩

/-- Values nest at most this deep, counted from the outermost array or object of a document. -/
def maxDepth : Nat := 127

mutual

/-- The value that a document stands for, when its arrays and objects nest at most `depth` deep. -/
def toJson? : Nat → Document → Option Json
  | _, null => some .null
  | _, bool b => some (.bool b)
  | _, num n => n.map .num
  | _, str s => s.map .str
  | 0, arr _ => none
  | depth + 1, arr items => (itemsToJson? depth items).map .arr
  | 0, obj _ => none
  | depth + 1, obj fields => (fieldsToJson? depth fields).map .ofFields

def itemsToJson? : Nat → List Document → Option (List Json)
  | _, [] => some []
  | depth, d :: ds => do return (← toJson? depth d) :: (← itemsToJson? depth ds)

def fieldsToJson? : Nat → List (Option String × Document) → Option (List (String × Json))
  | _, [] => some []
  | depth, (k, d) :: ds => do return (← k, ← toJson? depth d) :: (← fieldsToJson? depth ds)

end

mutual

/-- The document that writes a value. -/
def ofJson : Json → Document
  | .null => null
  | .bool b => bool b
  | .num n => num (some n)
  | .str s => str (some s)
  | .arr items => arr (ofItems items)
  | .obj fields => obj (ofFields fields)

def ofItems : List Json → List Document
  | [] => []
  | j :: js => ofJson j :: ofItems js

def ofFields : List (String × Json) → List (Option String × Document)
  | [] => []
  | (k, j) :: js => (some k, ofJson j) :: ofFields js

end

end Document

end Inventory
