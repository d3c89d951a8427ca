import Inventory.Binary64.Reading
import Inventory.Json.Printer
import Inventory.Json.Decoder
import Inventory.Text.Blank

/-!
Values of attributes, and how loosely typed values become typed ones.
-/

namespace Inventory

open Text

inductive DataType
  | string
  | int
  | float
deriving DecidableEq, Inhabited

namespace DataType

def name : DataType → String
  | string => "string"
  | int => "int"
  | float => "float"

/-- The number under which a stored attribute keeps its type. -/
def code : DataType → Int
  | string => 1
  | int => 2
  | float => 3

def ofCode? (code : Int) : Option DataType :=
  if code = 1 then some string else if code = 2 then some int else if code = 3 then some float else none

def isNumeric : DataType → Bool
  | string => false
  | int => true
  | float => true

def words : List (String × DataType) := [("string", string), ("int", int), ("float", float)]

theorem ofCode?_code (t : DataType) : ofCode? t.code = some t := by cases t <;> rfl

theorem lookup_name (t : DataType) : words.lookup t.name = some t := by cases t <;> rfl

end DataType

/-- A value of an attribute. Integers have 64 bits. -/
inductive FieldValue
  | string (s : String)
  | int (i : Int)
  | float (x : Binary64)
deriving DecidableEq

inductive ConversionError
  | wrongKind (expected : DataType) (found : Json)
  | fractional (n : Number)
  | unreadable (expected : DataType) (text : String)

namespace ConversionError

def article : DataType → String
  | .string => "a string"
  | .int => "an integer"
  | .float => "a float"

def message : ConversionError → String
  | wrongKind t found => s!"expected {t.name}, got {found.kind}"
  | fractional n => s!"{n.render} is not an integer"
  | unreadable t s => s!"'{s}' is not {article t}"

end ConversionError

/-- Without the blanks at its ends, and without one pair of quotes around the rest. -/
def unquoted (s : String) : List Char :=
  let cs := Blank.trimChars s.toList
  match cs with
  | '"' :: r =>
    match r.reverse with
    | '"' :: inner => Blank.trimChars inner.reverse
    | _ => cs
  | _ => cs

namespace FieldValue

def ofNumber : DataType → Number → Except ConversionError FieldValue
  | .string, n => .ok (string n.render)
  | .int, .int i => if Bits.isSigned 64 i then .ok (int i) else .error (.fractional (.int i))
  | .int, .float x =>
    match x.toInt? with
    | some i => if i.natAbs < 1 <<< 63 then .ok (int i) else .error (.fractional (.float x))
    | none => .error (.fractional (.float x))
  | .float, n => .ok (float n.toBinary64)

def ofText : DataType → String → Except ConversionError FieldValue
  | .string, s => .ok (string s)
  | .int, s =>
    match Numeral.readSigned? (unquoted s) with
    | some i => .ok (int i)
    | none => .error (.unreadable .int s)
  | .float, s =>
    match Binary64.read? (unquoted s) with
    | some x => .ok (float x)
    | none => .error (.unreadable .float s)

/-- The value of a type that a loosely typed value stands for. -/
def convert (t : DataType) : Json → Except ConversionError FieldValue
  | .num n => ofNumber t n
  | .str s => ofText t s
  | .bool b => if t = .string then .ok (string (if b then "true" else "false")) else .error (.wrongKind t (.bool b))
  | j => .error (.wrongKind t j)

def dataType : FieldValue → DataType
  | string _ => .string
  | int _ => .int
  | float _ => .float

def str? : FieldValue → Option String
  | string s => some s
  | _ => none

def toJson : FieldValue → Json
  | string s => .str s
  | int i => .num (.int i)
  | float x => .num (.float x)

/-- The text of a value by itself, as an identifier or label. -/
def display : FieldValue → String
  | string s => s
  | int i => Numeral.signed i
  | float x => x.render .plain

end FieldValue

end Inventory
