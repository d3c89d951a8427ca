import Inventory.FieldValue

/-!
Statements that declare predicates and node types to the store, their text and their documents.
-/

namespace Inventory.Schema

/-- What a predicate holds. -/
inductive ScalarKind
  | string
  | int
  | float
  | bool
  | datetime
  /-- An edge to another node. -/
  | uid
deriving DecidableEq, Inhabited

namespace ScalarKind

def name : ScalarKind → String
  | string => "string"
  | int => "int"
  | float => "float"
  | bool => "bool"
  | datetime => "datetime"
  | uid => "uid"

def words : List (String × ScalarKind) :=
  [("string", string), ("int", int), ("float", float), ("bool", bool), ("datetime", datetime), ("uid", uid)]

def ofDataType : DataType → ScalarKind
  | .string => string
  | .int => int
  | .float => float

end ScalarKind

inductive IndexKind
  | exact
  | trigram
  | int
  | float
deriving DecidableEq, Inhabited

namespace IndexKind

def name : IndexKind → String
  | exact => "exact"
  | trigram => "trigram"
  | int => "int"
  | float => "float"

def words : List (String × IndexKind) := [("exact", exact), ("trigram", trigram), ("int", int), ("float", float)]

/-- The indexes of a searchable attribute. -/
def forDataType : DataType → List IndexKind
  | .string => [exact, trigram]
  | .int => [int]
  | .float => [float]

end IndexKind

structure PredicateStatement where
  predicate : String
  kind : ScalarKind
  list : Bool
  indexes : List IndexKind
  /-- Whether edges can be followed backwards. -/
  reverse : Bool
deriving DecidableEq, Inhabited

namespace PredicateStatement

def new (predicate : String) (kind : ScalarKind) : PredicateStatement := ⟨predicate, kind, false, [], false⟩

def asList (p : PredicateStatement) : PredicateStatement := { p with list := true }

def indexed (p : PredicateStatement) (indexes : List IndexKind) : PredicateStatement := { p with indexes }

def reversed (p : PredicateStatement) : PredicateStatement := { p with reverse := true }

def text (p : PredicateStatement) : String :=
  let kind := if p.list then "[" ++ p.kind.name ++ "]" else p.kind.name
  let index := if p.indexes.isEmpty then "" else " @index(" ++ ", ".intercalate (p.indexes.map IndexKind.name) ++ ")"
  p.predicate ++ ": " ++ kind ++ index ++ (if p.reverse then " @reverse" else "") ++ " ."

def fieldNames : List String := ["predicate", "kind", "list", "indexes", "reverse"]

def fields (p : PredicateStatement) : List (String × Json) :=
  [("predicate", .str p.predicate), ("kind", .str p.kind.name), ("list", .bool p.list),
    ("indexes", .ofStrings (p.indexes.map IndexKind.name)), ("reverse", .bool p.reverse)]

open Document in
def ofDocument? (d : Document) : Option PredicateStatement := do
  match ← d.record? fieldNames with
  | [predicate, kind, list, indexes, reverse] =>
    return {
      predicate := ← required text? predicate
      kind := ← required (openWord? ScalarKind.words) kind
      list := ← required bool? list
      indexes := ← required (list? (openWord? IndexKind.words)) indexes
      reverse := ← required bool? reverse }
  | _ => none

end PredicateStatement

/-- A node type and the predicates its nodes carry. -/
structure TypeStatement where
  name : String
  fields : List String
deriving DecidableEq, Inhabited

namespace TypeStatement

def text (t : TypeStatement) : String :=
  "type " ++ t.name ++ " \x7b\n" ++ String.join (t.fields.map fun f => "  " ++ f ++ "\n") ++ "\x7d"

def fieldNames : List String := ["name", "fields"]

def jsonFields (t : TypeStatement) : List (String × Json) := [("name", .str t.name), ("fields", .ofStrings t.fields)]

open Document in
def ofDocument? (d : Document) : Option TypeStatement := do
  match ← d.record? fieldNames with
  | [name, fields] => return { name := ← required text? name, fields := ← required (list? text?) fields }
  | _ => none

end TypeStatement

inductive Statement
  | predicate (p : PredicateStatement)
  | type (t : TypeStatement)
deriving DecidableEq, Inhabited

namespace Statement

/-- The name under which a store keeps the statement. -/
def key : Statement → String
  | predicate p => p.predicate
  | type t => "type " ++ t.name

def text : Statement → String
  | predicate p => p.text
  | type t => t.text

/-- Statements one to a line. -/
def renderAll (ss : List Statement) : String := "\n".intercalate (ss.map text)

def toJson : Statement → Json
  | predicate p => .ofFields (("statement", .str "predicate") :: p.fields)
  | type t => .ofFields (("statement", .str "type") :: t.jsonFields)

/-- The statement whose kind is named by `tag` and whose other fields are `rest`. -/
def ofTagged? (tag : Document) (rest : Document) : Option Statement :=
  match tag with
  | .str (some "predicate") => (PredicateStatement.ofDocument? rest).map predicate
  | .str (some "type") => (TypeStatement.ofDocument? rest).map type
  | _ => none

/-- The kind stands in a field of its own, or first in an array. Unlike elsewhere, a field that is not known
must still hold a value, nested at most `depth` deep. -/
def ofDocument? (depth : Nat) (d : Document) : Option Statement :=
  if (d.toJson? depth).isNone then none
  else
    match d with
    | .arr (tag :: rest) => ofTagged? tag (.arr rest)
    | .obj fields => do
      let tag ← (← Document.field? "statement" fields)
      ofTagged? tag (.obj (fields.filter (·.1 != some "statement")))
    | _ => none

end Statement

/-- A list of statements. -/
def statements? (d : Document) : Option (List Statement) :=
  Document.list? (Statement.ofDocument? (Document.maxDepth - 1)) d

end Inventory.Schema
