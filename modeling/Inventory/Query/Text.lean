import Inventory.Query.Basic
import Inventory.Json.Printer
import Inventory.Text.Quoted

/-!
The text of a query. Texts and patterns given by users are quoted here and nowhere else.
-/

namespace Inventory.Query

open Text

mutual

/-- A value in a query. Nothing is written as an empty text, and an object as the text of its document. -/
def literal : Json → List Char
  | .str s => Quoted.quoted s
  | .arr items => '[' :: (literals items ++ [']'])
  | .null => ['"', '"']
  | .obj fields => Quoted.quoted (Json.obj fields).render
  | j => j.renderChars

def literals : List Json → List Char
  | [] => []
  | [j] => literal j
  | j :: js => literal j ++ ", ".toList ++ literals js

end

def NodeRef.chars : NodeRef → List Char
  | var name => name.toList
  | node u => u.text.toList

def uidTest (refs : List NodeRef) : List Char :=
  "uid(".toList ++ Quoted.joined ", ".toList (refs.map NodeRef.chars) ++ [')']

def comparison (operator predicate : String) (value : Json) : List Char :=
  operator.toList ++ '(' :: (predicate.toList ++ ", ".toList ++ literal value ++ [')'])

def Root.chars : Root → List Char
  | eq p v => comparison "eq" p v
  | has p => "has(".toList ++ p.toList ++ [')']
  | uid refs => uidTest refs
  | type name => "type(".toList ++ name.toList ++ [')']

mutual

def Filter.chars : Filter → List Char
  | .eq p v => comparison "eq" p v
  | .ge p v => comparison "ge" p v
  | .regex p pattern ignoreCase =>
    "regexp(".toList ++ p.toList ++ ", ".toList ++ Quoted.slashed pattern ++ (if ignoreCase then "i)" else ")").toList
  | .uid refs => uidTest refs
  | .has p => "has(".toList ++ p.toList ++ [')']
  | .and parts => '(' :: (Filter.charsJoined " AND ".toList parts ++ [')'])
  | .or parts => '(' :: (Filter.charsJoined " OR ".toList parts ++ [')'])
  | .not inner => "NOT ".toList ++ Filter.chars inner

def Filter.charsJoined (separator : List Char) : List Filter → List Char
  | [] => []
  | [f] => Filter.chars f
  | f :: fs => Filter.chars f ++ separator ++ Filter.charsJoined separator fs

end

def Root.render (r : Root) : String := String.ofList r.chars

def Filter.render (f : Filter) : String := String.ofList f.chars

def indent (depth : Nat) : List Char := List.replicate (2 * depth) ' '

def Edge.chars (e : Edge) : List Char := if e.reverse then '~' :: e.predicate.toList else e.predicate.toList

def PageArg.chars : PageArg → List Char
  | literal n => Numeral.digits 10 n
  | var name => name.toList

def binding : Option String → List Char
  | some v => v.toList ++ " as ".toList
  | none => []

def filterClause : Option Filter → List Char
  | some f => " @filter(".toList ++ f.chars ++ [')']
  | none => []

mutual

def Traversal.chars (depth : Nat) : Traversal → List Char
  | ⟨edge, filter, bind, children⟩ =>
    indent depth ++ binding bind ++ edge.chars ++ filterClause filter ++
      (if children.isEmpty then ['\n']
       else " \x7b\n".toList ++ Traversal.charsAll (depth + 1) children ++ indent depth ++ "\x7d\n".toList)

def Traversal.charsAll (depth : Nat) : List Traversal → List Char
  | [] => []
  | t :: ts => Traversal.chars depth t ++ Traversal.charsAll depth ts

end

mutual

def Selection.chars (depth : Nat) : Selection → List Char
  | .field label predicate => indent depth ++ label.toList ++ ": ".toList ++ predicate.toList ++ ['\n']
  | .count label => indent depth ++ label.toList ++ ": count(uid)\n".toList
  | .edge label hop selections =>
    indent depth ++ label.toList ++ ": ".toList ++ hop.chars ++ " \x7b\n".toList ++
      Selection.charsAll (depth + 1) selections ++ indent depth ++ "\x7d\n".toList

def Selection.charsAll (depth : Nat) : List Selection → List Char
  | [] => []
  | s :: ss => Selection.chars depth s ++ Selection.charsAll depth ss

end

def flag (b : Bool) : List Char := if b then "true".toList else "false".toList

def orderClause : Option Order → List Char
  | some o => ", order".toList ++ o.direction.name.toList ++ ": ".toList ++ o.predicate.toList
  | none => []

def pageClause (word : String) : Option PageArg → List Char
  | some a => ", ".toList ++ word.toList ++ ": ".toList ++ a.chars
  | none => []

def recursionClause : Option Recursion → List Char
  | some r => " @recurse(depth: ".toList ++ Numeral.digits 10 r.depth ++ ", loop: ".toList ++ flag r.allowLoop ++ [')']
  | none => []

def Block.chars (b : Block) : List Char :=
  indent 1 ++ binding b.bind ++ (b.name.getD "var").toList ++ "(func: ".toList ++ b.root.chars ++
    orderClause b.order ++ pageClause "first" b.first ++ pageClause "offset" b.offset ++ [')'] ++
    recursionClause b.recursion ++ filterClause b.filter ++ " \x7b\n".toList ++
    Traversal.charsAll 2 b.traversals ++ Selection.charsAll 2 b.selections ++ indent 1 ++ "\x7d\n".toList

def paramClause (params : List (String × String)) : List Char :=
  if params.isEmpty then []
  else
    '(' :: (Quoted.joined ", ".toList (params.map fun p => p.1.toList ++ ": ".toList ++ p.2.toList) ++ [')'])

def chars (q : Query) : List Char :=
  "query ".toList ++ q.name.toList ++ paramClause q.params ++ " \x7b\n".toList ++
    q.blocks.flatMap Block.chars ++ ['\x7d']

def render (q : Query) : String := String.ofList q.chars

end Inventory.Query
