import Inventory.Text.Pieces

/-!
The command line: a command, and options that each take a value.
-/

namespace Inventory

inductive Command
  /-- The statements that declare a type, or those that every store starts from. -/
  | schema (definition : Option String)
  /-- Whether a type over some columns is admitted beside existing ones. -/
  | validate (definition : String) (columns : List String) (existing : Option String)
  /-- The query of a listing. -/
  | listQuery (definition : String) (spec : Option String) (scopes : List String)
deriving DecidableEq

namespace Command

/-- The files that a command names. -/
def paths : Command → List String
  | .schema definition => definition.toList
  | .validate definition _ existing => definition :: existing.toList
  | .listQuery definition spec _ => definition :: spec.toList

/-- An option's name and value: both in one argument around `=`, or in two. -/
abbrev Setting := String × String

/-- Splits at the first `=`. -/
def splitAtEquals (cs : List Char) : String × Option String :=
  (String.ofList (cs.takeWhile (· ≠ '=')),
    match cs.dropWhile (· ≠ '=') with
    | [] => none
    | _ :: value => some (String.ofList value))

/-- An argument by itself that can be a value: one that does not look like an option. -/
def isValue (s : String) : Bool :=
  match s.toList with
  | '-' :: _ :: _ => false
  | _ => true

/-- The options among some names that arguments set. A final `--` ends the options and says nothing more. -/
def settings? (names : List String) : List String → Option (List Setting)
  | [] => some []
  | a :: rest =>
    match a.toList with
    | ['-', '-'] => if rest.isEmpty then some [] else none
    | '-' :: '-' :: cs =>
      match splitAtEquals cs, rest with
      | (name, some value), rest =>
        if names.contains name then (settings? names rest).map ((name, value) :: ·) else none
      | (name, none), value :: rest =>
        if names.contains name && isValue value then (settings? names rest).map ((name, value) :: ·) else none
      | (_, none), [] => none
    | _ => none

def valuesOf (name : String) (ss : List Setting) : List String := (ss.filter (·.1 == name)).map (·.2)

/-- A path that may be given once, and is not empty. -/
def path? (name : String) (ss : List Setting) : Option (Option String) :=
  match valuesOf name ss with
  | [] => some none
  | [p] => if p = "" then none else some (some p)
  | _ => none

/-- Values of which there is at least one. -/
def some? (name : String) (ss : List Setting) : Option (List String) :=
  match valuesOf name ss with
  | [] => none
  | vs => some vs

/-- The command of a command line, if there is one to run. -/
def parse? : List String → Option Command
  | "schema" :: args => do
    let ss ← settings? ["definition"] args
    return .schema (← path? "definition" ss)
  | "validate" :: args => do
    let ss ← settings? ["definition", "columns", "existing"] args
    let definition ← (← path? "definition" ss)
    let columns ← some? "columns" ss
    return .validate definition (columns.flatMap (Text.splitOn ',')) (← path? "existing" ss)
  | "list-query" :: args => do
    let ss ← settings? ["definition", "spec", "scope"] args
    let definition ← (← path? "definition" ss)
    return .listQuery definition (← path? "spec" ss) (← some? "scope" ss)
  | _ => none

end Command

end Inventory
