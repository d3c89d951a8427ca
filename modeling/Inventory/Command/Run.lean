import Inventory.Admission
import Inventory.Command.Arguments
import Inventory.Command.Files
import Inventory.Failure
import Inventory.Json.Reader
import Inventory.Listing.Request
import Inventory.Query.Text
import Inventory.Schema.Declaration

/-!
What the commands answer. They read documents from files and work on them alone, without a store.
-/

namespace Inventory.Command

open Text

inductive CommandError
  | unreadable (path : String) (error : FileError)
  | emptyFile (path : String)
  /-- The file is no document of the kind that is read from it. -/
  | malformed (path : String)
  | output (reason : String)
  | rejected (f : Failure)

namespace CommandError

def code : CommandError → String
  | unreadable _ _ | emptyFile _ | malformed _ => "EQP_CLI_INPUT_ERROR"
  | output _ => "EQP_CLI_IO_ERROR"
  | rejected _ => "EQP_CLI_REJECTED"

def message : CommandError → String
  | unreadable path e => s!"cannot read {path}: " ++ e.reason
  | emptyFile path => s!"{path}: Empty input"
  | malformed path => s!"{path}: JSON error: not a document of the expected form"
  | output r => r
  | rejected f => f.message ++ " (" ++ f.code ++ ")"

def display (e : CommandError) : String := e.code ++ ": " ++ e.message

end CommandError

/-- How files are read. -/
abbrev ReadFile := String → Except FileError String

def load {α : Type} (ofDocument? : Document → Option α) (path : String) (text : Except FileError String) :
    Except CommandError α :=
  match text with
  | .error e => .error (.unreadable path e)
  | .ok text =>
    if Blank.isAllBlank text then .error (.emptyFile path)
    else
      match (Json.Reader.read? text).bind ofDocument? with
      | some a => .ok a
      | none => .error (.malformed path)

def accept (r : Except Violation Unit) : Except CommandError Unit := r.mapError fun v => .rejected (.violation v)

def statementsField (ss : List Schema.Statement) : String × Json :=
  ("statements", .ofStrings (ss.map Schema.Statement.text))

def defaultPageSize : Nat := 50

/-- The answer to a command. -/
def run (read : ReadFile) : Command → Except CommandError Json
  | .schema none => .ok (.ofFields [statementsField Schema.baseStatements])
  | .schema (some path) => do
    let t ← load EquipmentType.ofDocument? path (read path)
    accept (Admission.checkNames t)
    return .ofFields [statementsField (Schema.Declaration.ofAttributes t.typeName t.attributes).statements,
      ("type_name", .str t.typeName)]
  | .validate path columns existing => do
    let t ← load EquipmentType.ofDocument? path (read path)
    let existing ← match existing with
      | some p => load (Document.list? EquipmentType.ofDocument?) p (read p)
      | none => .ok []
    accept (Admission.checkCreation (.ofList (columns.map Blank.trim)) existing t)
    return .ofFields [("type_name", .str t.typeName), ("valid", .bool true)]
  | .listQuery path spec scopes => do
    let t ← load EquipmentType.ofDocument? path (read path)
    accept (Admission.checkNames t)
    let spec ← match spec with
      | some p => load ListingSpec.ofDocument? p (read p)
      | none => .ok (.new defaultPageSize)
    let request := Listing.list t spec scopes
    return .ofFields [("query", .str request.query.render),
      ("variables", .ofFields (request.vars.entries.map fun (k, v) => (k, .str v)))]

end Inventory.Command
