import Inventory.Command.Run
import Inventory.Json.Printer

/-!
The command line over the files of the machine. The answer is one line on standard output.
-/

open Inventory Command

/-- The text of a file, or why there is none. -/
def readText (path : String) : IO (Except FileError String) := do
  try
    let bytes ← IO.FS.readBinFile path
    return match String.fromUTF8? bytes with
      | some text => .ok text
      | none => .error .notText
  catch e =>
    return .error <| match e with
      | .noFileOrDirectory .. => .notFound
      | .permissionDenied .. => .forbidden
      | .inappropriateType _ 21 _ => .isDirectory
      | .invalidArgument _ 36 _ => .nameTooLong
      | .inappropriateType .. => .notDirectory
      | e => .other (toString e)

def printLine (j : Json) : IO Unit := do
  let out ← IO.getStdout
  out.putStrLn j.render
  out.flush

def usage : String :=
  "usage: schema [--definition FILE]\n" ++
  "       validate --definition FILE --columns NAME,... [--existing FILE]\n" ++
  "       list-query --definition FILE [--spec FILE] --scope NAME ..."

def main (args : List String) : IO UInt32 := do
  match parse? args with
  | none =>
    IO.eprintln usage
    return 2
  | some command =>
    let texts ← command.paths.mapM fun p => return (p, ← readText p)
    match run (fun p => (texts.lookup p).getD (.error .notFound)) command with
    | .ok data =>
      printLine (.ofFields [("status", .str "ok"), ("data", data)])
      return 0
    | .error e =>
      printLine (.ofFields [("status", .str "error"), ("code", .str e.code), ("message", .str e.message)])
      IO.eprintln e.display
      return 1
