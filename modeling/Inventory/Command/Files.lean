import Inventory.Text.Pieces

/-!
The files of a machine, read by path.
-/

namespace Inventory.Command

/-- Why a file cannot be read as text. -/
inductive FileError
  | notFound
  | isDirectory
  | notDirectory
  | nameTooLong
  | nulInName
  | forbidden
  | notText
  | other (reason : String)
deriving DecidableEq

def FileError.reason : FileError → String
  | notFound => "No such file or directory (os error 2)"
  | isDirectory => "Is a directory (os error 21)"
  | notDirectory => "Not a directory (os error 20)"
  | nameTooLong => "File name too long (os error 36)"
  | nulInName => "file name contained an unexpected NUL byte"
  | forbidden => "Permission denied (os error 13)"
  | notText => "stream did not contain valid UTF-8"
  | other r => r

/-- A file's text, or nothing if it is not text. -/
abbrev Contents := Option String

/-- Directories and files by the names on the way from the root. A file's name makes the directories that it
passes through. -/
structure Files where
  directories : List (List String)
  files : List (List String × Contents)
  /-- Where paths start that do not start at the root. -/
  current : List String

namespace Files

/-- The directories under the root of every machine. -/
def systemDirectories : List String :=
  ["bin", "dev", "etc", "home", "lib", "opt", "proc", "root", "run", "sbin", "srv", "sys", "tmp", "usr", "var"]

/-- A machine on which a directory holds some files and nothing else does, but for the empty device. -/
def ofDirectory (files : List (List String × Contents)) : Files :=
  let current := ["tmp", "inventory"]
  { directories := current :: systemDirectories.map ([·])
    files := (["dev", "null"], some "") :: files.map fun (names, c) => (current ++ names, c)
    current }

def file? (fs : Files) (path : List String) : Option Contents := fs.files.lookup path

def isDirectory (fs : Files) (path : List String) : Bool :=
  fs.directories.any path.isPrefixOf || fs.files.any fun f => path.isPrefixOf f.1 && path != f.1

/-- The most bytes of a name. -/
def maxName : Nat := 255

/-- The most bytes of a path. -/
def maxPath : Nat := 4095

/-- Where the names of a path lead from a directory. The root is its own parent. -/
def resolve (fs : Files) : List String → List String → Except FileError (List String)
  | at_, [] => .ok at_
  | at_, name :: names =>
    if (fs.file? at_).isSome then .error .notDirectory
    else if name = "" || name = "." then fs.resolve at_ names
    else if name = ".." then fs.resolve at_.dropLast names
    else if maxName < name.utf8ByteSize then .error .nameTooLong
    else
      let next := at_ ++ [name]
      if (fs.file? next).isSome || fs.isDirectory next then fs.resolve next names else .error .notFound

/-- The text of a file. -/
def read (fs : Files) (path : String) : Except FileError String := do
  if path.toList.contains '\x00' then throw .nulInName
  if maxPath < path.utf8ByteSize then throw .nameTooLong
  let start := if path.startsWith "/" then [] else fs.current
  match fs.file? (← fs.resolve start (Text.splitOn '/' path)) with
  | some (some text) => .ok text
  | some none => .error .notText
  | none => .error .isDirectory

end Files

end Inventory.Command
