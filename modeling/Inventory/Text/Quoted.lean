/-!
Quoted texts and delimited patterns, as they stand in queries.
-/

namespace Inventory.Text.Quoted

def encodeChar (c : Char) : List Char :=
  match c with
  | '"' => ['\\', '"']
  | '\\' => ['\\', '\\']
  | '\n' => ['\\', 'n']
  | '\r' => ['\\', 'r']
  | '\t' => ['\\', 't']
  | c => [c]

def encode (cs : List Char) : List Char := cs.flatMap encodeChar

/-- A text between quotes. -/
def quoted (s : String) : List Char := '"' :: (encode s.toList ++ ['"'])

/-- A pattern between slashes, each slash in it behind a backslash. -/
def slashed (pattern : String) : List Char :=
  '/' :: (pattern.toList.flatMap (fun c => if c = '/' then ['\\', '/'] else [c]) ++ ['/'])

/-- The items of a list with a separator between them. -/
def joined (separator : List Char) : List (List Char) → List Char
  | [] => []
  | [x] => x
  | x :: xs => x ++ separator ++ joined separator xs

end Inventory.Text.Quoted
