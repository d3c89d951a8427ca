import Inventory.Json.Basic
import Inventory.Binary64.Shortest

/-!
Values as compact text, with the fields of an object in the order of their keys.
-/

namespace Inventory.Json

open Text

def lowHex (n : Nat) : List Char := ['0', '0', Numeral.digitChar (n / 16), Numeral.digitChar (n % 16)]

/-- Quotes, backslashes and control characters are escaped, and nothing else. -/
def escapeChar (c : Char) : List Char :=
  match c with
  | '"' => ['\\', '"']
  | '\\' => ['\\', '\\']
  | '\x08' => ['\\', 'b']
  | '\x0c' => ['\\', 'f']
  | '\n' => ['\\', 'n']
  | '\r' => ['\\', 'r']
  | '\t' => ['\\', 't']
  | c => if c.toNat < 0x20 then '\\' :: 'u' :: lowHex c.toNat else [c]

def renderString (s : String) : List Char := '"' :: (s.toList.flatMap escapeChar ++ ['"'])

end Json

def Number.render : Number → String
  | .int i => Text.Numeral.signed i
  | .float x => x.render .document

namespace Json

mutual

def renderChars : Json → List Char
  | null => ['n', 'u', 'l', 'l']
  | bool true => ['t', 'r', 'u', 'e']
  | bool false => ['f', 'a', 'l', 's', 'e']
  | num n => n.render.toList
  | str s => renderString s
  | arr items => '[' :: (renderItems items ++ [']'])
  | obj fields => '\x7b' :: (renderFields fields ++ ['\x7d'])

def renderItems : List Json → List Char
  | [] => []
  | [j] => renderChars j
  | j :: js => renderChars j ++ ',' :: renderItems js

def renderFields : List (String × Json) → List Char
  | [] => []
  | [(k, j)] => renderString k ++ ':' :: renderChars j
  | (k, j) :: js => renderString k ++ ':' :: (renderChars j ++ ',' :: renderFields js)

end

def render (j : Json) : String := String.ofList j.renderChars

end Inventory.Json
