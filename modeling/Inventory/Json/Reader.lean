import Inventory.Binary64.Scaling
import Inventory.Json.Document
import Inventory.Text.Numeral

/-!
Reading the text of a document. Nothing but blanks may surround it.
-/

namespace Inventory.Json.Reader

open Text

def isSpace (c : Char) : Bool := c == ' ' || c == '\n' || c == '\t' || c == '\r'

def skipSpace (cs : List Char) : List Char := cs.dropWhile isSpace

/-- A character of a string, or half of a surrogate pair written as an escape. -/
inductive Piece
  | char (c : Char)
  | half (unit : Nat)

def isHigh (unit : Nat) : Bool := 0xD800 ≤ unit && unit < 0xDC00

def isLow (unit : Nat) : Bool := 0xDC00 ≤ unit && unit < 0xE000

/-- Joins a high and the low half after it; any other half has no character. -/
def joinPieces : List Piece → Option (List Char)
  | [] => some []
  | .char c :: ps => (joinPieces ps).map (c :: ·)
  | .half h :: .half l :: ps =>
    if isHigh h && isLow l then
      (joinPieces ps).map (Char.ofNat (0x10000 + (h - 0xD800) * 0x400 + (l - 0xDC00)) :: ·)
    else none
  | .half _ :: _ => none

def ofUnit (unit : Nat) : Piece := if isHigh unit || isLow unit then .half unit else .char (Char.ofNat unit)

def simpleEscape? : Char → Option Char
  | '"' => some '"'
  | '\\' => some '\\'
  | '/' => some '/'
  | 'b' => some '\x08'
  | 'f' => some '\x0c'
  | 'n' => some '\n'
  | 'r' => some '\r'
  | 't' => some '\t'
  | _ => none

/-- The pieces up to the closing quote, and what follows it. -/
def pieces : List Char → Option (List Piece × List Char)
  | [] => none
  | '"' :: cs => some ([], cs)
  | '\\' :: 'u' :: a :: b :: c :: d :: cs => do
    let unit ← Numeral.readOnto 16 0 [a, b, c, d]
    let (ps, rest) ← pieces cs
    return (ofUnit unit :: ps, rest)
  | '\\' :: e :: cs => do
    let c ← simpleEscape? e
    let (ps, rest) ← pieces cs
    return (.char c :: ps, rest)
  | c :: cs =>
    if c.toNat < 0x20 || c == '\\' then none
    else do
      let (ps, rest) ← pieces cs
      return (.char c :: ps, rest)

/-- A string after its opening quote. -/
def string (cs : List Char) : Option (Option String × List Char) :=
  (pieces cs).map fun (ps, rest) => ((joinPieces ps).map String.ofList, rest)

def isDigit (c : Char) : Bool := '0' ≤ c && c ≤ '9'

/-- One or more digits. -/
def someDigits (cs : List Char) : Option (List Char × List Char) :=
  match cs.takeWhile isDigit with
  | [] => none
  | ds => some (ds, cs.dropWhile isDigit)

/-- One digit, or several of which the first is not zero. -/
def wholeDigits (cs : List Char) : Option (List Char × List Char) :=
  match someDigits cs with
  | some ('0' :: _ :: _, _) => none
  | r => r

def fractionDigits : List Char → Option (List Char × List Char)
  | '.' :: cs => someDigits cs
  | cs => some ([], cs)

def exponent : List Char → Option (Option Int × List Char)
  | c :: cs =>
    if c == 'e' || c == 'E' then
      let (negative, ds) := match cs with
        | '+' :: r => (false, r)
        | '-' :: r => (true, r)
        | r => (false, r)
      (someDigits ds).bind fun (ds, rest) =>
        (Numeral.read? 10 ds).map fun n => (some (if negative then -(n : Int) else n), rest)
    else some (none, c :: cs)
  | [] => some (none, [])

/-- Reads digits onto `n` as long as it has at most 64 bits. The digits from the first one on that does not fit are
left. -/
def gather : Nat → List Char → Nat × List Char
  | n, [] => (n, [])
  | n, c :: cs =>
    match Numeral.digitOf? 10 c with
    | some d => if n * 10 + d < 1 <<< 64 then gather (n * 10 + d) cs else (n, c :: cs)
    | none => (n, c :: cs)

/-- A floating-point number is read from the digits that 64 bits hold, and scaled. -/
def approximate? (negative : Bool) (whole fraction : List Char) (exp : Int) : Option Binary64 :=
  let (n, left) := gather 0 whole
  let (n, dropped) := gather n fraction
  let scale : Int := left.length - (fraction.length - dropped.length : Nat)
  ((Binary64.ofInt n).scale? (scale + exp)).map (Binary64.withSign negative)

/-- An integer without a sign of its own has 64 bits, one with a sign has 64 bits in two's complement; beyond
that, and for negative zero, the number is a floating-point one. -/
def wholeNumber (negative : Bool) (whole : List Char) : Option Number :=
  (Numeral.read? 10 whole).bind fun n =>
    if negative then
      if n ≠ 0 ∧ Bits.isSigned 64 (-(n : Int)) then some (.int (-(n : Int)))
      else (approximate? true whole [] 0).map .float
    else if Bits.isUnsigned 64 n then some (.int n)
    else (approximate? false whole [] 0).map .float

def makeNumber (negative : Bool) (whole fraction : List Char) (exp : Option Int) : Option Number :=
  if fraction.isEmpty && exp.isNone then wholeNumber negative whole
  else (approximate? negative whole fraction (exp.getD 0)).map .float

def number (negative : Bool) (cs : List Char) : Option (Option Number × List Char) := do
  let (whole, cs) ← wholeDigits cs
  let (fraction, cs) ← fractionDigits cs
  let (exp, cs) ← exponent cs
  return (makeNumber negative whole fraction exp, cs)

mutual

/-- A document at the head of a text. The count bounds the steps; twice the length of the text is enough. -/
def value : Nat → List Char → Option (Document × List Char)
  | 0, _ => none
  | fuel + 1, cs =>
    match skipSpace cs with
    | 'n' :: 'u' :: 'l' :: 'l' :: cs => some (.null, cs)
    | 't' :: 'r' :: 'u' :: 'e' :: cs => some (.bool true, cs)
    | 'f' :: 'a' :: 'l' :: 's' :: 'e' :: cs => some (.bool false, cs)
    | '"' :: cs => (string cs).map fun (s, rest) => (.str s, rest)
    | '[' :: cs =>
      match skipSpace cs with
      | ']' :: cs => some (.arr [], cs)
      | cs => (items fuel cs).map fun (ds, rest) => (.arr ds, rest)
    | '\x7b' :: cs =>
      match skipSpace cs with
      | '\x7d' :: cs => some (.obj [], cs)
      | cs => (fields fuel cs).map fun (fs, rest) => (.obj fs, rest)
    | '-' :: cs => (number true cs).map fun (n, rest) => (.num n, rest)
    | cs => (number false cs).map fun (n, rest) => (.num n, rest)

/-- The items up to the closing bracket. -/
def items : Nat → List Char → Option (List Document × List Char)
  | 0, _ => none
  | fuel + 1, cs => do
    let (d, cs) ← value fuel cs
    match skipSpace cs with
    | ']' :: cs => return ([d], cs)
    | ',' :: cs =>
      let (ds, rest) ← items fuel cs
      return (d :: ds, rest)
    | _ => none

/-- The fields up to the closing brace. -/
def fields : Nat → List Char → Option (List (Option String × Document) × List Char)
  | 0, _ => none
  | fuel + 1, cs =>
    match skipSpace cs with
    | '"' :: cs => do
      let (k, cs) ← string cs
      match skipSpace cs with
      | ':' :: cs =>
        let (d, cs) ← value fuel cs
        match skipSpace cs with
        | '\x7d' :: cs => return ([(k, d)], cs)
        | ',' :: cs =>
          let (fs, rest) ← fields fuel cs
          return ((k, d) :: fs, rest)
        | _ => none
      | _ => none
    | _ => none

end

def readChars? (cs : List Char) : Option Document :=
  match value (2 * cs.length + 2) cs with
  | some (d, rest) => if (skipSpace rest).isEmpty then some d else none
  | none => none

/-- The document that a text is. -/
def read? (text : String) : Option Document := readChars? text.toList

end Inventory.Json.Reader
