import Inventory.Binary64.Rounding
import Inventory.Text.Numeral

/-!
Numbers written in free form: digits around a point that may stand at either end, with or without signs and
an exponent.
-/

namespace Inventory.Binary64

open Text

def takeDigits (cs : List Char) : List Char × List Char :=
  (cs.takeWhile fun c => '0' ≤ c && c ≤ '9', cs.dropWhile fun c => '0' ≤ c && c ≤ '9')

/-- The sign at the head of a text, and what follows it. -/
def takeSign : List Char → Bool × List Char
  | '-' :: cs => (true, cs)
  | '+' :: cs => (false, cs)
  | cs => (false, cs)

/-- An exponent up to the end of the text, or nothing. -/
def readExponent? : List Char → Option Int
  | [] => some 0
  | c :: cs =>
    if c == 'e' || c == 'E' then
      let (negative, ds) := takeSign cs
      (Numeral.read? 10 ds).map fun n => if negative then -(n : Int) else n
    else none

/-- The finite number nearest to what is written. -/
def read? (cs : List Char) : Option Binary64 :=
  let (negative, cs) := takeSign cs
  let (whole, cs) := takeDigits cs
  let (fraction, cs) := match cs with
    | '.' :: r => takeDigits r
    | r => ([], r)
  do
    let n ← Numeral.read? 10 (whole ++ fraction)
    let e ← readExponent? cs
    ofDecimal? negative n (e - fraction.length)

end Inventory.Binary64
