import Inventory.Binary64.Rounding
import Inventory.Text.Numeral

/-!
The decimal text of a floating-point number: the fewest digits that read back, of those the nearest, in one
of two layouts. Every text reads back, because each candidate is read before it is chosen.
-/

namespace Inventory.Binary64

open Text

/-- The decimal `digits * 10 ^ scale`. -/
structure Decimal where
  digits : Nat
  scale : Int
deriving DecidableEq

/-- Which of two decimals at the same distance is taken. -/
inductive Tie
  | toEven
  | away
deriving DecidableEq

/-- The exponent of the first decimal digit of a positive fraction `num / den`. -/
def leadExponent (num den : Nat) : Int :=
  if den ≤ num then ((Numeral.digits 10 (num / den)).length : Int) - 1
  else -((Numeral.digits 10 ((den + num - 1) / num - 1)).length : Int)

/-- The two neighbours of `x` among the multiples of `10 ^ scale`, the nearer one first. -/
def neighbours (tie : Tie) (x : Binary64) (scale : Int) : List Decimal :=
  let num := x.magnitude * Nat.pow 10 (-scale).toNat
  let den := unitsPerOne * Nat.pow 10 scale.toNat
  let below := num / den
  let twice := 2 * (num % den)
  let up := den < twice ∨ (den = twice ∧ (tie = .away ∨ below % 2 = 1))
  if up then [⟨below + 1, scale⟩, ⟨below, scale⟩] else [⟨below, scale⟩, ⟨below + 1, scale⟩]

def readsAs (x : Binary64) (d : Decimal) : Bool := ofDecimal? x.negative d.digits d.scale == some x

/-- All decimal digits of `x`. -/
def exact (x : Binary64) : Decimal := ⟨x.magnitude * Nat.pow 5 1074, -1074⟩

/-- The fewest digits that read back as `x`, of those the nearest to it. -/
def shortest (tie : Tie) (x : Binary64) : Decimal :=
  if x.isZero then ⟨0, 0⟩
  else
    let lead := leadExponent x.magnitude unitsPerOne
    ((List.range 17).findSome? fun (n : Nat) => (neighbours tie x (lead - n)).find? (readsAs x)).getD (exact x)

/-- How a number is laid out: where positional notation ends, and whether a whole number keeps a fraction. -/
structure Layout where
  tie : Tie
  positional : Int → Bool
  wholeFraction : Bool

/-- Numbers in documents: positional from `0.00001` to below `10 ^ 16`, with a fraction always. -/
def Layout.document : Layout := ⟨.toEven, fun e => -5 ≤ e && e ≤ 15, true⟩

/-- Numbers as names and labels: positional always, a whole number without a fraction. -/
def Layout.plain : Layout := ⟨.away, fun _ => true, false⟩

/-- Digits with a decimal point, the first of them standing for `10 ^ lead`. -/
def layPositional (whole : Bool) (ds : List Char) (lead : Int) : List Char :=
  if lead < 0 then '0' :: '.' :: (List.replicate (-lead - 1).toNat '0' ++ ds)
  else
    let point := (lead + 1).toNat
    if ds.length ≤ point then
      ds ++ List.replicate (point - ds.length) '0' ++ (if whole then ['.', '0'] else [])
    else ds.take point ++ '.' :: ds.drop point

/-- Digits with an exponent that always has a sign. -/
def layScientific (ds : List Char) (lead : Int) : List Char :=
  let exponent := (if lead < 0 then '-' else '+') :: Numeral.digits 10 lead.natAbs
  match ds with
  | d :: e :: es => d :: '.' :: e :: es ++ 'e' :: exponent
  | _ => ds ++ 'e' :: exponent

/-- Digits without the zeros at their end, but at least one. -/
def significant (ds : List Char) : List Char :=
  match (ds.reverse.dropWhile (· == '0')).reverse with
  | [] => ['0']
  | kept => kept

def render (l : Layout) (x : Binary64) : String :=
  let d := shortest l.tie x
  let all := Numeral.digits 10 d.digits
  let lead := d.scale + all.length - 1
  let ds := significant all
  let body := if l.positional lead then layPositional l.wholeFraction ds lead else layScientific ds lead
  String.ofList (if x.negative then '-' :: body else body)

end Inventory.Binary64
