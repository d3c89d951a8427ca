import Inventory.Text.Numeral

/-!
Points in time, in seconds since the beginning of 1970, and their text in universal time.
-/

namespace Inventory.Timestamp

open Text

/-- Year, month and day of a day counted from the beginning of 1970. Years are taken to begin in March and
grouped by 400, so that the leap day is the last day of its year. -/
def civil (day : Int) : Int × Nat × Nat :=
  let z := day + 719468
  let era := z.fdiv 146097
  let doe := (z.fmod 146097).toNat
  let yoe := (doe - doe / 1460 + doe / 36524 - doe / 146096) / 365
  let doy := doe - (365 * yoe + yoe / 4 - yoe / 100)
  let mp := (5 * doy + 2) / 153
  let month := if mp < 10 then mp + 3 else mp - 9
  (yoe + era * 400 + (if month ≤ 2 then 1 else 0), month, doy - (153 * mp + 2) / 5 + 1)

def padded (width n : Nat) : List Char :=
  let ds := Numeral.digits 10 n
  List.replicate (width - ds.length) '0' ++ ds

/-- Years of four digits, with a sign before year 0 and after year 9999. -/
def yearChars (y : Int) : List Char :=
  if 0 ≤ y ∧ y ≤ 9999 then padded 4 y.toNat
  else (if y < 0 then '-' else '+') :: padded 4 y.natAbs

/-- A date and a time of day to the second, in universal time. -/
def render (seconds : Int) : String :=
  let (year, month, day) := civil (seconds.fdiv 86400)
  let s := (seconds.fmod 86400).toNat
  String.ofList (yearChars year ++ '-' :: padded 2 month ++ '-' :: padded 2 day ++ 'T' :: padded 2 (s / 3600) ++
    ':' :: padded 2 (s / 60 % 60) ++ ':' :: padded 2 (s % 60) ++ ['Z'])

end Inventory.Timestamp
