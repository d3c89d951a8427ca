import Inventory.Text.CharSet

/-!
The bytes of characters in UTF-8, for runs of characters at once.
-/

namespace Inventory.Text.Utf8

/-- The characters that are written with `extra` bytes after the leading one, to which `mark` is added. -/
structure Form where
  extra : Nat
  first : Nat
  last : Nat
  mark : Nat

def forms : List Form :=
  [⟨0, 0, 0x7F, 0⟩, ⟨1, 0x80, 0x7FF, 0xC0⟩, ⟨2, 0x800, 0xD7FF, 0xE0⟩, ⟨2, 0xE000, 0xFFFF, 0xE0⟩,
   ⟨3, 0x10000, 0x10FFFF, 0xF0⟩]

/-- The bytes of the numbers from `a` to `b` written in base 64, a leading digit with `mark` added to it and `extra`
digits with 0x80, as sequences of ranges: the bytes of each vary on their own. -/
def digitRanges : Nat → Nat → Nat → Nat → List (List (Nat × Nat))
  | 0, mark, a, b => [[(a + mark, b + mark)]]
  | extra + 1, mark, a, b =>
    let block := 1 <<< (6 * (extra + 1))
    let (first, last) := (a / block, b / block)
    if first = last then (digitRanges extra 0x80 (a % block) (b % block)).map ((first + mark, first + mark) :: ·)
    else
      let startsWhole := a % block = 0
      let endsWhole := b % block = block - 1
      let low := if startsWhole then first else first + 1
      let high := if endsWhole then last else last - 1
      (if startsWhole then []
        else (digitRanges extra 0x80 (a % block) (block - 1)).map ((first + mark, first + mark) :: ·)) ++
        (if low ≤ high then [(low + mark, high + mark) :: List.replicate (extra + 1) (0x80, 0xBF)] else []) ++
        (if endsWhole then []
          else (digitRanges extra 0x80 0 (b % block)).map ((last + mark, last + mark) :: ·))

/-- The bytes of the characters from `a` to `b`, as sequences of ranges in ascending order. -/
def byteRanges (a b : Nat) : List (List (Nat × Nat)) :=
  (forms.filter fun f => a ≤ f.last && f.first ≤ b).flatMap fun f =>
    digitRanges f.extra f.mark (max a f.first) (min b f.last)

end Inventory.Text.Utf8
