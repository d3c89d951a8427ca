import Inventory.Text.Numeral
import Inventory.Text.Pieces

/-!
Sets of characters, kept as runs of code points.
-/

namespace Inventory.Text

/-- The first and the last code point of each run, the runs in ascending order and apart from each other. -/
structure CharSet where
  runs : List (Nat × Nat)
deriving DecidableEq

namespace CharSet

def contains (s : CharSet) (c : Char) : Bool := s.runs.any fun r => r.1 ≤ c.toNat && c.toNat ≤ r.2

/-- A run and those after it, in the order of their beginnings; those that overlap or touch are made one. -/
def joinedFrom (a b : Nat) : List (Nat × Nat) → List (Nat × Nat)
  | [] => [(a, b)]
  | (c, d) :: rs => if c ≤ b + 1 then joinedFrom a (max b d) rs else (a, b) :: joinedFrom c d rs

def joined : List (Nat × Nat) → List (Nat × Nat)
  | [] => []
  | (a, b) :: rs => joinedFrom a b rs

def ofRuns (rs : List (Nat × Nat)) : CharSet := ⟨joined (rs.mergeSort fun r q => r.1 ≤ q.1)⟩

def ofCodes (ns : List Nat) : CharSet := ofRuns (ns.map fun n => (n, n))

def insertCode (n : Nat) : List (Nat × Nat) → List (Nat × Nat)
  | [] => [(n, n)]
  | (a, b) :: rs =>
    if n + 1 < a then (n, n) :: (a, b) :: rs
    else if b + 1 < n then (a, b) :: insertCode n rs
    else joinedFrom (min a n) (max b n) rs

/-- A few characters. -/
def ofChars (cs : List Char) : CharSet := ⟨cs.foldr (fun c rs => insertCode c.toNat rs) []⟩

/-- What is left of runs without the code points of others. -/
def without : List (Nat × Nat) → List (Nat × Nat) → List (Nat × Nat)
  | [], _ => []
  | rs, [] => rs
  | (a, b) :: rs, (c, d) :: qs =>
    if d < a then without ((a, b) :: rs) qs
    else if b < c then (a, b) :: without rs ((c, d) :: qs)
    else
      let rest := if b ≤ d then without rs ((c, d) :: qs) else without ((d + 1, b) :: rs) qs
      if a < c then (a, c - 1) :: rest else rest
termination_by rs qs => rs.length + qs.length

instance : Union CharSet := ⟨fun s t => ⟨joined (s.runs.merge t.runs fun r q => r.1 ≤ q.1)⟩⟩

instance : SDiff CharSet := ⟨fun s t => ⟨without s.runs t.runs⟩⟩

instance : Inter CharSet := ⟨fun s t => s \ (s \ t)⟩

/-- All code points but those of surrogates. -/
def all : CharSet := ⟨[(0, 0xD7FF), (0xE000, 0x10FFFF)]⟩

def unions (sets : List CharSet) : CharSet := ofRuns (sets.flatMap (·.runs))

def readRun? (text : List Char) : Option (Nat × Nat) :=
  match cut? ['-'] text with
  | some (first, last) => do return (← Numeral.read? 16 first, ← Numeral.read? 16 last)
  | none => (Numeral.read? 16 text).map fun n => (n, n)

/-- Reads runs in hexadecimal digits, such as `41-5A` and `B5`, with a space between them. -/
def ofText (lines : List String) : CharSet :=
  ⟨lines.flatMap fun line => (pieces ' ' line.toList).filterMap readRun?⟩

end CharSet

end Inventory.Text
