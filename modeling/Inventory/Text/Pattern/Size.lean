import Inventory.Text.Pattern
import Inventory.Text.Utf8

/-!
The size of a pattern: the memory of the automaton that finds its matches from their ends backwards, byte by byte.
A pattern that takes more than ten mebibytes is none.
-/

namespace Inventory.Text.Pattern

/-- What an automaton is made of: its states, the ways to choose from in those that only choose, and the ranges of
bytes that lead on from those that read one of several. -/
structure Size where
  states : Nat
  branches : Nat
  ranges : Nat

def Size.bytes (n : Size) : Nat := 32 * n.states + 4 * n.branches + 8 * n.ranges

def Size.limit : Nat := 10 * 1024 * 1024

/-- States that read a byte of a range are shared, as far as they are remembered: a thousand places hold one state
each, known by the state it leads to and the range. -/
structure Shared where
  /-- The number of states so far, and so the number of the next one. -/
  states : Nat
  places : Array (Option (Nat × Nat))

namespace Shared

def mix (h : UInt64) (n : Nat) : UInt64 := (h ^^^ n.toUInt64) * 1099511628211

def placeOf (next : Nat) (r : Nat × Nat) : Nat :=
  (mix (mix (mix 14695981039346656037 next) r.1) r.2 % 1000).toNat

/-- One number for a state and a range of bytes. -/
def keyOf (next : Nat) (r : Nat × Nat) : Nat := (next * 256 + r.1) * 256 + r.2

/-- The state of a key: the one remembered at a place, or a new one, which takes the place of what was remembered. -/
def lookUp : Shared → Nat → Nat → Shared × Nat
  | ⟨states, places⟩, i, key =>
    match places.getD i none with
    | some (known, state) =>
      if known = key then (⟨states, places⟩, state)
      else (⟨states + 1, places.set! i (some (key, states))⟩, states)
    | none => (⟨states + 1, places.set! i (some (key, states))⟩, states)

/-- The state by which a range leads to a given one. -/
def readRange : Shared × Nat → Nat × Nat → Shared × Nat
  | (m, next), r => m.lookUp (placeOf next r) (keyOf next r)

/-- The states by which some ranges, one after the other, lead to a given state. -/
def read (m : Shared) (next : Nat) (rs : List (Nat × Nat)) : Shared := (rs.foldl readRange (m, next)).1

end Shared

/-- The characters of a set: one is written out, few of one byte are ranges of one state, and others are told apart
byte by byte, the last byte leading to the state where all have been read. -/
def Size.addSet (n : Size) (s : CharSet) : Size :=
  let sequences := s.runs.flatMap fun r => Utf8.byteRanges r.1 r.2
  if s.runs.all fun r => r.2 < 0x80 then
    ⟨n.states + 2, n.branches, n.ranges + s.runs.length⟩
  else
    let start : Shared := ⟨n.states + 2, Array.replicate 1000 none⟩
    let all := sequences.foldl (fun m sequence => m.read (n.states + 1) sequence) start
    ⟨all.states, n.branches + sequences.length, n.ranges⟩

def Size.addChar (n : Size) (c : Char) : Size := ⟨n.states + c.utf8Size, n.branches, n.ranges⟩

def Size.addToken (ignoreCase : Bool) (n : Size) : Token → Size
  | .char c =>
    match LetterCase.variants c with
    | [_] => n.addChar c
    | cs => if ignoreCase then n.addSet (.ofChars cs) else n.addChar c
  | .oneOf s =>
    match s.runs with
    | [(a, b)] => if a = b then n.addChar (Char.ofNat a) else n.addSet s
    | _ => n.addSet s
  | .place _ => ⟨n.states + 1, n.branches, n.ranges⟩

def Token.isPlace : Token → Bool
  | place _ => true
  | _ => false

/-- Where every match ends with the text, no state is needed that skips what is after it. -/
def Size.empty (ts : List Token) : Size :=
  if (ts.reverse.takeWhile Token.isPlace).contains (.place .finish) then ⟨1, 0, 0⟩ else ⟨3, 1, 1⟩

/-- Whether the size stays within the limit, with tokens that are added to it in their order. -/
def Size.fits (ignoreCase : Bool) : Size → List Token → Bool
  | n, [] => (Size.mk (n.states + 1) (n.branches + 1) n.ranges).bytes ≤ limit
  | n, t :: ts => n.bytes ≤ limit && (n.addToken ignoreCase t).fits ignoreCase ts

/-- The tokens of a pattern that is not too large. -/
def compile? (ignoreCase : Bool) (pattern : List Char) : Option (List Token) :=
  (parse? ignoreCase pattern).filter fun ts => (Size.empty ts).fits ignoreCase ts.reverse

end Inventory.Text.Pattern
