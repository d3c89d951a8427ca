import Inventory.Text.Property.Name

/-!
Patterns made of characters, of what a backslash makes of the characters after it, and of the ends of the text,
and the texts that hold a match.
-/

namespace Inventory.Text.Pattern

/-- A place in a text, told by the characters on its two sides. -/
inductive Place
  | start
  | finish
  /-- Between a character of a word and one that is none, or the end of the text. -/
  | wordEdge
  | noWordEdge
  | wordStart
  | wordEnd
  /-- Where no word goes on from before. -/
  | wordStartHalf
  /-- Where no word goes on. -/
  | wordEndHalf
deriving DecidableEq

namespace Place

def isWordChar (c : Char) : Bool := Property.word.contains c

def holds (before after : Option Char) : Place → Bool
  | start => before.isNone
  | finish => after.isNone
  | wordEdge => before.any isWordChar != after.any isWordChar
  | noWordEdge => before.any isWordChar == after.any isWordChar
  | wordStart => !before.any isWordChar && after.any isWordChar
  | wordEnd => before.any isWordChar && !after.any isWordChar
  | wordStartHalf => !before.any isWordChar
  | wordEndHalf => !after.any isWordChar

/-- The places whose names stand in braces. -/
def named : List (String × Place) :=
  [("start", wordStart), ("end", wordEnd), ("start-half", wordStartHalf), ("end-half", wordEndHalf)]

end Place

inductive Token
  | char (c : Char)
  | oneOf (s : CharSet)
  | place (p : Place)
deriving DecidableEq

/-- Characters with a meaning of their own that these patterns do not have. -/
def unsupported : List Char := ['.', '+', '*', '?', '(', ')', '|', '[', '\x7b']

/-- What a backslash makes of one character: signs stand for themselves, and letters for control characters, places
and sets of characters. -/
def escaped? (c : Char) : Option Token :=
  match c with
  | 'a' => some (.char '\x07')
  | 'f' => some (.char '\x0c')
  | 't' => some (.char '\t')
  | 'n' => some (.char '\n')
  | 'r' => some (.char '\r')
  | 'v' => some (.char '\x0b')
  | 'A' => some (.place .start)
  | 'z' => some (.place .finish)
  | 'b' => some (.place .wordEdge)
  | 'B' => some (.place .noWordEdge)
  | '<' => some (.place .wordStart)
  | '>' => some (.place .wordEnd)
  | 'd' => some (.oneOf Property.digit)
  | 'D' => some (.oneOf (.all \ Property.digit))
  | 's' => some (.oneOf Property.whiteSpace)
  | 'S' => some (.oneOf (.all \ Property.whiteSpace))
  | 'w' => some (.oneOf Property.word)
  | 'W' => some (.oneOf (.all \ Property.word))
  | c => if c.toNat < 128 && !c.isAlphanum then some (.char c) else none

/-- The character of a code in hexadecimal digits. -/
def ofCode? (digits : List Char) : Option Char :=
  (Numeral.read? 16 digits).bind fun n => if n.isValidChar then some (Char.ofNat n) else none

/-- A code in braces, or of so many digits. -/
def code? (size : Nat) : List Char → Option (Token × List Char)
  | '\x7b' :: cs => (cut? ['\x7d'] cs).bind fun (digits, rest) => (ofCode? digits).map fun c => (.char c, rest)
  | cs => if cs.length < size then none else (ofCode? (cs.take size)).map fun c => (.char c, cs.drop size)

/-- The characters that differ at most in case from some of a set, or those that differ in more from all of it. -/
def selected (ignoreCase negated : Bool) (s : CharSet) : CharSet :=
  let s := if ignoreCase then LetterCase.closure s else s
  if negated then .all \ s else s

/-- A set named in braces or by one letter. -/
def property? (ignoreCase negated : Bool) : List Char → Option (Token × List Char)
  | '\x7b' :: cs =>
    (cut? ['\x7d'] cs).bind fun (query, rest) =>
      (Property.ofQuery? query).map fun (s, opposite) => (.oneOf (selected ignoreCase (negated != opposite) s), rest)
  | c :: cs =>
    if c = '\\' then none else (Property.ofName? [c]).map fun s => (.oneOf (selected ignoreCase negated s), cs)
  | [] => none

/-- What follows a backslash, and the rest of the pattern. -/
def escape? (ignoreCase : Bool) : List Char → Option (Token × List Char)
  | 'x' :: cs => code? 2 cs
  | 'u' :: cs => code? 4 cs
  | 'U' :: cs => code? 8 cs
  | 'p' :: cs => property? ignoreCase false cs
  | 'P' :: cs => property? ignoreCase true cs
  | 'b' :: '\x7b' :: cs =>
    (cut? ['\x7d'] cs).bind fun (name, rest) =>
      (Place.named.lookup (String.ofList name)).map fun p => (.place p, rest)
  | c :: cs => (escaped? c).map (·, cs)
  | [] => none

theorem length_of_code? {size : Nat} {cs rest : List Char} {t : Token} (h : code? size cs = some (t, rest)) :
    rest.length ≤ cs.length := by
  unfold code? at h
  split at h
  · obtain ⟨⟨digits, after⟩, hc, h⟩ := Option.bind_eq_some_iff.1 h
    obtain ⟨c, _, he⟩ := Option.map_eq_some_iff.1 h
    cases he
    exact Nat.le_succ_of_le (length_of_cut? hc)
  · split at h
    · cases h
    · obtain ⟨c, _, he⟩ := Option.map_eq_some_iff.1 h
      cases he
      exact List.length_drop ▸ Nat.sub_le _ _

theorem length_of_property? {ignoreCase negated : Bool} {cs rest : List Char} {t : Token}
    (h : property? ignoreCase negated cs = some (t, rest)) : rest.length ≤ cs.length := by
  unfold property? at h
  split at h
  · obtain ⟨⟨query, after⟩, hc, h⟩ := Option.bind_eq_some_iff.1 h
    obtain ⟨p, _, he⟩ := Option.map_eq_some_iff.1 h
    cases he
    exact Nat.le_succ_of_le (length_of_cut? hc)
  · split at h
    · cases h
    · obtain ⟨p, _, he⟩ := Option.map_eq_some_iff.1 h
      cases he
      exact Nat.le_succ _
  · cases h

theorem length_of_escape? {ignoreCase : Bool} {cs rest : List Char} {t : Token}
    (h : escape? ignoreCase cs = some (t, rest)) : rest.length ≤ cs.length := by
  unfold escape? at h
  split at h
  · exact Nat.le_succ_of_le (length_of_code? h)
  · exact Nat.le_succ_of_le (length_of_code? h)
  · exact Nat.le_succ_of_le (length_of_code? h)
  · exact Nat.le_succ_of_le (length_of_property? h)
  · exact Nat.le_succ_of_le (length_of_property? h)
  · obtain ⟨⟨name, after⟩, hc, h⟩ := Option.bind_eq_some_iff.1 h
    obtain ⟨p, _, he⟩ := Option.map_eq_some_iff.1 h
    cases he
    exact Nat.le_succ_of_le (Nat.le_succ_of_le (length_of_cut? hc))
  · obtain ⟨t, _, he⟩ := Option.map_eq_some_iff.1 h
    cases he
    exact Nat.le_succ _
  · cases h

def parse? (ignoreCase : Bool) : List Char → Option (List Token)
  | [] => some []
  | '\\' :: cs =>
    match _h : escape? ignoreCase cs with
    | some (t, rest) => (parse? ignoreCase rest).map (t :: ·)
    | none => none
  | '^' :: cs => (parse? ignoreCase cs).map (.place .start :: ·)
  | '$' :: cs => (parse? ignoreCase cs).map (.place .finish :: ·)
  | c :: cs => if unsupported.contains c then none else (parse? ignoreCase cs).map (.char c :: ·)
termination_by pattern => pattern.length
decreasing_by
  · exact Nat.lt_succ_of_le (length_of_escape? ‹_›)
  all_goals exact Nat.lt_succ_self _

def Token.matchesChar (ignoreCase : Bool) (c : Char) : Token → Bool
  | char d => if ignoreCase then LetterCase.sameFolded d c else d == c
  | oneOf s => s.contains c
  | place _ => false

/-- A match at a place in a text, with the character before it and what is left after it. -/
def matchesHere (ignoreCase : Bool) : List Token → Option Char → List Char → Bool
  | [], _, _ => true
  | .place p :: ts, before, cs => p.holds before cs.head? && matchesHere ignoreCase ts before cs
  | _ :: _, _, [] => false
  | t :: ts, _, c :: cs => t.matchesChar ignoreCase c && matchesHere ignoreCase ts (some c) cs

def found (ignoreCase : Bool) (ts : List Token) : Option Char → List Char → Bool
  | before, [] => matchesHere ignoreCase ts before []
  | before, c :: cs => matchesHere ignoreCase ts before (c :: cs) || found ignoreCase ts (some c) cs

/-- A match anywhere in a text. -/
def isMatch (ignoreCase : Bool) (ts : List Token) (s : String) : Bool := found ignoreCase ts none s.toList

end Inventory.Text.Pattern
