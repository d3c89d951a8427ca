/-!
Texts taken apart at a separator.
-/

namespace Inventory.Text

/-- The pieces between separators, of which there is always one. -/
def pieces (separator : Char) : List Char → List (List Char)
  | [] => [[]]
  | c :: cs =>
    match pieces separator cs with
    | p :: ps => if c = separator then [] :: p :: ps else (c :: p) :: ps
    | [] => [[c]]

/-- What stands before and after the first place where the characters of `mark` follow each other. -/
def cut? (mark : List Char) : List Char → Option (List Char × List Char)
  | [] => none
  | c :: cs =>
    if mark.isPrefixOf (c :: cs) then some ([], (c :: cs).drop mark.length)
    else (cut? mark cs).map fun (before, after) => (c :: before, after)

theorem length_of_cut? {mark cs before after : List Char} (h : cut? mark cs = some (before, after)) :
    after.length ≤ cs.length := by
  induction cs generalizing before with
  | nil => cases h
  | cons c cs ih =>
    rw [cut?] at h
    split at h
    · cases h
      exact List.length_drop ▸ Nat.sub_le _ _
    · obtain ⟨⟨b, a⟩, hc, he⟩ := Option.map_eq_some_iff.1 h
      cases he
      exact Nat.le_succ_of_le (ih hc)

def splitOn (separator : Char) (s : String) : List String := (pieces separator s.toList).map String.ofList

end Inventory.Text
