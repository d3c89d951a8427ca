import Inventory.Failure
import Inventory.Json.Decoder
import Inventory.Query.Basic
import Inventory.Text.Blank

/-!
Fixed chains of equipment types, one to a hop.
-/

namespace Inventory

/-- Which way the parent edge is followed. -/
inductive Direction
  | ancestors
  | descendants
deriving DecidableEq, Inhabited

namespace Direction

def name : Direction → String
  | ancestors => "ancestors"
  | descendants => "descendants"

def words : List (String × Direction) := [("ancestors", ancestors), ("descendants", descendants)]

/-- The hop over a predicate that leads from child to parent. -/
def edge (d : Direction) (predicate : String) : Query.Edge := ⟨predicate, d == descendants⟩

def flipped : Direction → Direction
  | ancestors => descendants
  | descendants => ancestors

@[simp]
theorem flipped_flipped (d : Direction) : d.flipped.flipped = d := by cases d <;> rfl

end Direction

/-- The names of types from an anchor outwards, at least two and none of them blank. -/
structure Topology where
  name : String
  levels : List String
  direction : Direction
  two_le : 2 ≤ levels.length
  not_blank : levels.all fun l => !Text.Blank.isAllBlank l
deriving DecidableEq

namespace Topology

def new (name : String) (levels : List String) (direction : Direction) : Except Failure Topology :=
  if two_le : 2 ≤ levels.length then
    if not_blank : levels.all fun l => !Text.Blank.isAllBlank l then
      .ok { name, levels, direction, two_le, not_blank }
    else .error (.internal s!"topology {name}" .blankLevel)
  else .error (.internal s!"topology {name}" .tooFewLevels)

/-- From a virtualization host down to its soft partitions. -/
def virtualization : Topology where
  name := "virtualization"
  levels := ["vcenter", "cluster", "server", "softpartition"]
  direction := .descendants
  two_le := by decide
  not_blank := by decide

/-- The chain from its other end. -/
def reversed (t : Topology) : Topology where
  name := s!"{t.name}-reversed"
  levels := t.levels.reverse
  direction := t.direction.flipped
  two_le := by simpa using t.two_le
  not_blank := by simpa using t.not_blank

def anchorType (t : Topology) : String := t.levels.headD ""

def hops (t : Topology) : Nat := t.levels.length - 1

def fieldNames : List String := ["name", "levels", "direction"]

def toJson (t : Topology) : Json :=
  .ofFields [("name", .str t.name), ("levels", .ofStrings t.levels), ("direction", .str t.direction.name)]

open Document in
/-- Name, levels and direction as written, whether or not they make a topology. -/
def table? (d : Document) : Option (String × List String × Direction) := do
  match ← d.record? fieldNames with
  | [name, levels, direction] =>
    return (← required text? name, ← required (list? text?) levels, ← required (word? Direction.words) direction)
  | _ => none

def ofDocument? (d : Document) : Option Topology :=
  (table? d).bind fun (name, levels, direction) => (new name levels direction).toOption

end Topology

end Inventory
