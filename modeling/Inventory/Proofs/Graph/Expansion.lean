import Inventory.Proofs.Graph.Blocks

/-!
Rounds of repeated hops: what a round visits, binds and passes on to the next, and that it leaves whatever was visited
before it.
-/

namespace Inventory.Graph

variable {name : String} {next : Uid → List Uid} {e e' e'' : Expansion} {us vs frontier : List Uid}
  {visited : UidSet} {vars : Vars}

/-- The nodes `us` have been taken in. -/
structure Expansion.Takes (name : String) (us : List Uid) (e e' : Expansion) : Prop where
  visited : ∀ x, x ∈ e'.visited ↔ x ∈ e.visited ∨ x ∈ us
  bound : ∀ x, x ∈ e'.vars.bound name ↔ x ∈ e.vars.bound name ∨ (x ∈ us ∧ x ∉ e.visited)
  reached : ∀ x, x ∈ e'.reached ↔ x ∈ e.reached ∨ (x ∈ us ∧ x ∉ e.visited)

namespace Expansion.Takes

theorem refl (name : String) (e : Expansion) : Takes name [] e e := by
  constructor <;> simp

theorem trans (h : Takes name us e e') (h' : Takes name vs e' e'') : Takes name (us ++ vs) e e'' := by
  constructor
  · intro x
    rw [h'.visited, h.visited, List.mem_append]
    tauto
  · intro x
    rw [h'.bound, h.bound, h.visited, List.mem_append]
    tauto
  · intro x
    rw [h'.reached, h.reached, h.visited, List.mem_append]
    tauto

theorem take (name : String) (e : Expansion) (u : Uid) : Takes name [u] e (e.take false (some name) u) := by
  have hc : e.visited.contains u = decide (u ∈ e.visited) := by simp [OrderedSet.contains, OrderedSet.mem_def]
  unfold Expansion.take
  by_cases hu : u ∈ e.visited
  · have hnone : ∀ x, ¬(x ∈ [u] ∧ x ∉ e.visited) := by
      rintro x ⟨hx, hold⟩
      obtain rfl := List.mem_singleton.1 hx
      exact hold hu
    rw [if_pos (by simp [hc, hu])]
    refine ⟨fun x => ?_, fun x => (or_iff_left (hnone x)).symm, fun x => (or_iff_left (hnone x)).symm⟩
    refine (or_iff_left_of_imp fun hx => ?_).symm
    obtain rfl := List.mem_singleton.1 hx
    exact hu
  · have hnew : ∀ x, x ∈ [u] ∧ x ∉ e.visited ↔ x = u := by
      intro x
      rw [List.mem_singleton, and_iff_left_of_imp]
      rintro rfl
      exact hu
    rw [if_neg (by simp [hc, hu])]
    constructor
    · intro x
      rw [OrderedSet.mem_insert, List.mem_singleton, or_comm]
    · intro x
      rw [Vars.extend?, bound_extend, hnew, List.mem_singleton, or_comm]
      simp
    · intro x
      rw [hnew, List.mem_append, List.mem_singleton]

theorem takeAll (name : String) (us : List Uid) (e : Expansion) :
    Takes name us e (us.foldl (Expansion.take false (some name)) e) := by
  induction us generalizing e with
  | nil => exact refl name e
  | cons u us ih => exact (take name e u).trans (ih _)

section Rounds

variable (h : Takes name (frontier.flatMap next) ⟨visited, vars, []⟩ e)
include h

theorem mem_reached (x : Uid) : x ∈ e.reached ↔ x ∈ frontier.flatMap next ∧ x ∉ visited := by
  rw [h.reached]
  simp

variable (hleft : ∀ x ∈ visited, x ∉ frontier → ∀ y ∈ next x, y ∈ visited)
include hleft

theorem next_subset : ∀ x ∈ visited, ∀ y ∈ next x, y ∈ e.visited := by
  intro x hx y hy
  refine (h.visited y).2 ?_
  by_cases hf : x ∈ frontier
  · exact .inr (List.mem_flatMap.2 ⟨x, hf, hy⟩)
  · exact .inl (hleft x hx hf y hy)

theorem left : ∀ x ∈ e.visited, x ∉ e.reached → ∀ y ∈ next x, y ∈ e.visited := by
  intro x hx hnew y hy
  have hold : x ∈ visited := by
    refine Classical.byContradiction fun hold => hnew ((h.mem_reached x).2 ⟨?_, hold⟩)
    exact ((h.visited x).1 hx).resolve_left hold
  exact h.next_subset hleft x hold y hy

end Rounds

end Expansion.Takes

end Inventory.Graph
