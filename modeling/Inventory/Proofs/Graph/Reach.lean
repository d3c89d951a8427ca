import Inventory.Proofs.Graph.Expansion
import Inventory.Proofs.Graph.Results

/-!
What hops that are repeated a number of times bind: exactly the nodes that so many steps lead to, but for those they
started from. A round takes in whatever one more step leads to, since the nodes of earlier rounds have been left.
-/

namespace Inventory.Graph

open Query Outcome

variable {g : Graph} {t : Traversal} {name : String} {next : Uid → List Uid} {e : Expansion}
  {us frontier : List Uid} {visited visited' : UidSet} {vars : Vars} {u v w x : Uid} {n depth : Nat}

/-- So many steps of a relation lead from one node to another. -/
inductive Hops (r : Uid → Uid → Prop) : Nat → Uid → Uid → Prop
  | none (u : Uid) : Hops r 0 u u
  | more {n : Nat} {u v w : Uid} (h : r u v) (hs : Hops r n v w) : Hops r (n + 1) u w

namespace Hops

variable {r r' : Uid → Uid → Prop}

theorem mono (hr : ∀ u v, r u v → r' u v) (h : Hops r n u v) : Hops r' n u v := by
  induction h with
  | none u => exact .none u
  | more h _ ih => exact .more (hr _ _ h) ih

theorem mem_of_closed {s : UidSet} (hs : ∀ x ∈ s, ∀ y, r x y → y ∈ s) (h : Hops r n u v) (hu : u ∈ s) : v ∈ s := by
  induction h with
  | none u => exact hu
  | more h _ ih => exact ih (hs _ hu _ h)

theorem kind_of_pos {p : Uid → Prop} (hp : ∀ u v, r u v → p v) (h : Hops r n u v) (hn : 0 < n) : p v := by
  induction h with
  | none u => exact absurd hn (Nat.lt_irrefl 0)
  | @more n u v w h hs ih =>
      cases hs with
      | none => exact hp u v h
      | more h' hs' => exact ih (Nat.succ_pos _)

theorem snoc (hs : Hops r n u v) (h : r v w) : Hops r (n + 1) u w := by
  induction hs with
  | none u => exact .more h (.none w)
  | more h' _ ih => exact .more h' (ih h)

/-- Steps that can be taken back, each from a node that has a property to another, lead back. -/
theorem reverse {p : Uid → Prop} (hr : ∀ u v, p u → r u v → p v ∧ r' v u) (h : Hops r n u v) (hu : p u) :
    Hops r' n v u := by
  induction h with
  | none u => exact .none u
  | more h _ ih =>
      obtain ⟨hv, hback⟩ := hr _ _ hu h
      exact (ih hv).snoc hback

/-- A way can be cut where it leaves a node for the last time, if it ever does. -/
theorem last_visit (h : Hops r n x v) (u : Uid) : (∃ m, Hops (fun x y => x ≠ u ∧ r x y) m x v) ∨
    ∃ y m, r u y ∧ Hops (fun x y => x ≠ u ∧ r x y) m y v := by
  induction h with
  | none x => exact .inl ⟨0, .none x⟩
  | @more n x y v hxy _ ih =>
      rcases ih with ⟨m, hm⟩ | hlast
      · by_cases hx : x = u
        · subst hx
          exact .inr ⟨y, m, hxy, hm⟩
        · exact .inl ⟨m + 1, .more ⟨hx, hxy⟩ hm⟩
      · exact .inr hlast

/-- A way that leaves none but some nodes need not have more steps than there are of them. -/
theorem shorten {all : List Uid} (hall : ∀ x y, r x y → x ∈ all) (h : Hops r n u v) :
    ∃ m ≤ all.length, Hops r m u v := by
  induction hk : all.length generalizing all r n u with
  | zero =>
      obtain rfl := List.length_eq_zero_iff.1 hk
      cases h with
      | none => exact ⟨0, Nat.le_refl 0, .none _⟩
      | more h _ => exact absurd (hall _ _ h) List.not_mem_nil
  | succ k ih =>
      rcases h.last_visit u with ⟨m, hm⟩ | ⟨y, m, huy, hm⟩
      · cases hm with
        | none => exact ⟨0, Nat.zero_le _, .none _⟩
        | more h _ => exact absurd rfl h.1
      · -- what comes after the last step from `u` leaves one node less
        have hlength : (all.erase u).length = k := by
          rw [List.length_erase_of_mem (hall u y huy), hk, Nat.add_sub_cancel]
        have hleft : ∀ x z, x ≠ u ∧ r x z → x ∈ all.erase u :=
          fun x z hxz => (List.mem_erase_of_ne hxz.1).2 (hall x z hxz.2)
        obtain ⟨m', hle, hm'⟩ := ih hleft hm hlength
        exact ⟨m' + 1, by omega, .more huy (hm'.mono fun x z hxz => hxz.2)⟩

end Hops

/-- The nodes outside a set that steps from it lead to. -/
def Beyond (next : Uid → List Uid) (visited : UidSet) (depth : Nat) (x : Uid) : Prop :=
  x ∉ visited ∧ ∃ n ≤ depth, ∃ z ∈ visited, Hops (fun u v => v ∈ next u) n z x

theorem not_beyond_of_closed (hc : ∀ x ∈ visited, ∀ y ∈ next x, y ∈ visited) : ¬Beyond next visited depth x := by
  rintro ⟨hx, n, -, z, hz, h⟩
  exact hx (h.mem_of_closed hc hz)

theorem not_beyond_zero : ¬Beyond next visited 0 x := by
  rintro ⟨hx, n, hn, z, hz, h⟩
  obtain rfl : n = 0 := by omega
  cases h
  exact hx hz

theorem beyond_succ (hfrontier : ∀ x ∈ frontier, x ∈ visited)
    (hvis : ∀ x, x ∈ visited' ↔ x ∈ visited ∨ x ∈ frontier.flatMap next)
    (hnext : ∀ x ∈ visited, ∀ y ∈ next x, y ∈ visited') :
    Beyond next visited (depth + 1) x ↔
      (x ∈ frontier.flatMap next ∧ x ∉ visited) ∨ Beyond next visited' depth x := by
  constructor
  · rintro ⟨hx, n, hn, z, hz, h⟩
    -- a node that this round does not visit is reached from the first node on its way, which the round does visit
    by_cases hx' : x ∈ visited'
    · exact .inl ⟨((hvis x).1 hx').resolve_left hx, hx⟩
    · cases h with
      | none => exact absurd hz hx
      | @more n _ v _ hv hs => exact .inr ⟨hx', n, by omega, v, hnext z hz v hv, hs⟩
  · rintro (⟨hx, hold⟩ | ⟨hx, n, hn, z, hz, h⟩)
    · obtain ⟨z, hz, hzx⟩ := List.mem_flatMap.1 hx
      exact ⟨hold, 1, by omega, z, hfrontier z hz, .more hzx (.none x)⟩
    · have hold : x ∉ visited := fun h => hx ((hvis x).2 (.inl h))
      rcases (hvis z).1 hz with hz | hz
      · exact ⟨hold, n, by omega, z, hz, h⟩
      · obtain ⟨y, hy, hyz⟩ := List.mem_flatMap.1 hz
        exact ⟨hold, n + 1, by omega, y, hfrontier y hy, .more hyz h⟩

theorem extends_takeAll (name : String) (us : List Uid) (e : Expansion) :
    Vars.Extends name e.vars (us.foldl (Expansion.take false (some name)) e).vars := by
  induction us generalizing e with
  | nil => exact .refl name e.vars
  | cons u us ih =>
      refine Vars.Extends.trans ?_ (ih _)
      unfold Expansion.take
      split
      · exact .refl name e.vars
      · exact Vars.extends_extend e.vars name [u]

section Rounds

variable (hb : t.bind = some name) (hn : ∀ vars u, hop g vars t.edge t.filter u = .ok (next u))
include hb hn

theorem expandNode_eq (u : Uid) (e : Expansion) :
    expandNode g false u [t] e = .ok ((next u).foldl (Expansion.take false (some name)) e) := by
  rw [expandNode, hn, hb]
  rfl

theorem expandFrontier_eq (us : List Uid) (e : Expansion) :
    expandFrontier g false [t] us e = .ok ((us.flatMap next).foldl (Expansion.take false (some name)) e) := by
  induction us generalizing e with
  | nil => rfl
  | cons u us ih =>
      rw [expandFrontier, expandNode_eq hb hn, List.flatMap_cons, List.foldl_append]
      exact ih _

/-- Rounds from a frontier, where all that was visited before it has been left. -/
theorem expand_eq (depth : Nat) (vars : Vars) (hfrontier : ∀ x ∈ frontier, x ∈ visited)
    (hleft : ∀ x ∈ visited, x ∉ frontier → ∀ y ∈ next x, y ∈ visited) :
    ∃ vars', expand g false [t] depth frontier visited vars = .ok vars' ∧ vars.Extends name vars' ∧
      ∀ x, x ∈ vars'.bound name ↔ x ∈ vars.bound name ∨ Beyond next visited depth x := by
  induction depth generalizing frontier visited vars with
  | zero =>
      refine ⟨vars, rfl, .refl name vars, fun x => ?_⟩
      rw [or_iff_left not_beyond_zero]
  | succ depth ih =>
      rw [expand, expandFrontier_eq hb hn]
      have ht := Expansion.Takes.takeAll name (frontier.flatMap next) ⟨visited, vars, []⟩
      have hext := extends_takeAll name (frontier.flatMap next) ⟨visited, vars, []⟩
      generalize (frontier.flatMap next).foldl (Expansion.take false (some name)) ⟨visited, vars, []⟩ = e at ht hext
      have hsplit : ∀ x, Beyond next visited (depth + 1) x ↔
          (x ∈ frontier.flatMap next ∧ x ∉ visited) ∨ Beyond next e.visited depth x :=
        fun x => beyond_succ hfrontier ht.visited (ht.next_subset hleft)
      by_cases hempty : e.reached = []
      · have hstop : e.reached.isEmpty = true := by simp [hempty]
        refine ⟨e.vars, ?_, hext, fun x => ?_⟩
        · change (if e.reached.isEmpty then _ else _) = _
          rw [if_pos hstop]
          rfl
        · have hclosed : ¬Beyond next e.visited depth x := by
            refine not_beyond_of_closed fun z hz y hy => ht.left hleft z hz ?_ y hy
            rw [hempty]
            exact List.not_mem_nil
          rw [ht.bound, hsplit, or_iff_left hclosed]
      · have hgo : ¬e.reached.isEmpty = true := by simpa using hempty
        -- what was reached last is the next frontier: all else that has been visited has been left
        have hin : ∀ x ∈ e.reached, x ∈ e.visited :=
          fun x hx => (ht.visited x).2 (.inr ((ht.mem_reached x).1 hx).1)
        obtain ⟨vars', hv, hext', hbound⟩ := ih e.vars hin (ht.left hleft)
        refine ⟨vars', ?_, hext.trans hext', fun x => ?_⟩
        · change (if e.reached.isEmpty then _ else _) = _
          rw [if_neg hgo]
          exact hv
        · rw [hbound, ht.bound, hsplit, or_assoc]

theorem recur_eq (us : List Uid) {r : Recursion} (hl : r.allowLoop = false) (hempty : vars.bound name = []) :
    ∃ vars', recur g vars us r [t] = .ok vars' ∧ vars'.Defined name ∧ vars.Extends name vars' ∧
      ∀ x, x ∈ vars'.bound name ↔
        x ∉ us ∧ ∃ n ≤ r.depth, ∃ z ∈ us, Hops (fun u v => v ∈ next u) n z x := by
  have hroots : ∀ x, x ∈ OrderedSet.ofList us ↔ x ∈ us := fun x => OrderedSet.mem_ofList
  obtain ⟨vars', hv, hext, hbound⟩ := expand_eq hb hn r.depth (vars.extend name [])
    (fun x hx => (hroots x).2 hx) fun x hx hf => absurd ((hroots x).1 hx) hf
  refine ⟨vars', ?_, hext.defined (Vars.defined_extend vars name []),
    (Vars.extends_extend vars name []).trans hext, fun x => ?_⟩
  · rw [recur, hl]
    simp only [List.foldl_cons, List.foldl_nil, hb, Vars.extend?]
    exact hv
  · have hnone : x ∉ (vars.extend name []).bound name := by
      rw [bound_extend, hempty]
      simp
    rw [hbound, or_iff_right hnone, Beyond, hroots]
    simp only [hroots]

end Rounds

end Inventory.Graph
