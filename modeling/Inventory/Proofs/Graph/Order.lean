import Inventory.Proofs.Graph.Blocks
import Mathlib.Data.List.Sort
import Mathlib.Order.Defs.Unbundled

/-!
The order of the nodes of a sorted block. Values are ordered by their kind, then as numbers, then as texts, so that
nodes are in a strict order in which uids decide between equal values.
-/

namespace Inventory

open Std

namespace Comparison

/-- The number by which values of one kind are ordered. -/
def weight : Json → Int
  | .bool b => if b then 1 else 0
  | .num n => n.toBinary64.units
  | _ => 0

/-- The text by which values of one kind are ordered. -/
def wording : Json → String
  | .str s => s
  | _ => ""

theorem compareValues_num {m n : Number} : compareValues (.num m) (.num n) =
    orderingOf (m.toBinary64.lt n.toBinary64) (m.toBinary64.same n.toBinary64) := rfl

theorem compareValues_str {s t : String} : compareValues (.str s) (.str t) =
    orderingOf (decide (s < t)) (decide (s = t)) := rfl

theorem le_of_compareValues {s t : String} (h : compareValues (.str s) (.str t) ≠ .gt) : s ≤ t := by
  by_cases hlt : s < t
  · exact Std.le_of_lt hlt
  · by_cases heq : s = t
    · exact heq ▸ Std.le_refl s
    · simp [compareValues_str, orderingOf, hlt, heq] at h

theorem compareValues_eq :
    compareValues = compareLex (compareOn rank) (compareLex (compareOn weight) (compareOn wording)) := by
  funext a b
  cases a with
  | null | arr _ | obj _ => cases b <;> rfl
  | num m =>
      cases b with
      | num n =>
          change _ = (compare m.toBinary64.units n.toBinary64.units).then .eq
          rw [compareValues_num, Ordering.then_eq]
          simp [orderingOf, Binary64.lt, Binary64.same, compare, compareOfLessAndEq]
      | null | bool _ | str _ | arr _ | obj _ => rfl
  | str s =>
      cases b with
      | str t =>
          change _ = compareOfLessAndEq s t
          simp [compareValues_str, orderingOf, compareOfLessAndEq]
      | null | bool _ | num _ | arr _ | obj _ => rfl
  | bool x =>
      cases b with
      | bool y => cases x <;> cases y <;> rfl
      | null | num _ | str _ | arr _ | obj _ => rfl

instance : TransCmp compareValues := by
  rw [compareValues_eq]
  infer_instance

theorem compareValues_swap (a b : Json) : compareValues a b = (compareValues b a).swap := OrientedCmp.eq_swap

theorem compareValues_trans {a b c : Json} (hab : (compareValues a b).isLE = true)
    (hbc : (compareValues b c).isLE = true) : (compareValues a c).isLE = true := TransCmp.isLE_trans hab hbc

end Comparison

namespace Graph

open Query Comparison

variable {g : Graph} {o : Order} {p : String} {u v w : Uid} {us : List Uid}

/-- The order of two nodes by the values to sort by, nodes without one being last. -/
def headOrder (d : SortDirection) : Option Json → Option Json → Ordering
  | none, none => .eq
  | none, some _ => .gt
  | some _, none => .lt
  | some x, some y =>
    match d with
    | .asc => compareValues x y
    | .desc => compareValues y x

theorem nodeOrder_eq (g : Graph) (o : Order) (u v : Uid) : nodeOrder g o u v =
    (headOrder o.direction (g.values u o.predicate).head? (g.values v o.predicate).head?).then
      (compare u.value v.value) := by
  unfold nodeOrder headOrder
  cases (g.values u o.predicate).head? with
  | none => cases (g.values v o.predicate).head? <;> rfl
  | some x =>
      cases (g.values v o.predicate).head? with
      | none => rfl
      | some y =>
          cases o.direction with
          | asc => rfl
          | desc => exact congrArg (Ordering.then · _) (compareValues_swap y x).symm

instance (d : SortDirection) : TransCmp (headOrder d) where
  eq_swap := by
    intro a b
    cases a with
    | none => cases b <;> rfl
    | some x =>
        cases b with
        | none => rfl
        | some y =>
            cases d with
            | asc => exact compareValues_swap x y
            | desc => exact compareValues_swap y x
  isLE_trans := by
    intro a b c hab hbc
    cases c with
    | none => cases a <;> rfl
    | some z =>
        cases b with
        | none => cases hbc
        | some y =>
            cases a with
            | none => cases hab
            | some x =>
                cases d with
                | asc => exact compareValues_trans hab hbc
                | desc => exact compareValues_trans hbc hab

instance (g : Graph) (o : Order) : TransCmp (nodeOrder g o) := by
  have hheads : TransCmp fun u v : Uid =>
      headOrder o.direction (g.values u o.predicate).head? (g.values v o.predicate).head? :=
    { eq_swap := OrientedCmp.eq_swap, isLE_trans := TransCmp.isLE_trans }
  have heq : nodeOrder g o = compareLex (fun u v : Uid =>
      headOrder o.direction (g.values u o.predicate).head? (g.values v o.predicate).head?) (compareOn Uid.value) := by
    funext u v
    exact nodeOrder_eq g o u v
  rw [heq]
  infer_instance

theorem eq_of_nodeOrder (h : nodeOrder g o u v = .eq) : u = v := by
  rw [nodeOrder_eq, Ordering.then_eq_eq] at h
  exact Uid.eq_iff.2 (Nat.compare_eq_eq.1 h.2)

theorem pairwise_sorted (h : us.Nodup) : (g.sorted (some o) us).Pairwise fun u v => nodeOrder g o u v = .lt := by
  have hle : (g.sorted (some o) us).Pairwise fun u v => (nodeOrder g o u v != .gt) = true := by
    apply List.pairwise_mergeSort
    · intro u v w huv hvw
      rw [bne_iff_ne] at huv hvw ⊢
      apply Ordering.isLE_iff_ne_gt.1
      exact TransCmp.isLE_trans (Ordering.isLE_iff_ne_gt.2 huv) (Ordering.isLE_iff_ne_gt.2 hvw)
    · intro u v
      have hswap : nodeOrder g o v u = (nodeOrder g o u v).swap := OrientedCmp.eq_swap
      rw [hswap]
      cases nodeOrder g o u v <;> rfl
  have hne : (g.sorted (some o) us).Nodup := (sorted_perm (some o) us).nodup_iff.2 h
  refine hle.imp₂ ?_ hne
  intro u v hle hne
  cases hc : nodeOrder g o u v with
  | lt => rfl
  | eq => exact absurd (eq_of_nodeOrder hc) hne
  | gt => simp [hc] at hle

/-- The nodes of a kind, each once and in order. -/
structure Enumerates (g : Graph) (o : Order) (kind : Uid → Prop) (us : List Uid) : Prop where
  nodup : us.Nodup
  mem : ∀ u, u ∈ us ↔ kind u
  sorted : us.Pairwise fun u v => nodeOrder g o u v = .lt

theorem enumerates_sorted {kind : Uid → Prop} (hn : us.Nodup) (hk : ∀ u, u ∈ us ↔ kind u) :
    Enumerates g o kind (g.sorted (some o) us) := by
  have hperm := sorted_perm (g := g) (some o) us
  refine ⟨hperm.nodup_iff.2 hn, fun u => ?_, pairwise_sorted hn⟩
  rw [hperm.mem_iff, hk]

/-- Nodes by a value of each in the direction of an order, those without one last in either direction, and by uid where
that does not decide. -/
def Before (g : Graph) (o : Order) (u v : Uid) : Prop :=
  match (g.values u o.predicate).head?, (g.values v o.predicate).head? with
  | some x, some y =>
    (match o.direction with
      | .asc => compareValues x y = .lt
      | .desc => compareValues x y = .gt) ∨ (compareValues x y = .eq ∧ u < v)
  | some _, none => True
  | none, some _ => False
  | none, none => u < v

theorem nodeOrder_lt_iff_before : nodeOrder g o u v = .lt ↔ Before g o u v := by
  rw [nodeOrder_eq, Ordering.then_eq_lt, Nat.compare_eq_lt]
  unfold headOrder Before
  cases (g.values u o.predicate).head? with
  | none => cases (g.values v o.predicate).head? <;> simp [Uid.lt_def]
  | some x =>
      cases (g.values v o.predicate).head? with
      | none => simp
      | some y =>
          cases o.direction with
          | asc => simp [Uid.lt_def]
          | desc => simp [compareValues_swap y x, Uid.lt_def]

instance (g : Graph) (o : Order) : IsStrictTotalOrder Uid (Before g o) where
  irrefl u h := by
    have hself : nodeOrder g o u u = .eq := ReflCmp.compare_self
    rw [← nodeOrder_lt_iff_before, hself] at h
    cases h
  trans u v w huv hvw := by
    rw [← nodeOrder_lt_iff_before] at huv hvw ⊢
    exact TransCmp.lt_trans huv hvw
  trichotomous u v huv hvu := by
    have hswap : nodeOrder g o v u = (nodeOrder g o u v).swap := OrientedCmp.eq_swap
    rw [← nodeOrder_lt_iff_before] at huv hvu
    cases hc : nodeOrder g o u v with
    | eq => exact eq_of_nodeOrder hc
    | lt => exact absurd hc huv
    | gt =>
        rw [hswap, hc] at hvu
        exact absurd rfl hvu

/-- Of two nodes in a sequence in order, one stands before the other if it is before it. -/
theorem sublist_pair_iff (h : us.Pairwise (Before g o)) (hu : u ∈ us) (hv : v ∈ us) (hne : u ≠ v) :
    [u, v].Sublist us ↔ Before g o u v := by
  constructor
  · intro hsub
    exact List.pairwise_pair.1 (h.sublist hsub)
  · intro hbefore
    obtain ⟨front, back, rfl⟩ := List.append_of_mem hu
    rcases List.mem_append.1 hv with hfront | hback
    · have hafter : Before g o v u := (List.pairwise_append.1 h).2.2 v hfront u List.mem_cons_self
      exact absurd hafter (asymm hbefore)
    · have hmem : v ∈ back := (List.mem_cons.1 hback).resolve_left hne.symm
      exact (List.Sublist.cons_cons u (List.singleton_sublist.2 hmem)).trans (List.sublist_append_right front _)

/-- Nodes by a value of each in ascending order, those without one last, and by uid where that does not decide. -/
def Precedes (g : Graph) (p : String) (u v : Uid) : Prop :=
  match (g.values u p).head?, (g.values v p).head? with
  | some x, some y => compareValues x y = .lt ∨ (compareValues x y = .eq ∧ u < v)
  | some _, none => True
  | none, some _ => False
  | none, none => u < v

theorem nodeOrder_lt_iff : nodeOrder g ⟨p, .asc⟩ u v = .lt ↔ Precedes g p u v := nodeOrder_lt_iff_before

/-- Nodes that stand in order stand so in one way only. -/
theorem eq_of_precedes {vs : List Uid} (h : us.Pairwise (Precedes g p)) (h' : vs.Pairwise (Precedes g p))
    (hmem : ∀ u, u ∈ us ↔ u ∈ vs) : us = vs :=
  List.Pairwise.eq_of_mem_iff (r := Before g ⟨p, .asc⟩) h h' fun {u} => hmem u

end Graph

end Inventory
