import Inventory.Proofs.Record
import Inventory.Proofs.Repository.Coherence

/-!
Declarations of types, and the declarations that every inventory starts from.
-/

namespace Inventory.Repository

open Inventory.Graph Schema Store

variable {g g' : Graph} {s s' : Store} {ss : List Statement}

/-- A graph with other declarations. -/
def Redeclared (g g' : Graph) : Prop := ∃ ps ts, g' = { g with predicates := ps, types := ts }

theorem Redeclared.refl (g : Graph) : Redeclared g g := ⟨g.predicates, g.types, rfl⟩

theorem Redeclared.of_eq (h : g' = g) : Redeclared g g' := h ▸ .refl g

theorem Redeclared.intact (h : Redeclared g g') (hg : g.Intact) : g'.Intact := by
  obtain ⟨ps, ts, rfl⟩ := h
  exact ⟨hg.fresh, hg.mirrored, hg.closed⟩

theorem Redeclared.kept (h : Redeclared g g') (w : Uid) : Kept g g' w := by
  obtain ⟨ps, ts, rfl⟩ := h
  exact fun p _ => ⟨rfl, rfl⟩

theorem declareAll_ok (g : Graph) (ss : List Statement) : Redeclared g (g.declareAll ss).2 ∧
    ∀ p, (∀ q, .predicate q ∈ ss → q.predicate ≠ p) → (g.declareAll ss).2.predicates.get? p = g.predicates.get? p := by
  induction ss generalizing g with
  | nil => exact ⟨.refl g, fun _ _ => rfl⟩
  | cons t ss ih =>
      cases hd : g.declare t with
      | error f =>
          simp only [declareAll, hd]
          exact ⟨.refl g, fun _ _ => trivial⟩
      | ok g₁ =>
          have hstep : Redeclared g g₁ ∧ ∀ p, (∀ q, t = .predicate q → q.predicate ≠ p) →
              g₁.predicates.get? p = g.predicates.get? p := by
            obtain ⟨-, rfl⟩ := declare_ok_iff.1 hd
            cases t with
            | predicate q =>
                refine ⟨⟨_, _, rfl⟩, fun p hp => ?_⟩
                rw [withStatements_predicate, Table.get?_insert, if_neg (Ne.symm (hp q rfl))]
            | type q => exact ⟨⟨_, _, rfl⟩, fun _ _ => rfl⟩
          obtain ⟨⟨ps, ts, rfl⟩, hget⟩ := hstep
          obtain ⟨⟨ps', ts', he⟩, hget'⟩ := ih { g with predicates := ps, types := ts }
          simp only [declareAll, hd]
          refine ⟨⟨ps', ts', he⟩, fun p hp => ?_⟩
          rw [hget' p fun q hq => hp q (List.mem_cons_of_mem _ hq), hget p fun q hq => hp q (hq ▸ List.mem_cons_self)]

theorem declared_of_attributes (hd : Declared g) (typeName : String) (as : List Attribute) :
    Declared (g.declareAll (Declaration.ofAttributes typeName as).statements).2 := by
  intro p hp
  rw [(declareAll_ok g _).2 p.predicate, hd p hp]
  intro q hq he
  simp only [Declaration.statements, Declaration.ofAttributes, List.mem_append, List.mem_map, List.mem_singleton,
    reduceCtorEq, or_false, Statement.predicate.injEq, exists_eq_right] at hq
  obtain ⟨a, -, rfl⟩ := hq
  have hbase := not_isAttributePredicate_base p hp
  rw [← he] at hbase
  simp only [predicateOf, PredicateStatement.new, PredicateStatement.indexed,
    Vocabulary.isAttributePredicate_attributePredicate] at hbase
  cases hbase

/-- A store that has been bootstrapped, and refuses what it will. -/
def bootstrapped (refusals : Refusals) : Store :=
  { graph := (Graph.empty.declareAll baseStatements).2, refusals, executed := 0, altered := 1 }

theorem declared_base : (Graph.empty.declareAll baseStatements).1 = none ∧
    Declared (Graph.empty.declareAll baseStatements).2 := by
  unfold Declared
  decide +kernel

theorem perform_bootstrap {refusals : Refusals} (h : refusals.alter 0 = none) :
    perform bootstrap { Store.empty with refusals } = (.ok ⟨⟩, bootstrapped refusals) := by
  have hok := declared_base.1
  rcases hd : Graph.empty.declareAll baseStatements with ⟨fault, g⟩
  rw [hd] at hok
  cases hok
  rw [bootstrap, alter, perform_step, perform_storeAlter (s := { Store.empty with refusals }) h hd, bootstrapped, hd]
  rfl

theorem graph_bootstrapped (refusals : Refusals) :
    (bootstrapped refusals).graph = (Graph.empty.declareAll baseStatements).2 := by
  rw [bootstrapped]

theorem idle_bootstrapped (refusals : Refusals) (u : Uid) : Idle (bootstrapped refusals).graph u := by
  intro p hp
  rw [graph_bootstrapped]
  exact (declareAll_ok Graph.empty baseStatements).1.kept u p hp

theorem values_bootstrapped (refusals : Refusals) (u : Uid) (p : String) :
    (bootstrapped refusals).graph.values u p = [] := by
  obtain ⟨ps, ts, he⟩ := (declareAll_ok Graph.empty baseStatements).1
  rw [graph_bootstrapped, he]
  rfl

theorem edges_bootstrapped (refusals : Refusals) (u : Uid) (p : String) :
    (bootstrapped refusals).graph.edges u p = .empty := by
  obtain ⟨ps, ts, he⟩ := (declareAll_ok Graph.empty baseStatements).1
  rw [graph_bootstrapped, he]
  rfl

theorem coherent_bootstrapped (refusals : Refusals) : Coherent (bootstrapped refusals).graph := by
  refine ⟨?_, ?_, fun u => (idle_bootstrapped refusals u).regular⟩
  · rw [graph_bootstrapped]
    exact (declareAll_ok Graph.empty baseStatements).1.intact Intact.empty
  · rw [graph_bootstrapped]
    exact declared_base.2

end Inventory.Repository
