import Inventory.Proofs.Repository.Declarations

/-!
What alterations of the schema leave. Statements are declared one after the other where they stand, so that those
before one that is refused stay declared; and statements that were all accepted are accepted again, to no effect.
-/

namespace Inventory.SchemaAlterations

open Inventory.Graph Schema Repository

variable {g g' : Graph} {s s' : Store} {st : Statement} {ss : List Statement} {f : SchemaFault} {e : StoreError}

/-- The declaration of a type among others, the last if there are several. -/
def declaredType? (ts : List TypeStatement) (name : String) : Option TypeStatement := ts.reverse.find? (·.name == name)

/-- Statements that say nothing new: the last on each predicate and the last on each type stand already. -/
structure Restates (g : Graph) (ss : List Statement) : Prop where
  predicates : ∀ p q, declared? (ss.filterMap predicateStatement?) p = some q → g.predicates.get? p = some q
  types : ∀ n t, declaredType? (ss.filterMap typeStatement?) n = some t → g.types.get? n = some t

/-- Statements of which the first that is refused has others before it, which are all accepted. -/
structure RefusedAfter (g g' : Graph) (ss accepted : List Statement) (f : SchemaFault) : Prop where
  refused : ∃ st rest, ss = accepted ++ st :: rest ∧ g'.declare st = .error f
  accepted : g.declareAll accepted = (none, g')

/-- An alteration leaves the declarations as they are if it fails. -/
def Atomic (s : Store) (ss : List Statement) : Prop :=
  ∀ e s', perform (Store.alter ss) s = (.error e, s') → SameSchema s.graph s'.graph

/-- What an alteration does. One that fails is refused by the store, which it leaves as it was, or has declared what
stands before a statement that cannot be declared, which changes nothing exactly if that restates what is declared. One
that succeeds changes nothing when it is made again, and succeeds again unless the store refuses it. -/
structure Alters (s : Store) (ss : List Statement) : Prop where
  fails : ∀ e s', perform (Store.alter ss) s = (.error e, s') →
    (s.refusals.alter s.altered = some e ∧ s'.graph = s.graph) ∨
      ∃ f accepted, e = .schema f ∧ RefusedAfter s.graph s'.graph ss accepted f ∧
        (SameSchema s.graph s'.graph ↔ Restates s.graph accepted)
  again : ∀ s', perform (Store.alter ss) s = (.ok ⟨⟩, s') →
    (perform (Store.alter ss) s').2.graph = s'.graph ∧
      (s'.refusals.alter s'.altered = none → (perform (Store.alter ss) s').1 = .ok ⟨⟩)

section Declaring

/-- Whether a predicate holds edges, if it is declared. -/
def edges? (g : Graph) (p : String) : Option Bool := (g.predicates.get? p).map (·.kind == .uid)

/-- Statements on predicates that are declared, with values where these hold values and edges where they hold edges. -/
def Settled (g : Graph) (ss : List Statement) : Prop :=
  ∀ q, .predicate q ∈ ss → edges? g q.predicate = some (q.kind == .uid)

/-- A statement that is accepted is settled, and leaves edges what holds edges and values what holds values. -/
theorem settled_of_declare (h : g.declare st = .ok g') :
    Settled g' [st] ∧ ∀ p b, edges? g p = some b → edges? g' p = some b := by
  obtain ⟨haccepts, rfl⟩ := declare_ok_iff.1 h
  cases st with
  | type t => exact ⟨fun q hq => (by cases List.mem_singleton.1 hq), fun _ _ hb => hb⟩
  | predicate r =>
      rw [withStatements_predicate]
      refine ⟨fun q hq => ?_, fun p b hb => ?_⟩
      · cases List.mem_singleton.1 hq
        simp [edges?]
      · by_cases hp : p = r.predicate
        · subst hp
          obtain ⟨old, ho, rfl⟩ := Option.map_eq_some_iff.1 hb
          simp [edges?, haccepts r rfl old ho]
        · simpa [edges?, hp] using hb

theorem declareAll_accepted (h : g.declareAll ss = (none, g')) :
    g' = withStatements g ss ∧ Settled g' ss ∧ ∀ p b, edges? g p = some b → edges? g' p = some b := by
  induction ss generalizing g with
  | nil =>
      cases h
      exact ⟨rfl, fun q hq => absurd hq List.not_mem_nil, fun _ _ hb => hb⟩
  | cons st ss ih =>
      rw [declareAll] at h
      split at h
      · rename_i g₁ hst
        obtain ⟨rfl, hsettled, hkept⟩ := ih h
        obtain ⟨hst', hkept'⟩ := settled_of_declare hst
        refine ⟨?_, fun q hq => ?_, fun p b hb => hkept p b (hkept' p b hb)⟩
        · rw [(declare_ok_iff.1 hst).2, ← withStatements_cons]
        · rcases List.mem_cons.1 hq with rfl | hq
          · exact hkept _ _ (hst' q (List.mem_singleton_self _))
          · exact hsettled q hq
      · cases h

theorem declareAll_settled (h : Settled g ss) : g.declareAll ss = (none, withStatements g ss) := by
  refine declareAll_agreeing (fun p => (edges? g p).getD false) (fun q hq old ho => ?_) fun q hq => ?_
  · simp [edges?, ho]
  · simp [h q hq]

theorem declareAll_refused (h : g.declareAll ss = (some f, g')) : ∃ accepted, RefusedAfter g g' ss accepted f := by
  induction ss generalizing g with
  | nil => cases h
  | cons st ss ih =>
      rw [declareAll] at h
      split at h
      · rename_i g₁ hst
        obtain ⟨accepted, ⟨refused, rest, rfl, hr⟩, ha⟩ := ih h
        refine ⟨st :: accepted, ⟨refused, rest, rfl, hr⟩, ?_⟩
        rw [declareAll, hst]
        exact ha
      · cases h
        exact ⟨[], ⟨st, ss, rfl, ‹_›⟩, rfl⟩

end Declaring

section Restating

/-- A table stays as it is when values are put under their keys, if the last for each key stands there. -/
theorem foldl_insert_eq_self_iff {α : Type} (key : α → String) (t : Table String α) (as : List α) :
    as.foldl (fun t a => t.insert (key a) a) t = t ↔
      ∀ k a, as.reverse.find? (key · == k) = some a → t.get? k = some a := by
  constructor
  · intro h k a ha
    rw [← h, Table.get?_foldl_insert, ha, Option.some_or]
  · intro h
    refine Table.ext fun k => ?_
    rw [Table.get?_foldl_insert]
    cases ha : as.reverse.find? (key · == k) with
    | none => exact Option.none_or
    | some a => exact (h k a ha).symm

theorem sameSchema_withStatements : SameSchema g (withStatements g ss) ↔ Restates g ss := by
  have hp := foldl_insert_eq_self_iff PredicateStatement.predicate g.predicates (ss.filterMap predicateStatement?)
  have ht := foldl_insert_eq_self_iff TypeStatement.name g.types (ss.filterMap typeStatement?)
  exact ⟨fun h => ⟨hp.1 h.1, ht.1 h.2⟩, fun h => ⟨hp.2 h.predicates, ht.2 h.types⟩⟩

theorem withStatements_of_restates (h : Restates g ss) : withStatements g ss = g := by
  obtain ⟨hp, ht⟩ := sameSchema_withStatements.2 h
  calc withStatements g ss
      = { g with predicates := (withStatements g ss).predicates, types := (withStatements g ss).types } := rfl
    _ = g := by rw [hp, ht]

theorem restates_withStatements (g : Graph) (ss : List Statement) : Restates (withStatements g ss) ss := by
  constructor
  · intro p q hq
    rw [withStatements, Table.get?_foldl_insert PredicateStatement.predicate]
    exact Option.or_eq_some_iff.2 (.inl hq)
  · intro n t ht
    rw [withStatements, Table.get?_foldl_insert TypeStatement.name]
    exact Option.or_eq_some_iff.2 (.inl ht)

theorem declareAll_again (h : g.declareAll ss = (none, g')) : g'.declareAll ss = (none, g') := by
  obtain ⟨hg', hsettled, -⟩ := declareAll_accepted h
  have hrestates : Restates g' ss := hg' ▸ restates_withStatements g ss
  rw [declareAll_settled hsettled, withStatements_of_restates hrestates]

end Restating

section Altering

theorem alter_fails (h : perform (Store.alter ss) s = (.error e, s')) :
    (s.refusals.alter s.altered = some e ∧ s'.graph = s.graph) ∨
      ∃ f accepted, e = .schema f ∧ RefusedAfter s.graph s'.graph ss accepted f ∧
        (SameSchema s.graph s'.graph ↔ Restates s.graph accepted) := by
  cases hq : s.refusals.alter s.altered with
  | some e' =>
      rw [perform_storeAlter_refused hq] at h
      cases h
      exact .inl ⟨rfl, rfl⟩
  | none =>
      rcases hd : s.graph.declareAll ss with ⟨fault, g⟩
      rw [perform_storeAlter hq hd] at h
      cases fault with
      | none => cases h
      | some f =>
          cases h
          obtain ⟨accepted, ha⟩ := declareAll_refused hd
          obtain rfl : g = withStatements s.graph accepted := (declareAll_accepted ha.accepted).1
          exact .inr ⟨f, accepted, rfl, ha, sameSchema_withStatements⟩

theorem alter_succeeds (h : perform (Store.alter ss) s = (.ok ⟨⟩, s')) :
    s.graph.declareAll ss = (none, s'.graph) := by
  cases hq : s.refusals.alter s.altered with
  | some e =>
      rw [perform_storeAlter_refused hq] at h
      cases h
  | none =>
      rcases hd : s.graph.declareAll ss with ⟨fault, g⟩
      rw [perform_storeAlter hq hd] at h
      cases fault with
      | none =>
          cases h
          rfl
      | some f => cases h

theorem alter_unchanged (h : s.graph.declareAll ss = (none, s.graph)) :
    (perform (Store.alter ss) s).2.graph = s.graph ∧
      (s.refusals.alter s.altered = none → (perform (Store.alter ss) s).1 = .ok ⟨⟩) := by
  cases hq : s.refusals.alter s.altered with
  | some e =>
      rw [perform_storeAlter_refused hq]
      exact ⟨rfl, by simp⟩
  | none =>
      rw [perform_storeAlter hq h]
      exact ⟨rfl, fun _ => rfl⟩

theorem alters_in_turn (s : Store) (ss : List Statement) : Alters s ss :=
  ⟨fun _ _ => alter_fails, fun _ h => alter_unchanged (declareAll_again (alter_succeeds h))⟩

/-- A predicate of values that is new, and one of edges as though it held values. -/
def noteAndFlip : List Statement := [.predicate (.new "note" .string), .predicate (.new Vocabulary.parent .string)]

/-- The new predicate stays declared, although the alteration fails for the other. -/
theorem not_atomic_noteAndFlip : ¬Atomic (bootstrapped .none) noteAndFlip := by
  intro h
  have hd : ((bootstrapped .none).graph.declareAll noteAndFlip).1 = some (.kindChanged Vocabulary.parent) ∧
      ((bootstrapped .none).graph.declareAll noteAndFlip).2.predicates ≠ (bootstrapped .none).graph.predicates := by
    decide +kernel
  rcases hg : (bootstrapped .none).graph.declareAll noteAndFlip with ⟨fault, g⟩
  rw [hg] at hd
  obtain ⟨rfl, hne⟩ := hd
  exact hne (h _ _ (perform_storeAlter rfl hg)).1

end Altering

end Inventory.SchemaAlterations
