import Inventory.Proofs.Repository.Steps
import Mathlib.Data.List.Induction

/-!
Runs of operations on a store that has been bootstrapped.
-/

namespace Inventory.Repository

variable {r : Repository} {refusals : Refusals} {s : Store}

/-- The store that operations leave, one after another. -/
def after (r : Repository) (s : Store) (cs : List Change) : Store := cs.foldl (Change.run r) s

theorem after_concat (r : Repository) (s : Store) (cs : List Change) (c : Change) :
    after r s (cs ++ [c]) = c.run r (after r s cs) := by
  rw [after, List.foldl_append]
  rfl

section Refusals

open Steady

theorem steady_upsertSource (m : MetadataSource) : Steady (upsertSource m) := by
  unfold upsertSource
  rw [discard_bind]
  refine (Steady.write _ _ _).bind fun _ => (of_yields fun _ => sourceByName_same _).bind fun found => ?_
  split
  · exact pure _
  · exact throw _

theorem steady_createType (k : Guard) (t : EquipmentType) : Steady (r.createType k t) := by
  unfold createType
  refine (of_yields fun _ => Yields.verify r k _).bind fun _ => ?_
  refine (of_yields fun _ => sourceById_yields _ _).bind fun source => ?_
  refine (of_yields fun _ => types_yields _).bind fun existing => ?_
  refine (of_yields fun _ => Yields.check _).bind fun _ => (of_yields fun _ => Yields.check _).bind fun _ => ?_
  refine (of_yields fun _ => Yields.check _).bind fun _ => (of_yields fun _ => Yields.orNotFound _ _).bind fun w => ?_
  refine (of_yields fun _ => parentUid_yields _).bind fun parent => (Steady.alter _ _).bind fun _ => ?_
  refine (Steady.write _ _ _).bind fun receipt => ?_
  split
  · exact throw _
  · exact (of_yields fun _ => Yields.reading _).bind fun _ => pure _

theorem steady_admitParent (t : EquipmentType) (change : Option String) (scopes : List String) :
    Steady (admitParent t change scopes) := by
  cases change with
  | none => exact pure _
  | some p =>
      refine (of_yields fun _ => types_yields _).bind fun all => ?_
      refine (of_yields fun _ => descendantIds_same _).bind fun ids => ?_
      exact (of_yields fun _ => hasInstances_yields _ _).bind fun occupied => of_yields fun _ => Yields.check _

theorem steady_updateType (k : Guard) (id : String) (parent : Option String) (as : List Attribute)
    (scopes : List String) : Steady (r.updateType k id parent as scopes) := by
  unfold updateType
  refine (of_yields fun _ => Yields.verify r k _).bind fun _ => ?_
  refine (of_yields fun _ => typeById_yields _ _).bind fun existing => ?_
  refine (of_yields fun _ => sourceById_yields _ _).bind fun source => ?_
  refine (steady_admitParent _ _ _).bind fun _ => (of_yields fun _ => Yields.check _).bind fun _ => ?_
  refine (of_yields fun _ => typeUid_yields _).bind fun owner => ?_
  refine (of_yields fun _ => parentUid_yields _).bind fun p => (Steady.alter _ _).bind fun _ => ?_
  refine (Steady.write _ _ _).bind fun receipt => ?_
  exact (map _ (of_yields fun _ => Yields.reading _)).bind fun _ => of_yields fun _ => typeById_yields _ _

theorem steady_deleteType (k : Guard) (name scope : String) : Steady (r.deleteType k name scope) := by
  unfold deleteType
  refine (of_yields fun _ => Yields.verify r k _).bind fun _ => ?_
  refine (of_yields fun _ => typeByName_yields _ _).bind fun existing => ?_
  refine (of_yields fun _ => types_yields _).bind fun all => ?_
  refine (of_yields fun _ => hasInstances_yields _ _).bind fun occupied => ?_
  refine (of_yields fun _ => Yields.check _).bind fun _ => (of_yields fun _ => typeUid_yields _).bind fun u => ?_
  exact map _ (Steady.write _ _ _)

theorem steady_upsertInstance (k : Guard) (scope name : String) (payload : List (String × Json)) (now : Int) :
    Steady (r.upsertInstance k scope name payload now) := by
  unfold upsertInstance
  refine (of_yields fun _ => Yields.verify r k _).bind fun _ => ?_
  refine (of_yields fun _ => typeByName_yields _ _).bind fun t => ?_
  refine (of_yields fun _ => Yields.check _).bind fun record => (of_yields fun _ => Yields.check _).bind fun q => ?_
  rw [discard_bind]
  exact Steady.bind (fun s => refusals_execute q s) fun _ => pure _

theorem steady_deleteBatch (q : Query) (retries : Nat) : Steady (deleteBatch q retries) := by
  have htry : Steady (tryBatch q) := by
    refine Steady.tryCatch ((Steady.write _ _ _).bind fun _ => pure _) fun e => ?_
    split
    · exact pure _
    · exact throw _
  induction retries with
  | zero => exact htry
  | succ retries ih =>
      refine htry.bind fun n => ?_
      cases n with
      | some n => exact pure _
      | none => exact ih

theorem steady_deleteBatches (c : DeletionConfig) (elapsedMs : Nat → Nat) (scope : String) (fuel : Nat)
    (report : DeletionReport) : Steady (deleteBatches c elapsedMs scope fuel report) := by
  induction fuel generalizing report with
  | zero => exact pure _
  | succ fuel ih =>
      rw [deleteBatches]
      split
      · exact pure _
      · refine (of_yields fun _ => Yields.read _ _ _).bind fun answer => ?_
        simp only
        split
        · exact pure _
        · refine (steady_deleteBatch _ _).bind fun n => ?_
          cases n with
          | some n => exact ih _
          | none => exact ih _

theorem refusals_change (r : Repository) (s : Store) (c : Change) : (c.run r s).refusals = s.refusals := by
  cases c with
  | upsertSource m => exact steady_upsertSource m s
  | createType k t => exact steady_createType k t s
  | updateType k id parent as scopes => exact steady_updateType k id parent as scopes s
  | deleteType k name scope => exact steady_deleteType k name scope s
  | upsertInstance k scope name payload now => exact steady_upsertInstance k scope name payload now s
  | deleteInstances k elapsedMs scope =>
      have h : Steady (r.deleteInstances k elapsedMs scope) :=
        (of_yields fun _ => Yields.verify r k _).bind fun _ =>
          Steady.bind (fun _ => rfl) fun _ => steady_deleteBatches _ _ _ _ _
      exact h s

theorem refusals_after (r : Repository) (s : Store) (cs : List Change) : (after r s cs).refusals = s.refusals := by
  induction cs generalizing s with
  | nil => rfl
  | cons c cs ih => exact (ih (c.run r s)).trans (refusals_change r s c)

end Refusals

theorem coherent_after (hs : Coherent s.graph) (cs : List Change) : Coherent (after r s cs).graph := by
  induction cs generalizing s with
  | nil => exact hs
  | cons c cs ih => exact ih (c.step r hs).2

/-- A property that only some operations break holds all along a run exactly if the run has none of them. -/
theorem forall_prefix_iff {P : Graph → Prop} {Breaks : Store → Change → Prop} (hs : Coherent s.graph)
    (start : P s.graph)
    (keeps : ∀ s c, Coherent s.graph → P s.graph → ¬Breaks s c → P (c.run r s).graph)
    (breaks : ∀ s c, Coherent s.graph → P s.graph → Breaks s c → ¬P (c.run r s).graph) (cs : List Change) :
    (∀ pre, pre <+: cs → P (after r s pre).graph) ↔
      ∀ pre c, pre ++ [c] <+: cs → ¬Breaks (after r s pre) c := by
  constructor
  · intro h pre c hpre hb
    refine breaks _ c (coherent_after hs pre) (h pre ((List.prefix_append pre [c]).trans hpre)) hb ?_
    rw [← after_concat]
    exact h _ hpre
  · intro h pre
    induction pre using List.reverseRecOn with
    | nil => exact fun _ => start
    | append_singleton pre c ih =>
        intro hpre
        rw [after_concat]
        exact keeps _ c (coherent_after hs pre) (ih ((List.prefix_append pre [c]).trans hpre)) (h pre c hpre)

/-- No two nodes are at odds if none of the others are, and one that has been changed is at odds with no other. -/
theorem eq_of_odds (odds : Uid → Uid → Prop) (x : Uid) {u v : Uid}
    (symm : ∀ u v, odds u v → odds v u) (others : ∀ u v, u ≠ x → v ≠ x → odds u v → u = v)
    (changed : ∀ v, v ≠ x → ¬odds x v) (h : odds u v) : u = v := by
  by_cases hu : u = x
  · subst hu
    by_cases hv : v = u
    · exact hv.symm
    · exact absurd h (changed v hv)
  · by_cases hv : v = x
    · subst hv
      exact absurd (symm u v h) (changed u hu)
    · exact others u v hu hv h

end Inventory.Repository
