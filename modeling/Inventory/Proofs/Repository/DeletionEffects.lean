import Inventory.Proofs.Graph.Clearing
import Inventory.Proofs.Graph.Blocks
import Inventory.Proofs.Repository.Operations
import Inventory.Repository.Deletion
import Mathlib.Logic.Relation

/-!
What the requests that delete types and instances make of a graph.
-/

namespace Inventory.Repository

open Inventory.Graph Store Query Listing Outcome

variable {g g' : Graph} {vars : Vars} {answer : Answer} {u : Uid} {scope : String} {size skip : Nat}
  {s s' : Store}

/-- Some instances have been emptied. -/
def InstancesCleared (g g' : Graph) : Prop :=
  ∃ us, (∀ u ∈ us, .str Vocabulary.equipmentMarker ∈ g.values u Vocabulary.typeName) ∧ Cleared us g g'

/-- Nodes emptied one batch after another. -/
abbrev InstancesPurged : Graph → Graph → Prop := Relation.ReflTransGen InstancesCleared

/-- An instance in a scope. -/
def Sited (g : Graph) (scope : String) (w : Uid) : Prop :=
  .str Vocabulary.equipmentMarker ∈ g.values w Vocabulary.typeName ∧ .str scope ∈ g.values w Vocabulary.scopes

instance : Decidable (Sited g scope u) := inferInstanceAs (Decidable (_ ∧ _))

/-- Some instances of a scope have been emptied. -/
def ClearedIn (scope : String) (g g' : Graph) : Prop := ∃ us, (∀ u ∈ us, Sited g scope u) ∧ Cleared us g g'

abbrev PurgedIn (scope : String) : Graph → Graph → Prop := Relation.ReflTransGen (ClearedIn scope)

theorem PurgedIn.purged (h : PurgedIn scope g g') : InstancesPurged g g' := by
  refine Relation.ReflTransGen.mono ?_ _ _ h
  rintro g g' ⟨us, hus, hc⟩
  exact ⟨us, fun u hu => (hus u hu).1, hc⟩

theorem InstancesPurged.intact (h : InstancesPurged g g') (hg : g.Intact) : g'.Intact := by
  induction h with
  | refl => exact hg
  | tail _ h _ => exact h.choose_spec.2.intact

theorem InstancesPurged.of_mem_edges {p : String} {v : Uid} (h : InstancesPurged g g') (hv : v ∈ g'.edges u p) :
    v ∈ g.edges u p := by
  induction h with
  | refl => exact hv
  | tail _ h ih => exact ih (h.choose_spec.2.of_mem_edges hv)

theorem InstancesPurged.recycled {p : String} (h : InstancesPurged g g') (hp : p ≠ Vocabulary.recycle)
    (hu : g'.values u p ≠ []) : g'.values u Vocabulary.recycle = g.values u Vocabulary.recycle := by
  induction h with
  | refl => rfl
  | tail _ hstep ih =>
      obtain ⟨us, -, hc⟩ := hstep
      have hmem := hc.not_mem hp hu
      rw [hc.values, if_neg hmem] at hu
      rw [hc.values, if_neg hmem, ih hu]

theorem typeCleared_of_execute {receipt : Receipt} (hg : g.Intact)
    (h : execute g (.of none [⟨none, [.text (.node u) Vocabulary.recycle "true"], [.everything (.node u)]⟩]) =
      .ok (receipt, g')) : Cleared [u] g g' := by
  obtain ⟨vars, -, h⟩ := execute_clear hg h (fun vars ha name u hu => by rw [ha.2] at hu; cases hu)
    fun vars _ => by simp [Vars.given]
  rcases h with ⟨hc, -⟩ | ⟨-, h⟩
  · cases hc
  · exact h

theorem bound_of_batch (h : Answers g (some (batchQuery scope size skip)) .empty answer vars) (name : String) (u : Uid)
    (hu : u ∈ vars.bound name) : Sited g scope u := by
  obtain ⟨⟨us, vars₁⟩, he, h⟩ := bind_ok_iff.1 h
  obtain ⟨hus, hv, -⟩ := evalBlock_ok ⟨rfl, passes_scopes [scope], rfl, rfl⟩ he
  obtain ⟨⟨us', vars₂⟩, he', h⟩ := bind_ok_iff.1 h
  obtain ⟨start, hs⟩ := startNodes_of_evalBlock he'
  have hcount : Plain g vars₁ (countOf (Block.named batchBlock (.uid (uidVar victimsVar)))) start fun _ => true :=
    ⟨hs, fun _ => rfl, rfl, rfl⟩
  obtain ⟨-, hv', -⟩ := evalBlock_ok hcount he'
  cases h
  rw [hv', hv] at hu
  rcases (bound_extend _ _).1 hu with ⟨-, hu⟩ | hu
  · obtain ⟨hstart, hin⟩ := List.mem_filter.1 (hus hu)
    obtain ⟨s, hs, hscope⟩ := inScopes_iff.1 hin
    rw [List.mem_singleton.1 hs] at hscope
    exact ⟨Comparison.valuesMatch_str_iff.1 (List.mem_filter.1 hstart).2, hscope⟩
  · cases hu

theorem clearedIn_of_execute {receipt : Receipt} (hg : g.Intact)
    (h : execute g (.of (some (batchQuery scope size skip)) [batchMutation]) = .ok (receipt, g')) :
    g' = g ∨ ClearedIn scope g g' := by
  obtain ⟨vars, ha, h⟩ := execute_clear hg h
    (fun vars ha name u hu => contains_of_mem_values (bound_of_batch ha name u hu).1) fun vars hc => by
      intro hb
      simp only [Option.all_some, conditionHolds, Bool.not_eq_true'] at hc
      have hempty : (vars.bound victimsVar).isEmpty = false := hc
      rw [show vars.bound victimsVar = [] from hb] at hempty
      cases hempty
  rcases h with ⟨-, rfl⟩ | ⟨-, h⟩
  · exact .inl rfl
  · exact .inr ⟨_, bound_of_batch ha victimsVar, h⟩

theorem perform_tryBatch {r : Except Failure (Option Nat)} (hg : s.graph.Intact)
    (h : perform (tryBatch (batchQuery scope size skip)) s = (r, s')) : PurgedIn scope s.graph s'.graph := by
  have hwrite : ∀ (r : Except Failure Graph.Receipt) (t : Store),
      perform (write deletionName (some (batchQuery scope size skip)) [batchMutation]) s = (r, t) →
        PurgedIn scope s.graph t.graph := by
    intro r t ht
    rcases perform_execute ht with ⟨hsame, -⟩ | ⟨receipt, he, -⟩
    · rw [hsame]
    · rcases clearedIn_of_execute hg he with hsame | hc
      · rw [hsame]
      · exact .single hc
  rw [tryBatch, perform_tryCatch, perform_bind] at h
  rcases hp : perform (write deletionName (some (batchQuery scope size skip)) [batchMutation]) s with ⟨r₁, t⟩
  have ht := hwrite r₁ t hp
  rw [hp] at h
  cases r₁ with
  | ok receipt =>
      cases h
      exact ht
  | error e =>
      simp only at h
      split at h
      · cases h
        exact ht
      · cases h
        exact ht

theorem perform_deleteBatch {retries : Nat} {r : Except Failure (Option Nat)} (hg : s.graph.Intact)
    (h : perform (deleteBatch (batchQuery scope size skip) retries) s = (r, s')) :
    PurgedIn scope s.graph s'.graph := by
  induction retries generalizing s with
  | zero => exact perform_tryBatch hg h
  | succ retries ih =>
      rcases perform_bind_cases h with ⟨e, he, -⟩ | ⟨n, t, hn, h⟩
      · exact perform_tryBatch hg he
      · have ht := perform_tryBatch hg hn
        cases n with
        | some n =>
            cases h
            exact ht
        | none => exact ht.trans (ih (ht.purged.intact hg) h)

theorem perform_deleteBatches {c : DeletionConfig} {elapsedMs : Nat → Nat} {fuel : Nat} {report : DeletionReport}
    {r : Except Failure DeletionReport} (hg : s.graph.Intact)
    (h : perform (deleteBatches c elapsedMs scope fuel report) s = (r, s')) : PurgedIn scope s.graph s'.graph := by
  induction fuel generalizing s report with
  | zero =>
      cases h
      exact .refl
  | succ fuel ih =>
      rw [deleteBatches] at h
      split at h
      · cases h
        exact .refl
      · rcases (Yields.read _ _ _).step h with ⟨rfl, -⟩ | ⟨answer, -, -, h⟩
        · exact .refl
        · simp only at h
          split at h
          · cases h
            exact .refl
          · rcases perform_bind_cases h with ⟨e, he, -⟩ | ⟨n, t, hn, h⟩
            · exact perform_deleteBatch hg he
            · have ht := perform_deleteBatch hg hn
              cases n with
              | some n => exact ht.trans (ih (ht.purged.intact hg) h)
              | none => exact ht.trans (ih (ht.purged.intact hg) h)

end Inventory.Repository
