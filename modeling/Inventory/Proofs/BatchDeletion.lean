import Inventory.Proofs.Graph.Requests
import Inventory.Proofs.Graph.Results
import Inventory.Proofs.Repository.DeletionEffects
import Inventory.Proofs.StoreIntegrity

/-!
Deletion of the instances of a scope in batches, whichever requests are refused and whatever time passes. Instances that
have been given up are always the first of those left, so that passing over their number passes over just them.
-/

namespace Inventory.BatchDeletion

open Query Store Listing Inventory.Graph Repository Outcome

variable {g g' : Graph} {scope : String} {size skip first retries : Nat} {u : Uid} {us skipped rest : List Uid}
  {bs : List Batch} {s s' s'' : Store} {c : DeletionConfig} {elapsedMs : Nat → Nat} {report report' : DeletionReport}
  {refused : Nat → Option StoreError}

/-- The instances of a scope, by their uids. -/
def victims (g : Graph) (scope : String) : List Uid :=
  g.uids.filter fun u => decide (.str Vocabulary.equipmentMarker ∈ g.values u Vocabulary.typeName ∧
    .str scope ∈ g.values u Vocabulary.scopes)

/-- A batch, how many requests were made for it, and whether the last of them deleted it. -/
structure Batch where
  nodes : List Uid
  tries : Nat
  deleted : Bool

namespace Batch

def emptied (b : Batch) : List Uid := if b.deleted then b.nodes else []

def spared (b : Batch) : List Uid := if b.deleted then [] else b.nodes

/-- What the deletion of a batch gives. -/
def outcome (b : Batch) : Option Nat := if b.deleted then some b.nodes.length else none

/-- The requests of a batch, the first of which has the number `first`. Only the one that deletes it is not refused, and
without such a one all the tries allowed are made. -/
structure Tried (refused : Nat → Option StoreError) (retries first : Nat) (b : Batch) : Prop where
  pos : 0 < b.tries
  within : b.tries ≤ retries + 1
  exhausted : b.deleted = false → b.tries = retries + 1
  answers : ∀ i < b.tries, refused (first + i) = none ↔ b.deleted = true ∧ i + 1 = b.tries

end Batch

/-- The requests made for batches in turn, from the number `first` up to the one before `next`. -/
inductive Calls (refused : Nat → Option StoreError) (retries : Nat) : Nat → List Batch → Nat → Prop
  | nil (n : Nat) : Calls refused retries n [] n
  | cons {n m : Nat} {b : Batch} {bs : List Batch} (hb : b.Tried refused retries n)
      (h : Calls refused retries (n + b.tries) bs m) : Calls refused retries n (b :: bs) m

/-- Requests are refused only because of conflicts, and queries are not refused. -/
structure Conflicting (r : Refusals) : Prop where
  query : r.query = none
  execute : ∀ n e, r.execute n = some e → e.isAborted = true

/-- A deletion has done what it reports, in the batches `bs`. -/
structure Exact (c : DeletionConfig) (elapsedMs : Nat → Nat) (scope : String) (s s' : Store) (report : DeletionReport)
    (bs : List Batch) : Prop where
  distinct : (bs.flatMap Batch.nodes).Nodup
  taken : bs.flatMap Batch.nodes <+: victims s.graph scope
  sized : ∀ b ∈ bs, 0 < b.nodes.length ∧ b.nodes.length ≤ c.batchSize
  deleted : report.deleted = (bs.flatMap Batch.emptied).length
  abandoned : report.abandoned = (bs.flatMap Batch.spared).length
  batches : report.batches = bs.length
  total : report.deadlineExceeded = false → report.deleted + report.abandoned = (victims s.graph scope).length
  timely : ∀ n, 0 < n → n < report.batches → elapsedMs n < c.deadlineMs
  late : report.deadlineExceeded = true ↔ 0 < report.batches ∧ c.deadlineMs ≤ elapsedMs report.batches
  emptied : ∀ u ∈ bs.flatMap Batch.emptied, (∀ p, s'.graph.edges u p = .empty) ∧
    ∀ p, s'.graph.values u p = if p = Vocabulary.recycle then [.str "true"] else []
  live : victims s'.graph scope = (victims s.graph scope).filter fun u => decide (u ∉ bs.flatMap Batch.emptied)
  spared : ∀ u ∈ bs.flatMap Batch.spared, u ∈ victims s'.graph scope ∧
    ∀ p, s'.graph.values u p = s.graph.values u p ∧ s'.graph.edges u p = s.graph.edges u p
  others : ∀ u ∉ bs.flatMap Batch.emptied, ∀ p, s'.graph.values u p = s.graph.values u p ∧
    s'.graph.edges u p = s.graph.edges u p
  calls : Calls s.refusals.execute c.maxRetries s.executed bs s'.executed
  exhausted : ∀ b ∈ bs, b.deleted = false → b.tries = c.maxRetries + 1

section Victims

theorem mem_victims : u ∈ victims g scope ↔ .str Vocabulary.equipmentMarker ∈ g.values u Vocabulary.typeName ∧
    .str scope ∈ g.values u Vocabulary.scopes := by
  rw [victims, List.mem_filter, decide_eq_true_eq]
  exact ⟨And.right, fun h => ⟨mem_uids.2 (contains_of_mem_values h.1), h⟩⟩

theorem increasing_victims (g : Graph) (scope : String) : (victims g scope).Pairwise (· < ·) :=
  (increasing_uids g).filter _

theorem nodup_victims (g : Graph) (scope : String) : (victims g scope).Nodup :=
  (increasing_victims g scope).imp fun h he => absurd (he ▸ h) Std.lt_irrefl

theorem length_victims_le (g : Graph) (scope : String) : (victims g scope).length ≤ g.size := by
  have hlen : g.uids.length = g.size := List.length_map _
  rw [← hlen]
  exact List.length_filter_le _ _

theorem victims_of_cleared (h : Cleared us g g') :
    victims g' scope = (victims g scope).filter fun u => decide (u ∉ us) := by
  rw [victims, victims, uids_of_contains h.contains, List.filter_filter]
  refine List.filter_congr fun u _ => ?_
  rw [h.values, h.values]
  by_cases hu : u ∈ us
  · simp +decide [hu]
  · simp [hu]

/-- Those that are deleted leave those before them and those after them. -/
theorem victims_of_deleted (hv : victims g scope = skipped ++ (us ++ rest)) (h : Cleared us g g') :
    victims g' scope = skipped ++ rest := by
  have hn := nodup_victims g scope
  rw [hv] at hn
  obtain ⟨-, hn, hskipped⟩ := List.nodup_append.1 hn
  obtain ⟨-, -, hrest⟩ := List.nodup_append.1 hn
  rw [victims_of_cleared h, hv, List.filter_append, List.filter_append, List.filter_eq_self.2, List.filter_eq_nil_iff.2,
    List.filter_eq_self.2, List.nil_append]
  · exact fun u hu => decide_eq_true fun hus => hrest u hus u hu rfl
  · exact fun u hu => by simp [hu]
  · exact fun u hu => decide_eq_true fun hus => hskipped u hu u (List.mem_append_left _ hus) rfl

end Victims

section Batches

/-- The instances that a batch would take. -/
def chosen (g : Graph) (scope : String) (size skip : Nat) : List Uid := ((victims g scope).drop skip).take size

theorem chosen_sublist (g : Graph) (scope : String) (size skip : Nat) :
    (chosen g scope size skip).Sublist (victims g scope) :=
  (List.take_sublist _ _).trans (List.drop_sublist _ _)

theorem evaluate_batch (g : Graph) (scope : String) (skip : Nat) (hsize : size < 1 <<< 64) : ∃ answer vars,
    evaluate g (batchQuery scope size skip) .empty = .ok (answer, vars) ∧
      answer.count batchBlock totalLabel = (chosen g scope size skip).length ∧
        vars.bound victimsVar = chosen g scope size skip := by
  have hplain : Plain g .empty { ((Block.var (.eq Vocabulary.typeName (.str Vocabulary.equipmentMarker))).filtered
      (scopeFilter [scope])).bindAs victimsVar with first := some (.literal size), offset := some (.literal skip) }
      (g.uids.filter fun u => Comparison.valuesMatch (g.values u Vocabulary.typeName) (.str Vocabulary.equipmentMarker))
      (g.inScopes [scope]) := ⟨rfl, passes_scopes [scope], rfl, rfl⟩
  have hfound : ((g.uids.filter fun u => Comparison.valuesMatch (g.values u Vocabulary.typeName)
      (.str Vocabulary.equipmentMarker)).filter (g.inScopes [scope])) = victims g scope := by
    rw [victims, List.filter_filter]
    refine List.filter_congr fun u _ => ?_
    rw [Bool.eq_iff_iff, Bool.and_eq_true, inScopes_iff, Comparison.valuesMatch_str_iff, decide_eq_true_eq, and_comm]
    simp
  have hbatch := evalBlock_plain hplain (by rw [hfound]; rfl : cut .empty _ _ = .ok (chosen g scope size skip))
  have hsub := chosen_sublist g scope size skip
  have hbound := bound_extend_empty victimsVar ((increasing_victims g scope).sublist hsub)
  have hpresent : ∀ u ∈ chosen g scope size skip, g.contains u = true := fun u hu =>
    contains_of_mem_values (mem_victims.1 (hsub.subset hu)).1
  have hcount : evalBlock g .empty _ (countOf (Block.named batchBlock (.uid (uidVar victimsVar)))) = _ :=
    evalBlock_bound rfl (Vars.defined_extend .empty victimsVar _) (by rw [hbound]; exact hpresent) rfl rfl rfl rfl rfl
  rw [hbound] at hcount
  refine ⟨_, _, (evalBlocks_cons hbatch).trans (evalBlocks_cons hcount), ?_, hbound⟩
  exact count_of_rows (Nat.lt_of_le_of_lt (List.length_take_le _ _) hsize) (rows_insert _ _ _)

theorem execute_batch (hg : g.Intact) (hsize : size < 1 <<< 64) (hne : chosen g scope size skip ≠ []) :
    ∃ receipt g', execute g (.of (some (batchQuery scope size skip)) [batchMutation]) = .ok (receipt, g') ∧
      receipt.answer.count batchBlock totalLabel = (chosen g scope size skip).length ∧
        Cleared (chosen g scope size skip) g g' := by
  obtain ⟨answer, vars, he, hcount, hbound⟩ := evaluate_batch g scope skip hsize
  have hvar : vars.bound victimsVar ≠ [] := by rwa [hbound]
  have hc : batchMutation.condition.all (conditionHolds vars) = true := by
    have hitems : vars.bound victimsVar = ((vars.get? victimsVar).getD .empty).items := rfl
    simp only [batchMutation, Option.all_some, conditionHolds, OrderedSet.isEmpty, ← hitems]
    simpa using hvar
  obtain ⟨d, hd⟩ : ∃ d, applyMutation vars ⟨g, .empty, .empty⟩ batchMutation = .ok d := clear_bound_ok hc hvar
  refine ⟨⟨answer, d.blanks⟩, d.graph, execute_ok_iff.2 ⟨vars, d, he, ?_, rfl, rfl⟩, hcount, ?_⟩
  · exact bind_ok_iff.2 ⟨d, hd, rfl⟩
  · rw [← hbound]
    have hknown : vars.Known g := known_answers hg (show Answers g (some _) _ _ _ from he)
    exact applyMutation_clear hg hknown (show vars.given (.var victimsVar) ≠ [] from hvar) hc hd

end Batches

section Tries

theorem tryBatch_refused {q : Query} {e : StoreError} (h : s.refusals.execute s.executed = some e)
    (ha : e.isAborted = true) : perform (tryBatch q) s = (.ok none, { s with executed := s.executed + 1 }) := by
  obtain ⟨reason, rfl⟩ : ∃ reason, e = .aborted reason := by
    cases e with
    | aborted reason => exact ⟨reason, rfl⟩
    | _ => cases ha
  rw [tryBatch, perform_tryCatch, perform_bind, write, perform_execute_refused h]
  rfl

theorem tryBatch_ok {q : Query} {receipt : Receipt} (h : s.refusals.execute s.executed = none)
    (he : s.graph.execute (.of (some q) [batchMutation]) = .ok (receipt, g')) :
    perform (tryBatch q) s = (.ok (some (receipt.answer.count batchBlock totalLabel)),
      { s with graph := g', executed := s.executed + 1 }) := by
  rw [tryBatch, perform_tryCatch, perform_bind, write, perform_execute_ok h he]
  rfl

theorem deleteBatch_ok {q : Query} {n : Nat} (h : perform (tryBatch q) s = (.ok (some n), s')) :
    perform (deleteBatch q retries) s = (.ok (some n), s') := by
  cases retries with
  | zero => exact h
  | succ retries =>
      rw [deleteBatch, perform_bind, h]
      rfl

theorem deleteBatch_again {q : Query} (h : perform (tryBatch q) s = (.ok none, s')) :
    perform (deleteBatch q (retries + 1)) s = perform (deleteBatch q retries) s' := by
  rw [deleteBatch, perform_bind, h]

theorem Batch.Tried.of_ok (us : List Uid) (h : refused first = none) :
    (⟨us, 1, true⟩ : Batch).Tried refused retries first := by
  refine ⟨Nat.one_pos, Nat.le_add_left _ _, fun hd => (by cases hd), fun i hi => ?_⟩
  obtain rfl := Nat.lt_one_iff.1 hi
  exact iff_of_true h ⟨rfl, rfl⟩

theorem Batch.Tried.of_refused {e : StoreError} (us : List Uid) (h : refused first = some e) :
    (⟨us, 1, false⟩ : Batch).Tried refused 0 first := by
  refine ⟨Nat.one_pos, Nat.le_refl _, fun _ => rfl, fun i hi => ?_⟩
  obtain rfl := Nat.lt_one_iff.1 hi
  exact iff_of_false (by simp [h]) (by simp)

theorem Batch.Tried.again {e : StoreError} {b : Batch} (h : refused first = some e)
    (hb : b.Tried refused retries (first + 1)) :
    { b with tries := b.tries + 1 }.Tried refused (retries + 1) first := by
  refine ⟨Nat.succ_pos _, Nat.succ_le_succ hb.within, fun hd => congrArg Nat.succ (hb.exhausted hd), fun i hi => ?_⟩
  cases i with
  | zero =>
      have hpos := hb.pos
      exact iff_of_false (by simp [h]) fun hlast => Nat.ne_of_gt hpos (Nat.succ.inj hlast.2).symm
  | succ i =>
      have hi := hb.answers i (Nat.lt_of_succ_lt_succ hi)
      rw [Nat.add_assoc, Nat.add_comm 1 i] at hi
      rw [hi]
      simp

/-- What the tries of a batch leave of a store. -/
structure Leaves (s s' : Store) (tries : Nat) (us : List Uid) : Prop where
  refusals : s'.refusals = s.refusals
  executed : s'.executed = s.executed + tries
  cleared : Cleared us s.graph s'.graph

theorem perform_batch_ok (hg : s.graph.Intact) (hsize : size < 1 <<< 64) (hne : chosen s.graph scope size skip ≠ [])
    (hr : s.refusals.execute s.executed = none) (retries : Nat) : ∃ (b : Batch) (s' : Store),
      b.nodes = chosen s.graph scope size skip ∧
        perform (deleteBatch (batchQuery scope size skip) retries) s = (.ok b.outcome, s') ∧
          b.Tried s.refusals.execute retries s.executed ∧ Leaves s s' b.tries b.emptied := by
  obtain ⟨receipt, g', he, hcount, hc⟩ := execute_batch hg hsize hne
  refine ⟨⟨_, 1, true⟩, { s with graph := g', executed := s.executed + 1 }, rfl, ?_, .of_ok _ hr, rfl, rfl, hc⟩
  rw [deleteBatch_ok (tryBatch_ok hr he), hcount]
  rfl

/-- A batch with instances is deleted, or is given up after as many tries as are allowed. -/
theorem perform_batch (hg : s.graph.Intact) (hs : Conflicting s.refusals) (hsize : size < 1 <<< 64)
    (hne : chosen s.graph scope size skip ≠ []) (retries : Nat) : ∃ (b : Batch) (s' : Store),
      b.nodes = chosen s.graph scope size skip ∧
        perform (deleteBatch (batchQuery scope size skip) retries) s = (.ok b.outcome, s') ∧
          b.Tried s.refusals.execute retries s.executed ∧ Leaves s s' b.tries b.emptied := by
  induction retries generalizing s with
  | zero =>
      cases hr : s.refusals.execute s.executed with
      | none => exact perform_batch_ok hg hsize hne hr 0
      | some e =>
          exact ⟨⟨_, 1, false⟩, _, rfl, tryBatch_refused hr (hs.execute _ e hr), .of_refused _ hr, rfl, rfl, .refl hg⟩
  | succ retries ih =>
      cases hr : s.refusals.execute s.executed with
      | none => exact perform_batch_ok hg hsize hne hr _
      | some e =>
          obtain ⟨b, s', hnodes, hp, hb, hl⟩ := ih (s := { s with executed := s.executed + 1 }) hg hs hne
          refine ⟨{ b with tries := b.tries + 1 }, s', hnodes, ?_, hb.again hr, hl.refusals, ?_, hl.cleared⟩
          · rw [deleteBatch_again (tryBatch_refused hr (hs.execute _ e hr))]
            exact hp
          · rw [hl.executed, Nat.add_assoc, Nat.add_comm 1]

end Tries

section Loop

/-- No batch is begun any more. -/
abbrev Late (c : DeletionConfig) (elapsedMs : Nat → Nat) (report : DeletionReport) : Prop :=
  0 < report.batches ∧ c.deadlineMs ≤ elapsedMs report.batches

/-- A report that has a batch more. -/
def Batch.counted (b : Batch) (report : DeletionReport) : DeletionReport :=
  { report with
    deleted := report.deleted + b.emptied.length
    abandoned := report.abandoned + b.spared.length
    batches := report.batches + 1 }

/-- What batches do from a report on, when `rest` are the instances after those passed over. -/
structure Ran (c : DeletionConfig) (elapsedMs : Nat → Nat) (s s' : Store) (report report' : DeletionReport)
    (rest : List Uid) (bs : List Batch) : Prop where
  taken : bs.flatMap Batch.nodes <+: rest
  complete : report'.deadlineExceeded = false → bs.flatMap Batch.nodes = rest
  sized : ∀ b ∈ bs, 0 < b.nodes.length ∧ b.nodes.length ≤ c.batchSize
  deleted : report'.deleted = report.deleted + (bs.flatMap Batch.emptied).length
  abandoned : report'.abandoned = report.abandoned + (bs.flatMap Batch.spared).length
  batches : report'.batches = report.batches + bs.length
  timely : ∀ n, 0 < n → report.batches ≤ n → n < report'.batches → elapsedMs n < c.deadlineMs
  late : report'.deadlineExceeded = true ↔ Late c elapsedMs report'
  calls : Calls s.refusals.execute c.maxRetries s.executed bs s'.executed
  cleared : Cleared (bs.flatMap Batch.emptied) s.graph s'.graph

theorem Ran.late_now (hg : s.graph.Intact) (hl : Late c elapsedMs report) (rest : List Uid) :
    Ran c elapsedMs s s report { report with deadlineExceeded := true } rest [] := by
  refine ⟨List.nil_prefix, fun h => (by cases h), by simp, rfl, rfl, rfl, fun n _ hn hn' => ?_, iff_of_true rfl hl,
    .nil _, .refl hg⟩
  exact absurd hn' (Nat.not_lt.2 hn)

theorem Ran.done (hg : s.graph.Intact) (hl : ¬Late c elapsedMs report) (hd : report.deadlineExceeded = false) :
    Ran c elapsedMs s s report report [] [] := by
  refine ⟨List.nil_prefix, fun _ => rfl, by simp, rfl, rfl, rfl, fun n _ hn hn' => ?_, iff_of_false (by simp [hd]) hl,
    .nil _, .refl hg⟩
  exact absurd hn' (Nat.not_lt.2 hn)

theorem Ran.next {b : Batch} {bs : List Batch} (hn : b.nodes = us) (hsize : 0 < us.length ∧ us.length ≤ c.batchSize)
    (hl : ¬Late c elapsedMs report) (hb : b.Tried s.refusals.execute c.maxRetries s.executed)
    (hleaves : Leaves s s' b.tries b.emptied) (h : Ran c elapsedMs s' s'' (b.counted report) report' rest bs) :
    Ran c elapsedMs s s'' report report' (us ++ rest) (b :: bs) := by
  subst hn
  have hbatches : report'.batches = report.batches + 1 + bs.length := h.batches
  constructor
  · exact (List.prefix_append_right_inj _).2 h.taken
  · exact fun hd => congrArg (b.nodes ++ ·) (h.complete hd)
  · exact List.forall_mem_cons.2 ⟨hsize, h.sized⟩
  · rw [h.deleted, List.flatMap_cons, List.length_append, ← Nat.add_assoc]
    rfl
  · rw [h.abandoned, List.flatMap_cons, List.length_append, ← Nat.add_assoc]
    rfl
  · rw [hbatches, List.length_cons]
    omega
  · intro n hpos hle hlt
    rcases Nat.eq_or_lt_of_le hle with rfl | hle
    · exact Nat.not_le.1 fun hd => hl ⟨hpos, hd⟩
    · exact h.timely n hpos hle hlt
  · exact h.late
  · have hcalls := h.calls
    rw [hleaves.refusals, hleaves.executed] at hcalls
    exact .cons hb hcalls
  · exact hleaves.cleared.trans h.cleared

theorem deleteBatches_late (hl : Late c elapsedMs report) (fuel : Nat) :
    perform (deleteBatches c elapsedMs scope (fuel + 1) report) s =
      (.ok { report with deadlineExceeded := true }, s) := by
  rw [deleteBatches, if_pos hl]
  rfl

theorem deleteBatches_done (hs : Conflicting s.refusals) (hfit : c.batchSize < 1 <<< 64) (hl : ¬Late c elapsedMs report)
    (hnone : chosen s.graph scope c.batchSize report.abandoned = []) (fuel : Nat) :
    perform (deleteBatches c elapsedMs scope (fuel + 1) report) s = (.ok report, s) := by
  obtain ⟨answer, vars, he, hcount, -⟩ := evaluate_batch s.graph scope report.abandoned hfit
  rw [deleteBatches, if_neg hl, perform_bind, perform_read hs.query he]
  simp only
  rw [hcount, hnone]
  rfl

theorem deleteBatches_next {b : Batch} (hs : Conflicting s.refusals) (hfit : c.batchSize < 1 <<< 64)
    (hl : ¬Late c elapsedMs report) (hne : chosen s.graph scope c.batchSize report.abandoned ≠ [])
    (hn : b.nodes = chosen s.graph scope c.batchSize report.abandoned)
    (hb : perform (deleteBatch (batchQuery scope c.batchSize report.abandoned) c.maxRetries) s = (.ok b.outcome, s'))
    (fuel : Nat) : perform (deleteBatches c elapsedMs scope (fuel + 1) report) s =
      perform (deleteBatches c elapsedMs scope fuel (b.counted report)) s' := by
  obtain ⟨answer, vars, he, hcount, -⟩ := evaluate_batch s.graph scope report.abandoned hfit
  rw [deleteBatches, if_neg hl, perform_bind, perform_read hs.query he]
  simp only
  rw [hcount, if_neg (by simpa using hne), perform_bind, hb, ← hn]
  obtain ⟨nodes, tries, deleted⟩ := b
  cases deleted <;> rfl

/-- The first instances that are left are those given up, and those of a batch join them if it is not deleted. -/
theorem victims_of_batch {b : Batch} (hv : victims g scope = skipped ++ rest) (hn : b.nodes = rest.take size)
    (h : Cleared b.emptied g g') : victims g' scope = skipped ++ b.spared ++ rest.drop size := by
  obtain ⟨nodes, tries, deleted⟩ := b
  obtain rfl : nodes = rest.take size := hn
  cases deleted with
  | true =>
      rw [← List.take_append_drop size rest] at hv
      rw [victims_of_deleted hv h]
      exact congrArg (· ++ rest.drop size) (List.append_nil skipped).symm
  | false =>
      have hkept : ∀ us : List Uid, us.filter (fun u => decide (u ∉ ([] : List Uid))) = us := fun us => by simp
      rw [victims_of_cleared h, hv, Batch.emptied, if_neg Bool.false_ne_true, hkept, List.append_assoc]
      exact congrArg (skipped ++ ·) (List.take_append_drop size rest).symm

theorem perform_batches (hs : Conflicting s.refusals) (hpos : 0 < c.batchSize) (hfit : c.batchSize < 1 <<< 64)
    (hg : s.graph.Intact) (hv : victims s.graph scope = skipped ++ rest) (ha : report.abandoned = skipped.length)
    (hd : report.deadlineExceeded = false) : ∃ (report' : DeletionReport) (s' : Store) (bs : List Batch),
      (∀ fuel, rest.length < fuel → perform (deleteBatches c elapsedMs scope fuel report) s = (.ok report', s')) ∧
        Ran c elapsedMs s s' report report' rest bs := by
  induction hn : rest.length using Nat.strongRecOn generalizing s report skipped rest with
  | ind n ih =>
      have hchosen : chosen s.graph scope c.batchSize report.abandoned = rest.take c.batchSize := by
        rw [chosen, hv, ha, List.drop_left]
      by_cases hl : Late c elapsedMs report
      · refine ⟨_, s, [], fun fuel hf => ?_, .late_now hg hl rest⟩
        obtain ⟨fuel, rfl⟩ := Nat.exists_eq_add_of_lt hf
        exact deleteBatches_late hl _
      by_cases hrest : rest = []
      · subst hrest
        refine ⟨_, s, [], fun fuel hf => ?_, .done hg hl hd⟩
        obtain ⟨fuel, rfl⟩ := Nat.exists_eq_add_of_lt hf
        exact deleteBatches_done hs hfit hl (by rw [hchosen, List.take_nil]) _
      have hlen := List.length_pos_iff.2 hrest
      have hne : chosen s.graph scope c.batchSize report.abandoned ≠ [] := by
        rw [hchosen, ← List.length_pos_iff, List.length_take]
        omega
      obtain ⟨b, s₁, hnodes, hb, htried, hleaves⟩ := perform_batch hg hs hfit hne c.maxRetries
      have hnodes' := hnodes.trans hchosen
      have hdrop : (rest.drop c.batchSize).length < n := by
        rw [List.length_drop]
        omega
      have hs₁ : Conflicting s₁.refusals := by rwa [hleaves.refusals]
      have hv₁ := victims_of_batch hv hnodes' hleaves.cleared
      have ha₁ : (b.counted report).abandoned = (skipped ++ b.spared).length := by
        rw [List.length_append, ← ha]
        rfl
      obtain ⟨report', s', bs, hp, hran⟩ := ih _ hdrop hs₁ hleaves.cleared.intact hv₁ ha₁ hd rfl
      refine ⟨report', s', b :: bs, fun fuel hf => ?_, ?_⟩
      · obtain ⟨fuel, rfl⟩ := Nat.exists_eq_add_of_lt hf
        rw [deleteBatches_next hs hfit hl hne hnodes hb]
        exact hp _ (by omega)
      · have hran := hran.next hnodes' ?_ hl htried hleaves
        · rwa [List.take_append_drop] at hran
        · rw [List.length_take]
          omega

end Loop

theorem perm_nodes (bs : List Batch) :
    (bs.flatMap Batch.emptied ++ bs.flatMap Batch.spared).Perm (bs.flatMap Batch.nodes) := by
  have hb : (fun b : Batch => b.emptied ++ b.spared) = Batch.nodes := by
    funext b
    rw [Batch.emptied, Batch.spared]
    cases b.deleted <;> simp
  rw [← hb]
  exact bs.flatMap_append_perm Batch.emptied Batch.spared

theorem Calls.exhausted {n m : Nat} (h : Calls refused retries n bs m) :
    ∀ b ∈ bs, b.deleted = false → b.tries = retries + 1 := by
  induction h with
  | nil n => simp
  | cons hb _ ih => exact List.forall_mem_cons.2 ⟨hb.exhausted, ih⟩

theorem exact_of_ran (h : Ran c elapsedMs s s' .empty report (victims s.graph scope) bs) :
    Exact c elapsedMs scope s s' report bs := by
  have hdeleted : report.deleted = (bs.flatMap Batch.emptied).length := h.deleted.trans (Nat.zero_add _)
  have habandoned : report.abandoned = (bs.flatMap Batch.spared).length := h.abandoned.trans (Nat.zero_add _)
  have hn : (bs.flatMap Batch.nodes).Nodup := (nodup_victims s.graph scope).sublist h.taken.sublist
  obtain ⟨-, -, hdis⟩ := List.nodup_append.1 ((perm_nodes bs).nodup_iff.2 hn)
  have hlive : victims s'.graph scope = _ := victims_of_cleared h.cleared
  have hothers : ∀ u ∉ bs.flatMap Batch.emptied, ∀ p, s'.graph.values u p = s.graph.values u p ∧
      s'.graph.edges u p = s.graph.edges u p := fun u hu p => by
    rw [h.cleared.values, h.cleared.edges, if_neg hu, if_neg hu]
    exact ⟨rfl, rfl⟩
  refine ⟨hn, h.taken, h.sized, hdeleted, habandoned, h.batches.trans (Nat.zero_add _), fun hd => ?_,
    fun n hpos hlt => h.timely n hpos (Nat.zero_le n) hlt, h.late, fun u hu => ?_, hlive, fun u hu => ?_, hothers,
    h.calls, h.calls.exhausted⟩
  · rw [hdeleted, habandoned, ← List.length_append, (perm_nodes bs).length_eq, h.complete hd]
  · refine ⟨fun p => ?_, fun p => ?_⟩
    · rw [h.cleared.edges, if_pos hu]
    · rw [h.cleared.values, if_pos hu]
  · have hkept : u ∉ bs.flatMap Batch.emptied := fun he => hdis u he u hu rfl
    have hmem := (perm_nodes bs).subset (List.mem_append_right _ hu)
    refine ⟨?_, hothers u hkept⟩
    rw [hlive]
    exact List.mem_filter.2 ⟨h.taken.subset hmem, decide_eq_true hkept⟩

/-- With the guard of the repository a deletion goes on to its batches. -/
theorem perform_deleteInstances (r : Repository) (elapsedMs : Nat → Nat) (scope : String) (s : Store) :
    perform (r.deleteInstances r.guard elapsedMs scope) s =
      perform (deleteBatches r.config elapsedMs scope (s.graph.size + 1) .empty) s := by
  rw [deleteInstances, perform_bind, Repository.verify, if_pos (show r.guard.lock = r.lock from rfl)]
  rfl

theorem exact_of_intact (hs : Conflicting s.refusals) (hg : s.graph.Intact) (r : Repository)
    (hpos : 0 < r.config.batchSize) (hfit : r.config.batchSize < 1 <<< 64) (elapsedMs : Nat → Nat) (scope : String) :
    ∃ (report : DeletionReport) (s' : Store) (bs : List Batch),
      perform (r.deleteInstances r.guard elapsedMs scope) s = (.ok report, s') ∧
        (∀ fuel, (victims s.graph scope).length < fuel →
          perform (deleteBatches r.config elapsedMs scope fuel .empty) s = (.ok report, s')) ∧
          Exact r.config elapsedMs scope s s' report bs := by
  obtain ⟨report, s', bs, hp, hran⟩ := perform_batches hs hpos hfit hg (List.nil_append (victims s.graph scope)).symm
    (show DeletionReport.empty.abandoned = 0 from rfl) rfl
  refine ⟨report, s', bs, ?_, hp, exact_of_ran hran⟩
  rw [perform_deleteInstances]
  exact hp _ (Nat.lt_succ_of_le (length_victims_le s.graph scope))

/-- A deletion that reports to be complete has emptied all the instances of its scope. -/
theorem Exact.complete (h : Exact c elapsedMs scope s s' report bs) (hc : report.isComplete = true) :
    ∀ u ∈ victims s.graph scope, u ∈ bs.flatMap Batch.emptied := by
  obtain ⟨ha, hd⟩ := Bool.and_eq_true_iff.1 hc
  have ha : report.abandoned = 0 := eq_of_beq ha
  have hspared : bs.flatMap Batch.spared = [] := List.length_eq_zero_iff.1 (h.abandoned.symm.trans ha)
  have hnodes := perm_nodes bs
  rw [hspared, List.append_nil] at hnodes
  have htotal := h.total (by simpa using hd)
  have hall : bs.flatMap Batch.nodes = victims s.graph scope := by
    refine h.taken.eq_of_length ?_
    rw [← hnodes.length_eq, ← h.deleted, ← htotal, ha, Nat.add_zero]
  exact fun u hu => hnodes.mem_iff.2 (hall ▸ hu)

/-- Whatever its guard and the size of its batches, a deletion leaves all as it is or does what it reports. -/
theorem deleteInstances_cases (hs : Conflicting s.refusals) (hg : s.graph.Intact) (r : Repository)
    (hfit : r.config.batchSize < 1 <<< 64) (k : Guard) (elapsedMs : Nat → Nat) (scope : String) :
    (perform (r.deleteInstances k elapsedMs scope) s).2 = s ∨
      ∃ (report : DeletionReport) (s' : Store) (bs : List Batch),
        perform (r.deleteInstances k elapsedMs scope) s = (.ok report, s') ∧
          Exact r.config elapsedMs scope s s' report bs := by
  by_cases hk : k = r.guard
  · subst hk
    rcases Nat.eq_zero_or_pos r.config.batchSize with hzero | hpos
    · have hlate : ¬Late r.config elapsedMs .empty := fun h => absurd h.1 (Nat.lt_irrefl 0)
      have hnone : chosen s.graph scope r.config.batchSize DeletionReport.empty.abandoned = [] := by
        rw [chosen, hzero, List.take_zero]
      rw [perform_deleteInstances]
      exact .inl (congrArg Prod.snd (deleteBatches_done hs hfit hlate hnone _))
    · obtain ⟨report, s', bs, hp, -, he⟩ := exact_of_intact hs hg r hpos hfit elapsedMs scope
      exact .inr ⟨report, s', bs, hp, he⟩
  · have hlock : k.lock ≠ r.lock := fun h => hk (by cases k; exact congrArg Guard.mk h)
    rw [deleteInstances, perform_bind, Repository.verify, if_neg hlock]
    exact .inl rfl

/-- However the requests of a deletion conflict and whatever time passes, it ends with any fuel that suffices for the
instances, and what it reports is what it has done. -/
theorem exact_of_conflicting (refusals : Refusals) (cs : List Call) (hr : Conflicting refusals) (r : Repository)
    (hpos : 0 < r.config.batchSize) (hfit : r.config.batchSize < 1 <<< 64) (elapsedMs : Nat → Nat) (scope : String) :
    ∃ (report : DeletionReport) (s' : Store) (bs : List Batch),
      perform (r.deleteInstances r.guard elapsedMs scope) ((unused refusals).afterCalls cs) = (.ok report, s') ∧
        (∀ fuel, (victims ((unused refusals).afterCalls cs).graph scope).length < fuel →
          perform (deleteBatches r.config elapsedMs scope fuel .empty) ((unused refusals).afterCalls cs) =
            (.ok report, s')) ∧
          Exact r.config elapsedMs scope ((unused refusals).afterCalls cs) s' report bs := by
  have hg := (kept_unused refusals cs).intact
  have hs : Conflicting ((unused refusals).afterCalls cs).refusals := by
    rw [refusals_afterCalls]
    exact hr
  exact exact_of_intact hs hg r hpos hfit elapsedMs scope

section Conflicts

/-- The requests of some numbers conflict. -/
def conflicts (ns : List Nat) : Refusals :=
  ⟨none, fun n => if n ∈ ns then some (.aborted "concurrent commit") else none, fun _ => none⟩

def instances (labels : List String) : List Quad :=
  labels.flatMap fun l => [.text (.blank l) Vocabulary.typeName Vocabulary.equipmentMarker,
    .text (.blank l) Vocabulary.scopes "s1"]

/-- Three instances are made by one request. -/
def placed : List Call := [.execute (.of none [⟨none, instances ["a", "b", "c"], []⟩])]

/-- Batches of one instance, each of which may be tried twice. -/
def single : Repository := ⟨0, ⟨1, 300, 1, 0⟩⟩

theorem conflicting_conflicts (ns : List Nat) : Conflicting (conflicts ns) := by
  refine ⟨rfl, fun n e h => ?_⟩
  simp only [conflicts] at h
  split at h
  · cases h
    rfl
  · cases h

/-- A store with the instances, in which both requests for the first batch conflict, and the first for the second. -/
def conflicted : Store := (unused (conflicts [1, 2, 3])).afterCalls placed

/-- The first batch is given up, and the second is deleted when it is tried again. -/
theorem exact_conflicts : victims conflicted.graph "s1" = [⟨1⟩, ⟨2⟩, ⟨3⟩] ∧
    ∃ (report : DeletionReport) (s' : Store) (bs : List Batch),
      perform (single.deleteInstances single.guard id "s1") conflicted = (.ok report, s') ∧
        (∀ fuel, (victims conflicted.graph "s1").length < fuel →
          perform (deleteBatches single.config id "s1" fuel .empty) conflicted = (.ok report, s')) ∧
          Exact single.config id "s1" conflicted s' report bs := by
  have hr := conflicting_conflicts [1, 2, 3]
  exact ⟨by decide +kernel, exact_of_conflicting (conflicts [1, 2, 3]) placed hr single (by decide) (by decide) id "s1"⟩

example : (perform (single.deleteInstances single.guard id "s1") conflicted).1 = .ok ⟨2, 1, 3, false⟩ := by
  decide +kernel

end Conflicts

end Inventory.BatchDeletion
