import Inventory.Proofs.BatchDeletion

/-!
Deletions that report to be complete. A batch without instances is taken for the end, so that the report can be trusted
exactly if batches take instances at all. All settings see to that, except for a size that a document has given.
-/

namespace Inventory.CompleteDeletions

open Inventory.Graph Store Repository BatchDeletion

variable {c : DeletionConfig} {s s' : Store} {scope : String} {size skip retries fuel : Nat}
  {report report' : DeletionReport} {elapsedMs : Nat → Nat} {o : Option Nat}

/-- Where settings come from, before any of them is changed. -/
inductive Origin
  | standard
  | setting (raw : Option String)
  | document (d : Document)

def Origin.settings? : Origin → Option DeletionConfig
  | standard => some .standard
  | setting raw => some (.ofSetting raw)
  | document d => DeletionConfig.ofDocument? d

/-- A change of one setting. -/
inductive Adjustment
  | batchSize (n : Nat) (h : n < 1 <<< 64)
  | deadlineMs (ms : Nat)
  | maxRetries (n : Nat)
  | retryBackoffUs (us : Nat)

def Adjustment.apply (c : DeletionConfig) : Adjustment → DeletionConfig
  | batchSize n _ => c.withBatchSize n
  | deadlineMs ms => c.withDeadlineMs ms
  | maxRetries n => c.withMaxRetries n
  | retryBackoffUs us => c.withRetryBackoffUs us

/-- The settings of an origin, changed one after another. -/
def adjusted? (origin : Origin) (as : List Adjustment) : Option DeletionConfig :=
  origin.settings?.map fun c => as.foldl Adjustment.apply c

/-- A document has given zero as the size of batches, and no change has set it since. -/
def LeftZero (origin : Origin) (as : List Adjustment) : Prop :=
  (∃ d c, origin = .document d ∧ DeletionConfig.ofDocument? d = some c ∧ c.batchSize = 0) ∧
    ∀ n h, .batchSize n h ∉ as

/-- Whatever a store holds and refuses, a deletion that reports to be complete leaves no instance of its scope. -/
def Trusted (c : DeletionConfig) : Prop :=
  ∀ (lock : Nat) (k : Guard) (elapsedMs : Nat → Nat) (scope : String) (refusals : Refusals) (cs : List Call)
    (report : DeletionReport) (s' : Store),
    perform (Repository.deleteInstances ⟨lock, c⟩ k elapsedMs scope) ((unused refusals).afterCalls cs) =
      (.ok report, s') → report.isComplete = true → victims s'.graph scope = []

section Sizes

variable {origin : Origin} {as : List Adjustment} {d : Document}

theorem lt_of_isUnsigned {n : Nat} (h : Bits.isUnsigned 64 n) : n < 1 <<< 64 := by
  rw [Bits.isUnsigned_64_iff] at h
  omega

theorem batchSize_ofSetting (raw : Option String) :
    0 < (DeletionConfig.ofSetting raw).batchSize ∧ (DeletionConfig.ofSetting raw).batchSize < 1 <<< 64 := by
  unfold DeletionConfig.ofSetting
  split
  · rename_i n h
    obtain ⟨text, -, hn⟩ := Option.bind_eq_some_iff.1 h
    obtain ⟨hread, hpos⟩ := Option.filter_eq_some_iff.1 hn
    obtain ⟨-, hbits⟩ := Option.filter_eq_some_iff.1 hread
    exact ⟨of_decide_eq_true hpos, lt_of_isUnsigned (n := n) (by simpa using hbits)⟩
  · decide

theorem lt_of_nat? {n : Nat} (h : Document.nat? 64 d = some n) : n < 1 <<< 64 := by
  unfold Document.nat? at h
  split at h
  · rename_i i
    split at h
    · rename_i hi
      cases h
      refine lt_of_isUnsigned ?_
      rw [Bits.isUnsigned_64_iff] at hi ⊢
      omega
    · cases h
  · cases h

theorem batchSize_ofDocument (h : DeletionConfig.ofDocument? d = some c) : c.batchSize < 1 <<< 64 := by
  unfold DeletionConfig.ofDocument? at h
  obtain ⟨fields, -, h⟩ := Option.bind_eq_some_iff.1 h
  split at h
  · rename_i size _ _ _
    obtain ⟨n, hn, h⟩ := Option.bind_eq_some_iff.1 h
    obtain ⟨deadlineSecs, -, h⟩ := Option.bind_eq_some_iff.1 h
    obtain ⟨maxRetries, -, h⟩ := Option.bind_eq_some_iff.1 h
    obtain ⟨retryBackoffMs, -, h⟩ := Option.bind_eq_some_iff.1 h
    cases h
    cases size with
    | none =>
        cases hn
        exact (by decide : DeletionConfig.standard.batchSize < 1 <<< 64)
    | some d => exact lt_of_nat? hn
  · cases h

theorem batchSize_foldl (c : DeletionConfig) (as : List Adjustment) :
    (as.foldl Adjustment.apply c).batchSize = 0 ↔ c.batchSize = 0 ∧ ∀ n h, .batchSize n h ∉ as := by
  induction as generalizing c with
  | nil => simp
  | cons a as ih =>
      rw [List.foldl_cons, ih]
      cases a with
      | batchSize n h =>
          have hne : max n 1 ≠ 0 := by omega
          constructor
          · intro hz
            exact absurd hz.1 hne
          · intro hz
            exact absurd List.mem_cons_self (hz.2 n h)
      | deadlineMs _ | maxRetries _ | retryBackoffUs _ =>
          simp [Adjustment.apply, DeletionConfig.withDeadlineMs, DeletionConfig.withMaxRetries,
            DeletionConfig.withRetryBackoffUs]

theorem batchSize_lt (h : adjusted? origin as = some c) : c.batchSize < 1 <<< 64 := by
  obtain ⟨c₀, hc₀, rfl⟩ := Option.map_eq_some_iff.1 h
  have hstart : c₀.batchSize < 1 <<< 64 := by
    cases origin with
    | standard =>
        cases hc₀
        decide
    | setting raw =>
        cases hc₀
        exact (batchSize_ofSetting raw).2
    | document d => exact batchSize_ofDocument hc₀
  clear h hc₀
  induction as generalizing c₀ with
  | nil => exact hstart
  | cons a as ih =>
      refine ih _ ?_
      cases a with
      | batchSize n h => exact Nat.max_lt.2 ⟨h, by decide⟩
      | deadlineMs _ | maxRetries _ | retryBackoffUs _ => exact hstart

theorem batchSize_eq_zero_iff (h : adjusted? origin as = some c) : c.batchSize = 0 ↔ LeftZero origin as := by
  obtain ⟨c₀, hc₀, rfl⟩ := Option.map_eq_some_iff.1 h
  rw [batchSize_foldl, LeftZero]
  refine and_congr_left' ⟨fun hz => ?_, ?_⟩
  · cases origin with
    | standard =>
        cases hc₀
        cases hz
    | setting raw =>
        cases hc₀
        exact absurd hz (Nat.ne_of_gt (batchSize_ofSetting raw).1)
    | document d => exact ⟨d, c₀, rfl, hc₀, hz⟩
  · rintro ⟨d, c, rfl, hc, hz⟩
    cases hc₀.symm.trans hc
    exact hz

end Sizes

section Loop

theorem isComplete_iff {r : DeletionReport} : r.isComplete = true ↔ r.abandoned = 0 ∧ r.deadlineExceeded = false := by
  simp [DeletionReport.isComplete]

theorem tryBatch_cases (hg : s.graph.Intact) (hsize : size < 1 <<< 64) (hne : chosen s.graph scope size skip ≠ [])
    (h : perform (tryBatch (batchQuery scope size skip)) s = (.ok o, s')) :
    (o = none ∧ s'.graph = s.graph) ∨
      ∃ n, o = some n ∧ Cleared (chosen s.graph scope size skip) s.graph s'.graph := by
  rw [tryBatch, perform_tryCatch, perform_bind] at h
  rcases hp : perform (write deletionName (some (batchQuery scope size skip)) [batchMutation]) s with ⟨r, t⟩
  rw [hp] at h
  rcases perform_execute hp with ⟨hsame, e, rfl⟩ | ⟨receipt, he, rfl⟩
  · simp only at h
    split at h
    · cases h
      exact .inl ⟨rfl, hsame⟩
    · cases h
  · cases h
    obtain ⟨receipt', g', he', -, hc⟩ := execute_batch hg hsize hne
    rw [he] at he'
    cases he'
    exact .inr ⟨_, rfl, hc⟩

theorem deleteBatch_cases (hg : s.graph.Intact) (hsize : size < 1 <<< 64) (hne : chosen s.graph scope size skip ≠ [])
    (h : perform (deleteBatch (batchQuery scope size skip) retries) s = (.ok o, s')) :
    (o = none ∧ s'.graph = s.graph) ∨
      ∃ n, o = some n ∧ Cleared (chosen s.graph scope size skip) s.graph s'.graph := by
  induction retries generalizing s with
  | zero => exact tryBatch_cases hg hsize hne h
  | succ retries ih =>
      rcases perform_bind_cases h with ⟨e, -, he⟩ | ⟨n, t, hn, h⟩
      · cases he
      · rcases tryBatch_cases hg hsize hne hn with ⟨rfl, ht⟩ | ⟨n, rfl, hc⟩
        · have hi := ih (s := t) (ht ▸ hg) (ht ▸ hne) h
          rwa [ht] at hi
        · cases h
          exact .inr ⟨n, rfl, hc⟩

theorem length_victims_of_cleared {g g' : Graph} {us : List Uid} (hus : us ⊆ victims g scope) (hne : us ≠ [])
    (h : Cleared us g g') : (victims g' scope).length < (victims g scope).length := by
  obtain ⟨u, hu⟩ := List.exists_mem_of_ne_nil us hne
  rw [victims_of_cleared h]
  exact List.length_filter_lt_length_iff_exists.2 ⟨u, hus hu, by simpa using hu⟩

/-- A deletion ends late or with a batch of nothing. Otherwise it goes on, past the instances of a batch or without
them. -/
theorem round_cases (hg : s.graph.Intact) (hfit : c.batchSize < 1 <<< 64)
    (h : perform (deleteBatches c elapsedMs scope (fuel + 1) report) s = (.ok report', s')) :
    report'.deadlineExceeded = true ∨
      (chosen s.graph scope c.batchSize report.abandoned = [] ∧ report' = report ∧ s' = s) ∨
      ∃ next t, chosen s.graph scope c.batchSize report.abandoned ≠ [] ∧
        perform (deleteBatches c elapsedMs scope fuel next) t = (.ok report', s') ∧
        ((t.graph = s.graph ∧ report.abandoned < next.abandoned) ∨
          (Cleared (chosen s.graph scope c.batchSize report.abandoned) s.graph t.graph ∧
            next.abandoned = report.abandoned)) := by
  rw [deleteBatches] at h
  split at h
  · cases h
    exact .inl rfl
  · rcases (Yields.answered _ _ _).step h with ⟨-, e, he⟩ | ⟨answer, ⟨-, vars, he⟩, -, h⟩
    · cases he
    · obtain ⟨answer', vars', he', hcount, -⟩ := evaluate_batch s.graph scope report.abandoned hfit
      rw [he] at he'
      cases he'
      simp only [hcount] at h
      split at h
      · rename_i hnone
        cases h
        exact .inr (.inl ⟨List.length_eq_zero_iff.1 hnone, rfl, rfl⟩)
      · rename_i hsome
        have hne := List.ne_nil_of_length_pos (Nat.pos_of_ne_zero hsome)
        rcases perform_bind_cases h with ⟨e, -, he⟩ | ⟨o, t, ho, h⟩
        · cases he
        · rcases deleteBatch_cases hg hfit hne ho with ⟨rfl, ht⟩ | ⟨n, rfl, hcleared⟩
          · exact .inr (.inr ⟨_, t, hne, h, .inl ⟨ht, Nat.lt_add_of_pos_right (Nat.pos_of_ne_zero hsome)⟩⟩)
          · exact .inr (.inr ⟨_, t, hne, h, .inr ⟨hcleared, rfl⟩⟩)

/-- Batches that delete or pass over something come to an end with the instances, and the fuel lasts until then. -/
theorem victims_of_complete (hpos : 0 < c.batchSize) (hfit : c.batchSize < 1 <<< 64) (hg : s.graph.Intact)
    (hfuel : (victims s.graph scope).length < fuel + report.abandoned)
    (h : perform (deleteBatches c elapsedMs scope fuel report) s = (.ok report', s'))
    (hc : report'.isComplete = true) : report.abandoned = 0 ∧ victims s'.graph scope = [] := by
  induction fuel generalizing s report with
  | zero =>
      cases h
      have ha := (isComplete_iff.1 hc).1
      omega
  | succ fuel ih =>
      rcases round_cases hg hfit h with hlate | ⟨hnone, rfl, rfl⟩ | ⟨next, t, hne, h, ⟨ht, hmore⟩ | ⟨hcleared, hsame⟩⟩
      · rw [(isComplete_iff.1 hc).2] at hlate
        cases hlate
      · have ha := (isComplete_iff.1 hc).1
        refine ⟨ha, ?_⟩
        rw [ha, chosen, List.drop_zero] at hnone
        exact (List.take_eq_nil_iff.1 hnone).resolve_left (Nat.ne_of_gt hpos)
      · have hnext := (ih (ht ▸ hg) (by rw [ht]; omega) h).1
        omega
      · have hfewer := length_victims_of_cleared (chosen_sublist _ _ _ _).subset hne hcleared
        have hend := ih hcleared.intact (by omega) h
        rwa [hsame] at hend

end Loop

theorem trusted_of_pos (hpos : 0 < c.batchSize) (hfit : c.batchSize < 1 <<< 64) : Trusted c := by
  intro lock k elapsedMs scope refusals cs report s' h hc
  have hg := (kept_unused refusals cs).intact
  rw [deleteInstances] at h
  rcases (Yields.verify _ _ _).step h with ⟨-, e, he⟩ | ⟨-, -, -, h⟩
  · cases he
  · exact (victims_of_complete hpos hfit hg (Nat.lt_succ_of_le (length_victims_le _ scope)) h hc).2

/-- One instance, in the scope `s1`. -/
def oneInstance : List Call :=
  [.execute (.of none [⟨none, [.text (.blank "x") Vocabulary.typeName Vocabulary.equipmentMarker,
    .text (.blank "x") Vocabulary.scopes "s1"], []⟩])]

theorem victims_oneInstance : victims ((unused .none).afterCalls oneInstance).graph "s1" = [⟨1⟩] := by
  decide +kernel

theorem not_trusted_of_zero (h : c.batchSize = 0) : ¬Trusted c := by
  intro ht
  let s := (unused .none).afterCalls oneInstance
  have hs : Conflicting s.refusals := by
    rw [refusals_afterCalls]
    exact ⟨rfl, fun _ _ he => by cases he⟩
  have hlate : ¬Late c id .empty := fun hl => absurd hl.1 (Nat.lt_irrefl 0)
  have hnone : chosen s.graph "s1" c.batchSize DeletionReport.empty.abandoned = [] := by
    rw [chosen, h, List.take_zero]
  have hdone := (perform_deleteInstances ⟨0, c⟩ id "s1" s).trans
    (deleteBatches_done hs (by rw [h]; decide) hlate hnone s.graph.size)
  have hvictims := ht 0 ⟨0⟩ id "s1" .none oneInstance .empty s hdone rfl
  rw [victims_oneInstance] at hvictims
  cases hvictims

/-- Settings from anywhere can be trusted exactly unless a document has given zero as the size of batches and nothing
has set it since. -/
theorem trusted_iff {origin : Origin} {as : List Adjustment} (h : adjusted? origin as = some c) :
    Trusted c ↔ ¬LeftZero origin as := by
  rw [← batchSize_eq_zero_iff h]
  constructor
  · exact fun ht hz => not_trusted_of_zero hz ht
  · exact fun hz => trusted_of_pos (Nat.pos_of_ne_zero hz) (batchSize_lt h)

/-- A document that gives the size of batches alone. -/
def sized (n : Int) : Document := .obj [(some "batch_size", .num (some (.int n)))]

/-- A size of zero that is set anew is one, and can be trusted. -/
theorem trusted_of_zero_set : adjusted? (.document (sized 0)) [.maxRetries 5, .batchSize 0 (by decide)] =
    some ⟨1, 300, 5, 1000⟩ ∧ Trusted ⟨1, 300, 5, 1000⟩ := by
  have h : adjusted? (.document (sized 0)) [.maxRetries 5, .batchSize 0 (by decide)] = some ⟨1, 300, 5, 1000⟩ := by
    decide +kernel
  refine ⟨h, (trusted_iff h).2 fun hz => hz.2 0 (by decide) (by simp)⟩

theorem not_trusted_sizedZero : DeletionConfig.ofDocument? (sized 0) = some ⟨0, 300, 2, 1000⟩ ∧
    ¬Trusted ⟨0, 300, 2, 1000⟩ := by
  have h : DeletionConfig.ofDocument? (sized 0) = some ⟨0, 300, 2, 1000⟩ := by decide +kernel
  exact ⟨h, not_trusted_of_zero rfl⟩

end Inventory.CompleteDeletions
