import Inventory.Proofs.Graph.Requests
import Inventory.Proofs.Repository.Declarations

/-!
Stores under any calls, whether they succeed or fail. Edges stay mirrored and lead to nodes that are there, nothing
empty is kept, and uids are handed out in increasing order.
-/

namespace Inventory.Store

open Repository Inventory.Graph Outcome

variable {s : Store} {r : Request} {c : Call} {u v w : Uid} {d : Draft}

/-- A call that may change a store. -/
inductive Call
  | execute (r : Request)
  | alter (ss : List Schema.Statement)

/-- The store that a call leaves. -/
def Call.run (s : Store) : Call → Store
  | .execute r => (perform (Store.execute r) s).2
  | .alter ss => (perform (Store.alter ss) s).2

/-- The store that calls leave, one after another. -/
def afterCalls (s : Store) (cs : List Call) : Store := cs.foldl Call.run s

/-- A store with nothing in it, that refuses what it will. -/
def unused (refusals : Refusals) : Store := { Store.empty with refusals }

structure Integrity (g : Graph) : Prop where
  mirrored : ∀ s p t, t ∈ g.edges s p ↔ s ∈ g.sources t p
  transposed : ∀ s p t, t ∈ g.targets s ⟨p, false⟩ ↔ s ∈ g.targets t ⟨p, true⟩
  closed : ∀ s p t, t ∈ g.edges s p → g.contains t = true
  values : ∀ u n p vs, g.nodes.get? u = some n → n.values.get? p = some vs → vs ≠ []
  edges : ∀ u n p s, g.nodes.get? u = some n → n.edges.get? p = some s → s.items ≠ []

/-- A step of a request at which `u` is made for a subject on the draft `d`. The request may fail later. -/
def HandsOut (g : Graph) (r : Request) (d : Draft) (u : Uid) : Prop :=
  ∃ answer vars make subject us d', Answers g r.query r.vars answer vars ∧ d.Reached g vars ∧
    resolve vars make d subject = .ok (us, d') ∧ d.made? subject = none ∧ d'.made? subject = some u

/-- A request that is carried out, with a node `u` that it has made. -/
def Commits (s : Store) (c : Call) (u : Uid) : Prop :=
  ∃ r receipt answer vars d subject, c = .execute r ∧ (perform (Store.execute r) s).1 = .ok receipt ∧
    Answers s.graph r.query r.vars answer vars ∧
      r.mutations.foldlM (applyMutation vars) ⟨s.graph, .empty, .empty⟩ = .ok d ∧ d.made? subject = some u

/-- Uids that are handed out after some calls are new, and larger than any that those calls have handed out. -/
def Ascending (s : Store) (cs : List Call) : Prop :=
  ∀ r d u, HandsOut (s.afterCalls cs).graph r d u →
    ¬d.graph.contains u = true ∧ (∀ w, d.graph.contains w = true → w.value < u.value) ∧
      ∀ before c after v, cs = before ++ c :: after → Commits (s.afterCalls before) c v → v.value < u.value

theorem graph_execute (r : Request) (s : Store) :
    ((perform (Store.execute r) s).2.graph = s.graph ∧ ∀ receipt, (perform (Store.execute r) s).1 ≠ .ok receipt) ∨
      ∃ receipt, s.graph.execute r = .ok (receipt, (perform (Store.execute r) s).2.graph) := by
  rcases perform_execute (perform_step "" (Store.execute r) s) with ⟨hg, e, he⟩ | ⟨receipt, hr, -⟩
  · refine .inl ⟨hg, fun receipt hok => ?_⟩
    rw [hok] at he
    cases he
  · exact .inr ⟨receipt, hr⟩

theorem graph_alter (ss : List Schema.Statement) (s : Store) :
    Redeclared s.graph (perform (Store.alter ss) s).2.graph := by
  rcases perform_alter (perform_step "" (Store.alter ss) s) with he | he
  · exact .of_eq he
  · rw [he]
    exact (declareAll_ok s.graph ss).1

/-- What every call keeps. -/
structure Kept (g g' : Graph) : Prop where
  intact : g'.Intact
  filled : g'.Filled
  lastUid : g.lastUid ≤ g'.lastUid

theorem kept_run (hi : s.graph.Intact) (hf : s.graph.Filled) (c : Call) : Kept s.graph (c.run s).graph := by
  cases c with
  | execute r =>
      rcases graph_execute r s with ⟨hg, -⟩ | ⟨receipt, hr⟩
      · rw [Call.run, hg]
        exact ⟨hi, hf, Nat.le_refl _⟩
      · obtain ⟨vars, d, ha, hd, -, hg⟩ := execute_ok_iff.1 hr
        have hs := (Draft.Reached.applyMutations hi (known_answers hi ha) hd).sound hi
        rw [Call.run, hg]
        exact ⟨hs.overlay.intact, hs.filled hf, hs.grows⟩
  | alter ss =>
      obtain ⟨ps, ts, he⟩ := graph_alter ss s
      rw [Call.run, he]
      exact ⟨⟨hi.fresh, hi.mirrored, hi.closed⟩, hf, Nat.le_refl _⟩

theorem kept_afterCalls (hi : s.graph.Intact) (hf : s.graph.Filled) (cs : List Call) :
    Kept s.graph (s.afterCalls cs).graph := by
  induction cs generalizing s with
  | nil => exact ⟨hi, hf, Nat.le_refl _⟩
  | cons c cs ih =>
      have hc := kept_run hi hf c
      have hcs := ih hc.intact hc.filled
      exact ⟨hcs.intact, hcs.filled, Nat.le_trans hc.lastUid hcs.lastUid⟩

theorem kept_unused (refusals : Refusals) (cs : List Call) :
    Kept Graph.empty ((unused refusals).afterCalls cs).graph :=
  kept_afterCalls (s := unused refusals) Intact.empty Filled.empty cs

theorem Kept.integrity {g g' : Graph} (h : Kept g g') : Integrity g' := by
  refine ⟨h.intact.mirrored, h.intact.mirrored, h.intact.closed, fun u n p vs hn => (h.filled u n hn).values p vs, ?_⟩
  intro u n p s hn hs
  simpa [OrderedSet.isEmpty] using (h.filled u n hn).edges p s hs

theorem refusals_run (s : Store) (c : Call) : (c.run s).refusals = s.refusals := by
  cases c with
  | execute r => exact refusals_execute r s
  | alter ss => exact refusals_alter ss s

theorem refusals_afterCalls (s : Store) (cs : List Call) : (s.afterCalls cs).refusals = s.refusals := by
  induction cs generalizing s with
  | nil => rfl
  | cons c cs ih => exact (ih (c.run s)).trans (refusals_run s c)

theorem value_of_handsOut {g : Graph} (h : HandsOut g r d u) : u.value = d.graph.lastUid + 1 := by
  obtain ⟨answer, vars, make, subject, us, d', -, -, hr, hnone, hsome⟩ := h
  rcases resolve_cases hr with rfl | hm
  · rw [hnone] at hsome
    cases hsome
  · rw [hm.made, if_pos rfl] at hsome
    cases hsome
    rfl

theorem lt_of_handsOut {g : Graph} (hg : g.Intact) (h : HandsOut g r d u) :
    (∀ w, d.graph.contains w = true → w.value < u.value) ∧ g.lastUid < u.value := by
  have hu := value_of_handsOut h
  obtain ⟨answer, vars, make, subject, us, d', -, hd, -⟩ := h
  have hs := hd.sound hg
  refine ⟨fun w hw => ?_, ?_⟩
  · have hle := hs.overlay.intact.fresh w hw
    omega
  · have hle := hs.grows
    omega

theorem draft_of_commits (hi : s.graph.Intact) (h : Commits s c u) :
    ∃ (vars : Vars) (d : Draft) (subject : Subject), d.Over s.graph vars ∧ (c.run s).graph = d.graph ∧
      d.made? subject = some u := by
  obtain ⟨r, receipt, answer, vars, d, subject, rfl, hok, ha, hd, hm⟩ := h
  have he : s.graph.execute r = .ok (⟨answer, d.blanks⟩, d.graph) :=
    execute_ok_iff.2 ⟨vars, d, ha, hd, rfl, rfl⟩
  rcases graph_execute r s with ⟨-, hn⟩ | ⟨receipt', hr⟩
  · exact absurd hok (hn receipt)
  · rw [he] at hr
    have hg : d.graph = (Call.run s (.execute r)).graph := (Prod.mk.inj (Except.ok.inj hr)).2
    have hs := (Draft.Reached.applyMutations hi (known_answers hi ha) hd).sound hi
    exact ⟨vars, d, subject, hs.overlay, hg.symm, hm⟩

theorem le_of_commits (hi : s.graph.Intact) (h : Commits s c u) : u.value ≤ (c.run s).graph.lastUid := by
  obtain ⟨vars, d, subject, ho, hg, hm⟩ := draft_of_commits hi h
  rw [hg]
  exact ho.intact.fresh u (ho.made_new subject u hm).1

/-- The uids that a request hands out are those of the nodes that are new after it. -/
theorem commits_iff {receipt : Receipt} (hi : s.graph.Intact)
    (hok : (perform (Store.execute r) s).1 = .ok receipt) : Commits s (.execute r) u ↔
      (Call.run s (.execute r)).graph.contains u = true ∧ ¬s.graph.contains u = true := by
  constructor
  · intro h
    obtain ⟨vars, d, subject, ho, hg, hm⟩ := draft_of_commits hi h
    rw [hg]
    exact ho.made_new subject u hm
  · rintro ⟨hu, hold⟩
    rcases graph_execute r s with ⟨-, hn⟩ | ⟨receipt', hr⟩
    · exact absurd hok (hn receipt)
    · obtain ⟨vars, d, ha, hd, -, hg⟩ := execute_ok_iff.1 hr
      have hs := (Draft.Reached.applyMutations hi (known_answers hi ha) hd).sound hi
      rw [Call.run, hg] at hu
      obtain ⟨subject, hm⟩ := (hs.overlay.made_all u hu).resolve_left hold
      exact ⟨r, receipt, _, vars, d, subject, rfl, hok, ha, hd, hm⟩

theorem ascending_afterCalls (hi : s.graph.Intact) (hf : s.graph.Filled) (cs : List Call) : Ascending s cs := by
  intro r d u hu
  obtain ⟨hbelow, hlast⟩ := lt_of_handsOut (kept_afterCalls hi hf cs).intact hu
  refine ⟨fun hc => Nat.lt_irrefl _ (hbelow u hc), hbelow, ?_⟩
  rintro before c after v rfl hv
  have hk := kept_afterCalls hi hf before
  have hv := le_of_commits hk.intact hv
  have hc := kept_run hk.intact hk.filled c
  have hrest := (kept_afterCalls hc.intact hc.filled after).lastUid
  have hsplit : s.afterCalls (before ++ c :: after) = (c.run (s.afterCalls before)).afterCalls after := by
    simp [afterCalls]
  rw [hsplit] at hlast
  omega

/-- After any calls on a store that was empty, edges are kept at both of their ends and lead to nodes that are there,
no list of values and no set of edges is empty, and uids are handed out in increasing order. -/
theorem integrity_afterCalls (refusals : Refusals) (cs : List Call) :
    Integrity ((unused refusals).afterCalls cs).graph ∧ Ascending (unused refusals) cs :=
  ⟨(kept_unused refusals cs).integrity,
    ascending_afterCalls (s := unused refusals) Intact.empty Filled.empty cs⟩

end Inventory.Store
