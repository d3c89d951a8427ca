import Inventory.Proofs.StoreIntegrity
import Mathlib.Data.List.Induction
import Mathlib.Data.List.Sort

/-!
Predicates that are declared, and not as lists. Whether a value or an edge replaces those before it depends on what is
declared when it is written, so that a node has several only if it had them when the predicate was declared so, and
then only some of those.
-/

namespace Inventory.SinglePredicates

open Inventory.Graph Store Repository Outcome

variable {g g' : Graph} {vars : Vars} {d d' : Draft} {f : Graph → Uid → Graph} {u w : Uid} {p : String} {s : Store}
  {r : Request} {cs : List Call}

/-- A predicate is declared, and not as a list. -/
def Single (g : Graph) (p : String) : Prop := (g.predicates.get? p).map (·.list) = some false

instance (g : Graph) (p : String) : Decidable (Single g p) := decEq ..

/-- Each node has one value and one edge of a predicate at most. -/
def AtMostOne (g : Graph) (p : String) : Prop :=
  ∀ u, (g.values u p).length ≤ 1 ∧ (g.edges u p).items.length ≤ 1

/-- Some of what was there is left, or one thing at most. -/
def Dwindles {α : Type} (before after : List α) : Prop := after.length ≤ 1 ∨ after.Sublist before

section Dwindling

variable {α : Type} {vs ws xs : List α}

theorem Dwindles.refl (vs : List α) : Dwindles vs vs := .inr (List.Sublist.refl vs)

theorem Dwindles.of_eq (h : ws = vs) : Dwindles vs ws := h ▸ .refl vs

theorem Dwindles.length_le (h : Dwindles vs ws) (hv : vs.length ≤ 1) : ws.length ≤ 1 := by
  rcases h with h | h
  · exact h
  · exact Nat.le_trans h.length_le hv

theorem Dwindles.trans (h : Dwindles vs ws) (h' : Dwindles ws xs) : Dwindles vs xs := by
  rcases h with h | h
  · exact .inl (h'.length_le h)
  · rcases h' with h' | h'
    · exact .inl h'
    · exact .inr (h'.trans h)

theorem dwindles_of_subset {s t : UidSet} (h : ∀ v ∈ t, v ∈ s) : Dwindles s.items t.items := by
  have hsubperm : t.items.Subperm s.items := List.subperm_of_subset t.increasing.nodup h
  exact .inr (List.sublist_of_subperm_of_pairwise hsubperm t.increasing s.increasing)

end Dwindling

/-- What becomes of the cells of a predicate where writing to them replaces what is there. -/
structure Thins (p : String) (g g' : Graph) : Prop where
  predicates : g'.predicates = g.predicates
  values : g.isList p = false → ∀ u, Dwindles (g.values u p) (g'.values u p)
  edges : g.keepsEdges p = false → ∀ u, Dwindles (g.edges u p).items (g'.edges u p).items

section Steps

variable {q : String} {v : Json}

theorem Thins.refl (p : String) (g : Graph) : Thins p g g := ⟨rfl, fun _ _ => .refl _, fun _ _ => .refl _⟩

theorem Thins.trans {g'' : Graph} (h : Thins p g g') (h' : Thins p g' g'') : Thins p g g'' := by
  refine ⟨h'.predicates.trans h.predicates, fun hp u => (h.values hp u).trans (h'.values ?_ u),
    fun hp u => (h.edges hp u).trans (h'.edges ?_ u)⟩
  · rwa [isList, h.predicates]
  · rwa [keepsEdges, h.predicates]

theorem thins_foldl {α : Type} {f : Graph → α → Graph} (hf : ∀ g a, Thins p g (f g a)) (as : List α) :
    Thins p g (as.foldl f g) :=
  List.foldlRecOn as f (Thins.refl p g) fun g' h a _ => h.trans (hf g' a)

theorem thins_setValue (g : Graph) (u : Uid) : Thins p g (g.setValue u q v) := by
  refine ⟨predicates_setValue g u q v, fun hp w => ?_, fun _ w => .of_eq (by rw [edges_setValue])⟩
  rw [values_setValue]
  split
  · rename_i h
    rw [← h.2.2, hp]
    exact .inl (Nat.le_refl 1)
  · exact .refl _

theorem thins_setEdge (g : Graph) (u t : Uid) : Thins p g (g.setEdge u q t) := by
  refine ⟨predicates_setEdge g u t q, fun _ w => .of_eq (values_setEdge ..), fun hp w => ?_⟩
  rw [edges_setEdge]
  split
  · rename_i h
    rw [← h.2.2, hp]
    exact .inl (Nat.le_refl 1)
  · exact .refl _

theorem thins_modifyValues {k : List Json → List Json} (hk : ∀ vs, (k vs).Sublist vs) (g : Graph) (u : Uid) :
    Thins p g (g.modifyValues u q k) := by
  refine ⟨predicates_modifyNode g u _, fun _ w => ?_, fun _ w => .of_eq (by rw [edges_modifyValues])⟩
  rw [values_modifyValues]
  split
  · rename_i h
    rw [h.2.1, h.2.2]
    exact .inr (hk _)
  · exact .refl _

theorem thins_removeEdge (g : Graph) (u t : Uid) : Thins p g (g.removeEdge u q t) :=
  ⟨predicates_removeEdge g u t q, fun _ _ => .of_eq (values_removeEdge ..), fun _ w =>
    dwindles_of_subset fun _ hv => ((mem_edges_removeEdge g u w t q p).1 hv).1⟩

theorem thins_clearAll (g : Graph) (u : Uid) : Thins p g (g.clearAll u) := by
  refine ⟨predicates_clearAll g u, fun _ w => ?_, fun _ w => ?_⟩
  · rw [values_clearAll]
    split
    · exact .inl (Nat.zero_le 1)
    · exact .refl _
  · rw [edges_clearAll]
    split
    · exact .inl (Nat.zero_le 1)
    · exact .refl _

theorem thins_edit (h : Edit d f) (g : Graph) (u : Uid) : Thins p g (f g u) := by
  cases h with
  | setValue q v => exact thins_setValue g u
  | setEdges q ts h => exact thins_foldl (fun g t => thins_setEdge g u t) ts
  | removeValue q v => exact thins_modifyValues (fun vs => List.filter_sublist) g u
  | removeEdges q ts => exact thins_foldl (fun g t => thins_removeEdge g u t) ts
  | clearPredicate q =>
      have hvalues : Thins p g (g.clearValues u q) := thins_modifyValues (fun vs => List.nil_sublist vs) g u
      exact hvalues.trans (thins_foldl (fun g t => thins_removeEdge g u t) _)
  | clearAll => exact thins_clearAll g u

theorem thins_allocate (hg : g.Intact) : Thins p g g.allocate.2 := by
  have hnew := hg.not_contains_next
  refine ⟨rfl, fun _ w => .of_eq ?_, fun _ w => .of_eq ?_⟩
  · exact values_allocate g w p hnew
  · rw [edges_allocate g w p hnew]

theorem thins_reached (hg : g.Intact) (h : d.Reached g vars) : Thins p g d.graph := by
  induction h with
  | start => exact .refl p g
  | resolved hd h ih =>
      rcases resolve_cases h with rfl | hm
      · exact ih
      · rw [hm.graph]
        exact ih.trans (thins_allocate (hd.sound hg).overlay.intact)
  | edited hd h us ih => exact ih.trans (thins_foldl (thins_edit h) us)

theorem thins_execute (hg : s.graph.Intact) (r : Request) : Thins p s.graph (Call.run s (.execute r)).graph := by
  rcases graph_execute r s with ⟨he, -⟩ | ⟨receipt, hr⟩
  · rw [Call.run, he]
    exact .refl p s.graph
  · obtain ⟨vars, d, ha, hd, -, he⟩ := execute_ok_iff.1 hr
    rw [Call.run, he]
    exact thins_reached hg (.applyMutations hg (known_answers hg ha) hd)

end Steps

section Runs

variable {refusals : Refusals} {c : Call} {ss : List Schema.Statement} {before after : List Call}

theorem afterCalls_concat (s : Store) (cs : List Call) (c : Call) :
    s.afterCalls (cs ++ [c]) = c.run (s.afterCalls cs) := List.foldl_concat ..

theorem undeclared_of_declareAll (h : (g.declareAll ss).2.predicates.get? p = none) : g.predicates.get? p = none := by
  induction ss generalizing g with
  | nil => exact h
  | cons st ss ih =>
      cases hd : g.declare st with
      | error f =>
          simp only [declareAll, hd] at h
          exact h
      | ok g' =>
          simp only [declareAll, hd] at h
          obtain ⟨-, rfl⟩ := declare_ok_iff.1 hd
          have hg' := ih h
          cases st with
          | predicate q =>
              rw [withStatements_predicate, Table.get?_insert] at hg'
              split at hg'
              · cases hg'
              · exact hg'
          | type t => exact hg'

theorem undeclared_of_run (hg : s.graph.Intact) (h : (c.run s).graph.predicates.get? p = none) :
    s.graph.predicates.get? p = none := by
  cases c with
  | execute r => rwa [(thins_execute (p := p) hg r).predicates] at h
  | alter ss =>
      rcases perform_alter (perform_step "" (Store.alter ss) s) with he | he
      · rwa [Call.run, he] at h
      · rw [Call.run, he] at h
        exact undeclared_of_declareAll h

theorem cells_alter (s : Store) (ss : List Schema.Statement) (u : Uid) (p : String) :
    (Call.run s (.alter ss)).graph.values u p = s.graph.values u p ∧
      (Call.run s (.alter ss)).graph.edges u p = s.graph.edges u p := by
  obtain ⟨ps, ts, he⟩ := graph_alter ss s
  rw [Call.run, he]
  exact ⟨rfl, rfl⟩

/-- Values of a predicate that has never been declared replace each other. -/
theorem values_of_undeclared (h : ((unused refusals).afterCalls cs).graph.predicates.get? p = none) (u : Uid) :
    (((unused refusals).afterCalls cs).graph.values u p).length ≤ 1 := by
  induction cs using List.reverseRecOn with
  | nil => exact Nat.zero_le 1
  | append_singleton cs c ih =>
      have hg := (kept_unused refusals cs).intact
      rw [afterCalls_concat] at h ⊢
      have hu := undeclared_of_run hg h
      cases c with
      | execute r =>
          have hlist : ((unused refusals).afterCalls cs).graph.isList p = false := by rw [isList, hu]; rfl
          exact ((thins_execute hg r).values hlist u).length_le (ih hu)
      | alter ss =>
          rw [(cells_alter _ ss u p).1]
          exact ih hu

theorem Single.isList (h : Single g p) : g.isList p = false := by
  rw [Graph.isList, h]
  rfl

theorem Single.keepsEdges (h : Single g p) : g.keepsEdges p = false := by
  rw [Graph.keepsEdges, h]
  rfl

/-- The predicate is made single by one of the calls and stays so, while the cells dwindle that were there before. -/
structure SingledBy (s : Store) (p : String) (before : List Call) (ss : List Schema.Statement) (after : List Call) :
    Prop where
  not_before : ¬Single (s.afterCalls before).graph p
  since : ∀ pre, pre <+: after → Single (s.afterCalls (before ++ .alter ss :: pre)).graph p
  values : ∀ u, Dwindles ((s.afterCalls before).graph.values u p)
    ((s.afterCalls (before ++ .alter ss :: after)).graph.values u p)
  edges : ∀ u, Dwindles ((s.afterCalls before).graph.edges u p).items
    ((s.afterCalls (before ++ .alter ss :: after)).graph.edges u p).items

/-- The cells of a single predicate dwindle under any call. -/
theorem dwindles_run (hg : s.graph.Intact) (h : Single s.graph p) (c : Call) (u : Uid) :
    Dwindles (s.graph.values u p) ((c.run s).graph.values u p) ∧
      Dwindles (s.graph.edges u p).items ((c.run s).graph.edges u p).items := by
  cases c with
  | execute r =>
      have ht := thins_execute (p := p) hg r
      exact ⟨ht.values h.isList u, ht.edges h.keepsEdges u⟩
  | alter ss =>
      obtain ⟨hv, he⟩ := cells_alter s ss u p
      rw [hv, he]
      exact ⟨.refl _, .refl _⟩

theorem SingledBy.concat (h : SingledBy s p before ss after)
    (hg : (s.afterCalls (before ++ .alter ss :: after)).graph.Intact)
    (hc : Single (s.afterCalls (before ++ .alter ss :: (after ++ [c]))).graph p) :
    SingledBy s p before ss (after ++ [c]) := by
  have hsingle := h.since after (List.prefix_refl after)
  have hrun : s.afterCalls (before ++ .alter ss :: (after ++ [c])) =
      c.run (s.afterCalls (before ++ .alter ss :: after)) := by
    rw [← afterCalls_concat, List.append_assoc, List.cons_append]
  refine ⟨h.not_before, fun pre hpre => ?_, fun u => ?_, fun u => ?_⟩
  · rcases List.prefix_concat_iff.1 hpre with rfl | hpre
    · exact hc
    · exact h.since pre hpre
  · rw [hrun]
    exact (h.values u).trans (dwindles_run hg hsingle c u).1
  · rw [hrun]
    exact (h.edges u).trans (dwindles_run hg hsingle c u).2

theorem exists_singledBy (h : Single ((unused refusals).afterCalls cs).graph p) :
    ∃ before ss after, cs = before ++ .alter ss :: after ∧ SingledBy (unused refusals) p before ss after := by
  induction cs using List.reverseRecOn with
  | nil => cases h
  | append_singleton cs c ih =>
      have hg := (kept_unused refusals cs).intact
      by_cases hs : Single ((unused refusals).afterCalls cs).graph p
      · obtain ⟨before, ss, after, rfl, hb⟩ := ih hs
        rw [List.append_assoc, List.cons_append] at h ⊢
        exact ⟨before, ss, after ++ [c], rfl, hb.concat hg h⟩
      · rw [afterCalls_concat] at h
        cases c with
        | execute r =>
            rw [Single, (thins_execute (p := p) hg r).predicates] at h
            exact absurd h hs
        | alter ss =>
            have hcells := cells_alter ((unused refusals).afterCalls cs) ss
            refine ⟨cs, ss, [], rfl, hs, fun pre hpre => ?_, fun u => ?_, fun u => ?_⟩
            · rw [List.prefix_nil.1 hpre, afterCalls_concat]
              exact h
            · rw [afterCalls_concat, (hcells u p).1]
              exact .refl _
            · rw [afterCalls_concat, (hcells u p).2]
              exact .refl _

/-- After any calls, a predicate that is declared and not as a list has been made so by one of them, for good. Each node
has one value and one edge of it at most, or some of those that it had before that call. -/
theorem singledBy_of_single (h : Single ((unused refusals).afterCalls cs).graph p) :
    ∃ before ss after, cs = before ++ .alter ss :: after ∧ SingledBy (unused refusals) p before ss after ∧
      (((unused refusals).afterCalls before).graph.predicates.get? p = none →
        ∀ u, (((unused refusals).afterCalls cs).graph.values u p).length ≤ 1) := by
  obtain ⟨before, ss, after, rfl, hb⟩ := exists_singledBy h
  exact ⟨before, ss, after, rfl, hb, fun hu u => (hb.values u).length_le (values_of_undeclared hu u)⟩

end Runs

/-- A node with edges to two others, over a predicate that is declared afterwards. -/
def linkedTwice : List Call :=
  let quads := [.edge (.blank "a") "link" (.blank "b"), .edge (.blank "a") "link" (.blank "c")]
  [.execute (.of none [⟨none, quads, []⟩]), .alter [.predicate (.new "link" .uid)]]

theorem singledBy_linkedTwice : Single ((unused .none).afterCalls linkedTwice).graph "link" ∧
    ∃ before ss after, linkedTwice = before ++ .alter ss :: after ∧
      SingledBy (unused .none) "link" before ss after ∧
      (((unused .none).afterCalls before).graph.predicates.get? "link" = none →
        ∀ u, (((unused .none).afterCalls linkedTwice).graph.values u "link").length ≤ 1) := by
  have h : Single ((unused .none).afterCalls linkedTwice).graph "link" := by decide +kernel
  exact ⟨h, singledBy_of_single h⟩

theorem not_atMostOne_linkedTwice : Single ((unused .none).afterCalls linkedTwice).graph "link" ∧
    ¬AtMostOne ((unused .none).afterCalls linkedTwice).graph "link" := by
  have hedges : (((unused .none).afterCalls linkedTwice).graph.edges ⟨1⟩ "link").items = [⟨2⟩, ⟨3⟩] := by
    decide +kernel
  refine ⟨by decide +kernel, fun h => ?_⟩
  have hone := (h ⟨1⟩).2
  rw [hedges] at hone
  exact absurd hone (by decide)

end Inventory.SinglePredicates
