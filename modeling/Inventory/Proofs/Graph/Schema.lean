import Inventory.Proofs.Graph.Drafts

/-!
What has been declared stays so under any request, and changes only where statements are declared.
-/

namespace Inventory.Graph

open Store Outcome

variable {g g' g'' : Graph} {vars : Vars} {d d' : Draft} {s : Subject} {us : List Uid} {u t : Uid} {p : String}
  {q : Quad}

/-- Two graphs with the same declarations. -/
def SameSchema (g g' : Graph) : Prop := g'.predicates = g.predicates ∧ g'.types = g.types

theorem SameSchema.refl (g : Graph) : SameSchema g g := ⟨rfl, rfl⟩

theorem SameSchema.trans (h : SameSchema g g') (h' : SameSchema g' g'') : SameSchema g g'' :=
  ⟨h'.1.trans h.1, h'.2.trans h.2⟩

theorem sameSchema_foldl {α : Type} {f : Graph → α → Graph} (hf : ∀ g a, SameSchema g (f g a)) (as : List α) :
    SameSchema g (as.foldl f g) :=
  List.foldlRecOn as f (SameSchema.refl g) fun g' h a _ => h.trans (hf g' a)

section Edits

variable (g u p)

theorem sameSchema_modifyNode (f : Node → Node) : SameSchema g (g.modifyNode u f) := by
  unfold modifyNode
  split <;> exact .refl g

theorem sameSchema_removeEdge (t : Uid) : SameSchema g (g.removeEdge u p t) := sameSchema_modifyNode g u _

theorem sameSchema_clearEdges : SameSchema g (g.clearEdges u p) :=
  sameSchema_foldl (fun g t => sameSchema_removeEdge g u p t) _

theorem sameSchema_setEdge (t : Uid) : SameSchema g (g.setEdge u p t) := by
  have hadd : ∀ h : Graph, SameSchema h (h.addEdge u p t) := by
    intro h
    unfold addEdge
    split
    · exact sameSchema_modifyNode h u _
    · exact .refl h
  unfold setEdge
  split
  · exact hadd g
  · exact (sameSchema_clearEdges g u p).trans (hadd _)

theorem sameSchema_clearAll : SameSchema g (g.clearAll u) :=
  clearAll_induction g u (motive := SameSchema g) (sameSchema_modifyNode g u _)
    (fun g' p h => h.trans (sameSchema_clearEdges g' u p)) fun _ => .refl g

end Edits

theorem sameSchema_update {f : Graph → Uid → Graph} (hf : ∀ g u, SameSchema g (f g u)) (us : List Uid) :
    SameSchema d.graph (d.update us f).graph :=
  sameSchema_foldl hf us

theorem sameSchema_resolve {make : Bool} (h : resolve vars make d s = .ok (us, d')) : SameSchema d.graph d'.graph := by
  cases s <;> simp only [resolve] at h <;> (repeat' split at h) <;> cases h <;> exact .refl d.graph

theorem sameSchema_setQuad (h : setQuad vars d q = .ok d') : SameSchema d.graph d'.graph := by
  unfold setQuad at h
  split at h
  · cases h
  · obtain ⟨⟨us, d₁⟩, hs, h⟩ := bind_ok_iff.1 h
    refine (sameSchema_resolve hs).trans ?_
    cases hq : q.object with
    | any =>
        rw [hq] at h
        cases h
    | value v =>
        rw [hq] at h
        cases h
        exact sameSchema_update (fun g u => sameSchema_modifyNode g u _) us
    | node t =>
        rw [hq] at h
        obtain ⟨⟨ts, d₂⟩, ht, h⟩ := bind_ok_iff.1 h
        cases h
        exact (sameSchema_resolve ht).trans
          (sameSchema_update (fun g u => sameSchema_foldl (fun g t => sameSchema_setEdge g u q.predicate t) ts) us)

theorem sameSchema_deleteQuad (h : deleteQuad vars d q = .ok d') : SameSchema d.graph d'.graph := by
  obtain ⟨⟨us, d₁⟩, hs, h⟩ := bind_ok_iff.1 h
  refine (sameSchema_resolve hs).trans ?_
  cases hq : q.object with
  | any =>
      simp only [hq] at h
      split at h
      · cases h
        exact sameSchema_update (fun g u => sameSchema_clearAll g u) us
      · cases h
        exact sameSchema_update (fun g u =>
          (sameSchema_modifyNode g u _).trans (sameSchema_clearEdges _ u q.predicate)) us
  | value v =>
      simp only [hq] at h
      cases h
      exact sameSchema_update (fun g u => sameSchema_modifyNode g u _) us
  | node t =>
      simp only [hq] at h
      split at h
      · cases h
        exact .refl _
      · obtain ⟨⟨ts, d₂⟩, ht, h⟩ := bind_ok_iff.1 h
        cases h
        exact (sameSchema_resolve ht).trans
          (sameSchema_update (fun g u => sameSchema_foldl (fun g t => sameSchema_removeEdge g u q.predicate t) ts) us)

theorem sameSchema_foldlM {α : Type} {step : Draft → α → Step Draft} {as : List α}
    (hstep : ∀ d a d', step d a = .ok d' → SameSchema d.graph d'.graph) (h : as.foldlM step d = .ok d') :
    SameSchema d.graph d'.graph := by
  induction as generalizing d with
  | nil =>
      cases h
      exact .refl _
  | cons a as ih =>
      rw [List.foldlM_cons] at h
      obtain ⟨d₁, h₁, h⟩ := bind_ok_iff.1 h
      exact (hstep d a d₁ h₁).trans (ih h)

theorem sameSchema_applyMutation {m : Mutation} (h : applyMutation vars d m = .ok d') :
    SameSchema d.graph d'.graph := by
  unfold applyMutation at h
  split at h
  · obtain ⟨d₁, h₁, h⟩ := bind_ok_iff.1 h
    exact (sameSchema_foldlM (fun _ _ _ h => sameSchema_deleteQuad h) h₁).trans
      (sameSchema_foldlM (fun _ _ _ h => sameSchema_setQuad h) h)
  · cases h
    exact .refl _

theorem sameSchema_of_execute {r : Request} {receipt : Receipt} (h : execute g r = .ok (receipt, g')) :
    SameSchema g g' := by
  obtain ⟨vars, d, -, hd, -, rfl⟩ := execute_ok_iff.1 h
  exact sameSchema_foldlM (fun _ _ _ h => sameSchema_applyMutation h) hd

section Declaring

open Schema

variable {qs : List PredicateStatement} {ts : TypeStatement} {st : Statement} {ss : List Statement}

/-- The declaration of a predicate among others, the last if there are several. -/
def declared? (qs : List PredicateStatement) (p : String) : Option PredicateStatement :=
  qs.reverse.find? (·.predicate == p)

def predicateStatement? : Statement → Option PredicateStatement
  | .predicate q => some q
  | .type _ => none

def typeStatement? : Statement → Option TypeStatement
  | .predicate _ => none
  | .type t => some t

/-- A graph in which statements have been declared, whatever was declared before. -/
def withStatements (g : Graph) (ss : List Statement) : Graph :=
  { g with
    predicates := (ss.filterMap predicateStatement?).foldl (fun t q => t.insert q.predicate q) g.predicates
    types := (ss.filterMap typeStatement?).foldl (fun t q => t.insert q.name q) g.types }

theorem withStatements_cons (g : Graph) (st : Statement) (ss : List Statement) :
    withStatements g (st :: ss) = withStatements (withStatements g [st]) ss := by
  cases st <;> rfl

/-- A statement that does not make edges of values, nor values of edges. -/
def Accepts (g : Graph) (st : Statement) : Prop :=
  ∀ q, st = .predicate q → ∀ old, g.predicates.get? q.predicate = some old → (old.kind == .uid) = (q.kind == .uid)

theorem withStatements_predicate (g : Graph) (q : PredicateStatement) :
    withStatements g [.predicate q] = { g with predicates := g.predicates.insert q.predicate q } := rfl

theorem withStatements_type (g : Graph) (t : TypeStatement) :
    withStatements g [.type t] = { g with types := g.types.insert t.name t } := rfl

theorem declare_ok_iff : g.declare st = .ok g' ↔ Accepts g st ∧ g' = withStatements g [st] := by
  cases st with
  | predicate q =>
      rw [withStatements_predicate]
      simp only [declare, Accepts, Statement.predicate.injEq, forall_eq']
      cases g.predicates.get? q.predicate with
      | none => simp [eq_comm]
      | some old =>
          simp only [Option.some.injEq, forall_eq']
          split
          · rename_i hkind
            simp [hkind, eq_comm]
          · rename_i hkind
            simp [hkind]
  | type t =>
      rw [withStatements_type]
      simp [declare, Accepts, eq_comm]

/-- Statements are all accepted that agree with each other, and with what is declared, on which predicates hold
edges. -/
theorem declareAll_agreeing (edges : String → Bool)
    (hold : ∀ q, .predicate q ∈ ss → ∀ old, g.predicates.get? q.predicate = some old →
      (old.kind == .uid) = edges q.predicate)
    (hnew : ∀ q, .predicate q ∈ ss → (q.kind == .uid) = edges q.predicate) :
    g.declareAll ss = (none, withStatements g ss) := by
  induction ss generalizing g with
  | nil => rfl
  | cons st ss ih =>
      have haccepts : Accepts g st := by
        rintro q rfl old ho
        exact (hold q List.mem_cons_self old ho).trans (hnew q List.mem_cons_self).symm
      rw [declareAll, declare_ok_iff.2 ⟨haccepts, rfl⟩, withStatements_cons g st ss]
      refine ih (fun q hq old ho => ?_) fun q hq => hnew q (List.mem_cons_of_mem _ hq)
      cases st with
      | type t => exact hold q (List.mem_cons_of_mem _ hq) old ho
      | predicate r =>
          change (g.predicates.insert r.predicate r).get? q.predicate = some old at ho
          rw [Table.get?_insert] at ho
          split at ho
          · rename_i hr
            cases ho
            rw [hr]
            exact hnew _ List.mem_cons_self
          · exact hold q (List.mem_cons_of_mem _ hq) old ho

theorem declareAll_values (hold : ∀ q ∈ qs, ∀ old, g.predicates.get? q.predicate = some old → old.kind ≠ .uid)
    (hnew : ∀ q ∈ qs, q.kind ≠ .uid) :
    g.declareAll (qs.map .predicate ++ [.type ts]) = (none, { g with
      predicates := qs.foldl (fun t q => t.insert q.predicate q) g.predicates
      types := g.types.insert ts.name ts }) := by
  have hmem : ∀ q, Statement.predicate q ∈ qs.map .predicate ++ [.type ts] → q ∈ qs := by simp
  have hpredicates : (qs.map Statement.predicate ++ [Statement.type ts]).filterMap predicateStatement? = qs := by
    simp [List.filterMap_map, Function.comp_def, predicateStatement?]
  have htypes : (qs.map Statement.predicate ++ [Statement.type ts]).filterMap typeStatement? = [ts] := by
    simp [List.filterMap_map, Function.comp_def, typeStatement?]
  rw [declareAll_agreeing fun _ => false, withStatements, hpredicates, htypes]
  · rfl
  · exact fun q hq old ho => beq_false_of_ne (hold q (hmem q hq) old ho)
  · exact fun q hq => beq_false_of_ne (hnew q (hmem q hq))

end Declaring

end Inventory.Graph
