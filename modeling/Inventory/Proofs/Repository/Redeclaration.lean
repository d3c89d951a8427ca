import Inventory.Proofs.Repository.Alike
import Inventory.Proofs.Repository.SchemaWrites

/-!
Graphs that differ in what is declared. Queries see nothing of it as long as the same predicates are lists, and to
declare a type once more changes nothing.
-/

namespace Inventory.Repository

open Inventory.Graph Query Schema Vocabulary

variable {g g' : Graph} {vars : Vars} {us : List Uid} {u : Uid} {as : List Attribute} {name : String}

namespace Redeclared

theorem startNodes (h : Redeclared g g') (vars : Vars) (root : Root) :
    Graph.startNodes g' vars root = Graph.startNodes g vars root := by
  obtain ⟨ps, ts, rfl⟩ := h
  cases root <;> rfl

theorem passes (h : Redeclared g g') (vars : Vars) (o : Option Filter) :
    Graph.passes g' vars o = Graph.passes g vars o :=
  funext fun u => passes_same (h.same u) vars o

theorem targets (h : Redeclared g g') (u : Uid) (e : Edge) : g'.targets u e = g.targets u e := by
  obtain ⟨ps, ts, rfl⟩ := h
  rfl

theorem hop (h : Redeclared g g') (vars : Vars) (e : Edge) (o : Option Filter) :
    Graph.hop g' vars e o = Graph.hop g vars e o := by
  funext u
  rw [Graph.hop, Graph.hop, h.passes, h.targets]

mutual

theorem traverse (h : Redeclared g g') (vars : Vars) (us : List Uid) :
    ∀ t, Graph.traverse g' vars us t = Graph.traverse g vars us t
  | ⟨edge, o, bind, ts⟩ => by
      rw [Graph.traverse, Graph.traverse, h.hop]
      exact congrArg _ (funext fun uss => traverseAll h _ _ ts)

theorem traverseAll (h : Redeclared g g') (vars : Vars) (us : List Uid) :
    ∀ ts, Graph.traverseAll g' vars us ts = Graph.traverseAll g vars us ts
  | [] => rfl
  | t :: ts => by
      rw [Graph.traverseAll, Graph.traverseAll, traverse h vars us t]
      exact congrArg _ (funext fun vars => traverseAll h vars us ts)

end

theorem expandNode (h : Redeclared g g') (loop : Bool) (u : Uid) (ts : List Traversal) (e : Expansion) :
    Graph.expandNode g' loop u ts e = Graph.expandNode g loop u ts e := by
  induction ts generalizing e with
  | nil => rfl
  | cons t ts ih =>
      rw [Graph.expandNode, Graph.expandNode, h.hop]
      exact congrArg _ (funext fun us => ih _)

theorem expandFrontier (h : Redeclared g g') (loop : Bool) (ts : List Traversal) (us : List Uid) (e : Expansion) :
    Graph.expandFrontier g' loop ts us e = Graph.expandFrontier g loop ts us e := by
  induction us generalizing e with
  | nil => rfl
  | cons u us ih =>
      rw [Graph.expandFrontier, Graph.expandFrontier, h.expandNode]
      exact congrArg _ (funext fun e => ih e)

theorem expand (h : Redeclared g g') (loop : Bool) (ts : List Traversal) (depth : Nat) (us : List Uid)
    (visited : UidSet) (vars : Vars) :
    Graph.expand g' loop ts depth us visited vars = Graph.expand g loop ts depth us visited vars := by
  induction depth generalizing us visited vars with
  | zero => rfl
  | succ depth ih =>
      rw [Graph.expand, Graph.expand, h.expandFrontier]
      refine congrArg _ (funext fun e => ?_)
      rw [ih]

theorem blockNodes (h : Redeclared g g') (params : Bindings) (vars : Vars) (b : Block) :
    Graph.blockNodes g' params vars b = Graph.blockNodes g params vars b := by
  rw [Graph.blockNodes, Graph.blockNodes, h.startNodes, h.passes]
  refine congrArg _ (funext fun start => congrArg _ (funext fun kept => ?_))
  rw [sorted_same (fun u _ => h.same u)]

theorem evalBlock (h : Redeclared g g') (params : Bindings) (vars : Vars) (b : Block) :
    Graph.evalBlock g' params vars b = Graph.evalBlock g params vars b := by
  rw [Graph.evalBlock, Graph.evalBlock, h.blockNodes]
  refine congrArg _ (funext fun us => ?_)
  cases b.recursion with
  | none => simp only [h.traverseAll]
  | some r => simp only [recur, h.expand]

mutual

theorem selected (h : Redeclared g g') (hl : ∀ p, g'.isList p = g.isList p) (u : Uid) :
    ∀ s, Graph.selected g' u s = Graph.selected g u s
  | .field label p => selected_field_same hl (h.same u) label p
  | .count _ => rfl
  | .edge label e ss => by
      rw [Graph.selected, Graph.selected, h.targets]
      have hrows : (fun v => Json.ofFields (Graph.selectedAll g' v ss)) =
          fun v => Json.ofFields (Graph.selectedAll g v ss) := by
        funext v
        rw [selectedAll h hl v ss]
      simp only [hrows]

theorem selectedAll (h : Redeclared g g') (hl : ∀ p, g'.isList p = g.isList p) (u : Uid) :
    ∀ ss, Graph.selectedAll g' u ss = Graph.selectedAll g u ss
  | [] => rfl
  | s :: ss => by rw [Graph.selectedAll, Graph.selectedAll, selected h hl u s, selectedAll h hl u ss]

end

theorem project (h : Redeclared g g') (hl : ∀ p, g'.isList p = g.isList p) (us : List Uid) (ss : List Selection) :
    Graph.project g' us ss = Graph.project g us ss := by
  unfold Graph.project
  split
  · rfl
  · exact List.map_congr_left fun u _ => congrArg Json.ofFields (h.selectedAll hl u ss)

/-- No query tells apart graphs that differ only in what is declared, if the same predicates are lists in both. -/
theorem evaluate (h : Redeclared g g') (hl : ∀ p, g'.isList p = g.isList p) (q : Query)
    (params : Bindings) : g'.evaluate q params = g.evaluate q params := by
  have hblocks : ∀ bs vars answer, evalBlocks g' params vars answer bs = evalBlocks g params vars answer bs := by
    intro bs
    induction bs with
    | nil => exact fun _ _ => rfl
    | cons b bs ih =>
        intro vars answer
        rw [evalBlocks, evalBlocks, h.evalBlock]
        refine congrArg _ (funext fun a => ?_)
        simp only [h.project hl, ih]
  exact hblocks _ _ _

end Redeclared

section Types

/-- No predicate of an attribute is a list. -/
def SingleValued (g : Graph) : Prop := ∀ p, isAttributePredicate p = true → g.isList p = false

theorem list_of_declaration {q : PredicateStatement} (hq : q ∈ (Declaration.ofAttributes name as).predicates) :
    q.list = false := by
  obtain ⟨a, -, rfl⟩ := List.mem_map.1 hq
  rfl

theorem isList_declaredIn (hv : Valued g) (hs : SingleValued g) (name : String) (as : List Attribute) (p : String) :
    (declaredIn g name as).isList p = g.isList p := by
  rw [isList, predicates_declaredIn hv]
  cases hd : declared? (Declaration.ofAttributes name as).predicates p with
  | none => rfl
  | some q =>
      obtain ⟨hq, rfl⟩ := mem_of_declared? hd
      rw [hs _ (isAttributePredicate_of_declaration hq).1]
      exact list_of_declaration hq

theorem SingleValued.of_sameSchema (hg : SingleValued g) (h : SameSchema g g') : SingleValued g' := by
  intro p hp
  rw [isList, h.1]
  exact hg p hp

theorem singleValued_declaredIn (hv : Valued g) (hs : SingleValued g) (name : String) (as : List Attribute) :
    SingleValued (declaredIn g name as) := by
  intro p hp
  rw [isList_declaredIn hv hs]
  exact hs p hp

theorem singleValued_bootstrapped (refusals : Refusals) : SingleValued (bootstrapped refusals).graph := by
  intro p hp
  rw [isList, undeclared_bootstrapped refusals hp]
  rfl

theorem declareAll_eq (hg : Valued g) (name : String) (as : List Attribute) :
    g.declareAll (Declaration.ofAttributes name as).statements = (none, declaredIn g name as) := by
  rw [declareAll_ofAttributes hg, declaredIn_eq hg]

/-- Once a type has been declared, to declare it again changes nothing. -/
theorem declareAll_declaredIn (hg : Valued g) (name : String) (as : List Attribute) :
    (declaredIn g name as).declareAll (Declaration.ofAttributes name as).statements =
      (none, declaredIn g name as) := by
  rw [declareAll_eq (valued_declaredIn hg name as)]
  have hp : (declaredIn (declaredIn g name as) name as).predicates = (declaredIn g name as).predicates := by
    refine Table.ext fun p => ?_
    rw [predicates_declaredIn (valued_declaredIn hg name as), predicates_declaredIn hg, ← Option.or_assoc,
      Option.or_self]
  have ht : (declaredIn (declaredIn g name as) name as).types = (declaredIn g name as).types := by
    refine Table.ext fun n => ?_
    rw [types_declaredIn (valued_declaredIn hg name as), types_declaredIn hg]
    split <;> rfl
  obtain ⟨ps, ts, he⟩ : Redeclared (declaredIn g name as) (declaredIn (declaredIn g name as) name as) :=
    (declareAll_ok _ _).1
  rw [he] at hp ht ⊢
  cases hp
  cases ht
  rfl

end Types

end Inventory.Repository
