import Inventory.Proofs.Graph.Results

/-!
Requests that are sure to succeed whatever the graph: each block uses only variables that the blocks before it bind,
even to no nodes, and pages are cut by numbers.
-/

namespace Inventory

open Query Store Text Outcome

variable {names : List String} {params : Bindings}

/-- A bound variable, or a node by itself. -/
def Query.NodeRef.Closed (names : List String) : NodeRef → Prop
  | .var name => name ∈ names
  | .node _ => True

/-- A filter that uses bound variables only, and whose patterns can be read. -/
inductive Query.Filter.Closed (names : List String) : Filter → Prop
  | eq {p : String} {v : Json} : Closed names (.eq p v)
  | ge {p : String} {v : Json} : Closed names (.ge p v)
  | regex {p pattern : String} {ignoreCase : Bool} (h : (Pattern.compile? ignoreCase pattern.toList).isSome = true) :
      Closed names (.regex p pattern ignoreCase)
  | uid {refs : List NodeRef} (h : ∀ r ∈ refs, r.Closed names) : Closed names (.uid refs)
  | has {p : String} : Closed names (.has p)
  | and {parts : List Filter} (h : ∀ f ∈ parts, Closed names f) : Closed names (.and parts)
  | or {parts : List Filter} (h : ∀ f ∈ parts, Closed names f) : Closed names (.or parts)
  | not {inner : Filter} (h : Closed names inner) : Closed names (.not inner)

/-- Hops that no filter on the way can make fail. -/
inductive Query.Traversal.Closed (names : List String) : Traversal → Prop
  | mk {edge : Edge} {filter : Option Filter} {bind : Option String} {children : List Traversal}
      (hf : ∀ f ∈ filter, f.Closed names) (ht : ∀ t ∈ children, Closed names t) :
      Closed names ⟨edge, filter, bind, children⟩

mutual

/-- The variables of a hop and of the hops from there. -/
def Query.Traversal.binds : Traversal → List String
  | ⟨_, _, bind, children⟩ => bind.toList ++ Query.Traversal.bindsAll children

def Query.Traversal.bindsAll : List Traversal → List String
  | [] => []
  | t :: ts => Query.Traversal.binds t ++ Query.Traversal.bindsAll ts

end

/-- A number, or a variable that holds one of 64 bits. -/
def Query.PageArg.Closed (params : Bindings) : PageArg → Prop
  | .literal _ => True
  | .var name => ∃ raw n, params.get? name = some raw ∧ Numeral.readUnsigned? 10 64 raw.toList = some n

def Query.Root.refs : Root → List NodeRef
  | .uid refs => refs
  | _ => []

namespace Query.Block

/-- A block that uses variables bound before it only. -/
structure Closed (params : Bindings) (names : List String) (b : Block) : Prop where
  root : ∀ r ∈ b.root.refs, r.Closed names
  filter : ∀ f ∈ b.filter, f.Closed names
  offset : ∀ a ∈ b.offset, a.Closed params
  first : ∀ a ∈ b.first, a.Closed params
  traversals : ∀ t ∈ b.traversals, t.Closed names

section Builders

variable {b : Block}

theorem closed_start {root : Root} (name : Option String) (h : ∀ r ∈ root.refs, r.Closed names) :
    (start name root).Closed params names := by
  constructor
  · exact h
  all_goals simp [start]

theorem Closed.bindAs (h : b.Closed params names) (v : String) : (b.bindAs v).Closed params names :=
  ⟨h.root, h.filter, h.offset, h.first, h.traversals⟩

theorem Closed.filtered (h : b.Closed params names) {o : Option Filter} (ho : ∀ f ∈ o, f.Closed names) :
    (b.filtered o).Closed params names :=
  ⟨h.root, ho, h.offset, h.first, h.traversals⟩

theorem Closed.orderBy (h : b.Closed params names) (predicate : String) (direction : SortDirection) :
    (b.orderBy predicate direction).Closed params names :=
  ⟨h.root, h.filter, h.offset, h.first, h.traversals⟩

theorem Closed.select (h : b.Closed params names) (ss : List Selection) : (b.select ss).Closed params names :=
  ⟨h.root, h.filter, h.offset, h.first, h.traversals⟩

theorem Closed.traverse (h : b.Closed params names) {t : Traversal} (ht : t.Closed names) :
    (b.traverse t).Closed params names := by
  refine ⟨h.root, h.filter, h.offset, h.first, fun t' ht' => ?_⟩
  rcases List.mem_append.1 ht' with ht' | ht'
  · exact h.traversals t' ht'
  · rwa [List.mem_singleton.1 ht']

end Builders

/-- The variables that a block binds. Repeated hops do not go on to the hops from there. -/
def binds (b : Block) : List String :=
  b.bind.toList ++ match b.recursion with
    | some _ => b.traversals.filterMap (·.bind)
    | none => Traversal.bindsAll b.traversals

/-- Blocks each of which uses variables only that are bound before it. -/
def ClosedAll (params : Bindings) : List String → List Block → Prop
  | _, [] => True
  | names, b :: bs => b.Closed params names ∧ ClosedAll params (names ++ b.binds) bs

theorem closedAll_cons {b : Block} {bs : List Block} {more : List String} (h : b.Closed params names)
    (hb : b.binds = more) (hbs : ClosedAll params (names ++ more) bs) : ClosedAll params names (b :: bs) := by
  rw [← hb] at hbs
  exact ⟨h, hbs⟩

theorem closedAll_cons_reported {b : Block} {bs : List Block} (h : b.Closed params names) (hb : b.binds = [])
    (hbs : ClosedAll params names bs) : ClosedAll params names (b :: bs) := by
  refine closedAll_cons h hb ?_
  rwa [List.append_nil]

theorem closedAll_append {bs bs' : List Block} : ClosedAll params names (bs ++ bs') ↔
    ClosedAll params names bs ∧ ClosedAll params (names ++ bs.flatMap binds) bs' := by
  induction bs generalizing names with
  | nil => simp [ClosedAll]
  | cons b bs ih => simp [ClosedAll, ih, and_assoc]

/-- Blocks that use no variable of one another. -/
theorem closedAll_of_forall {bs : List Block} (h : ∀ b ∈ bs, ∀ names, b.Closed params names) :
    ClosedAll params names bs := by
  induction bs generalizing names with
  | nil => trivial
  | cons b bs ih => exact ⟨h b List.mem_cons_self names, ih fun b' hb' => h b' (List.mem_cons_of_mem b hb')⟩

end Query.Block

def Query.Closed (q : Query) (params : Bindings) : Prop := Block.ClosedAll params [] q.blocks

def Query.binds (q : Query) : List String := q.blocks.flatMap Block.binds

/-- A subject for which there is a node, or one can be made. -/
def Store.Subject.Closed (names : List String) : Subject → Prop
  | .var name => name ∈ names
  | .blank _ => True
  | .node _ => False

/-- A quad that can be set. -/
structure Store.Quad.Closed (names : List String) (q : Quad) : Prop where
  predicate : q.predicate ≠ anyPredicate
  subject : q.subject.Closed names
  object : q.object ≠ .any
  target : ∀ s, q.object = .node s → s.Closed names

theorem Store.Quad.closed_value {p var : String} {v : Json} (hp : p ≠ anyPredicate) (hv : var ∈ names) :
    (Quad.value (.var var) p v).Closed names :=
  ⟨hp, hv, by simp [Quad.value], by simp [Quad.value]⟩

/-- A request of a query that only sets. -/
structure Store.Request.Closed (query : Query) (r : Request) : Prop where
  asks : r.query = some query
  closed : query.Closed r.vars
  deletes : ∀ m ∈ r.mutations, m.delete = []
  sets : ∀ m ∈ r.mutations, ∀ q ∈ m.set, q.Closed query.binds

namespace Graph

variable {g : Graph} {vars vars' : Vars} {u : Uid} {us start : List Uid} {d : Draft}

namespace Vars

def Defines (vars : Vars) (names : List String) : Prop := ∀ name ∈ names, vars.Defined name

/-- What was bound is bound still. -/
def Keeps (vars vars' : Vars) : Prop := ∀ name, vars.Defined name → vars'.Defined name

/-- What was bound is bound still, and so are some more variables. -/
def Adds (names : List String) (vars vars' : Vars) : Prop :=
  ∀ name, vars.Defined name ∨ name ∈ names → vars'.Defined name

theorem Keeps.refl (vars : Vars) : vars.Keeps vars := fun _ => id

theorem Keeps.trans {vars'' : Vars} (h : vars.Keeps vars') (h' : vars'.Keeps vars'') : vars.Keeps vars'' :=
  fun name hname => h' name (h name hname)

theorem Keeps.defines (h : vars.Keeps vars') (hd : vars.Defines names) : vars'.Defines names :=
  fun name hname => h name (hd name hname)

theorem Adds.keeps (h : Adds names vars vars') : vars.Keeps vars' := fun name hname => h name (.inl hname)

theorem Adds.kept {vars'' : Vars} (h : Adds names vars vars') (h' : vars'.Keeps vars'') : Adds names vars vars'' :=
  fun name hname => h' name (h name hname)

theorem Adds.refl (vars : Vars) : vars.Adds [] vars := fun _ h => h.resolve_right List.not_mem_nil

theorem Adds.trans {more : List String} {vars'' : Vars} (h : Adds names vars vars') (h' : Adds more vars' vars'') :
    Adds (names ++ more) vars vars'' := by
  intro name hname
  rw [List.mem_append, ← or_assoc] at hname
  exact h' name (hname.imp_left (h name))

theorem Adds.defines {more : List String} (h : Adds more vars vars') (hd : vars.Defines names) :
    vars'.Defines (names ++ more) := by
  intro name hname
  exact h name ((List.mem_append.1 hname).imp_left (hd name))

theorem adds_extend? (vars : Vars) (name : Option String) (us : List Uid) :
    vars.Adds name.toList (vars.extend? name us) := by
  cases name with
  | none => exact .refl vars
  | some name =>
      rintro other (h | h)
      · exact (extends_extend vars name us).mono h
      · rw [Option.toList_some, List.mem_singleton] at h
        rw [h]
        exact defined_extend vars name us

end Vars

section Filters

theorem refNodes_closed (hd : vars.Defines names) {r : NodeRef} (hr : r.Closed names) :
    ∃ us, refNodes vars r = .ok us := by
  cases r with
  | node u => exact ⟨[u], rfl⟩
  | var name =>
      obtain ⟨s, hs⟩ := Option.isSome_iff_exists.1 (hd name hr)
      exact ⟨s.items, by rw [refNodes, hs]⟩

theorem refSet_closed (hd : vars.Defines names) {refs : List NodeRef} (hr : ∀ r ∈ refs, r.Closed names) :
    ∃ s, refSet vars refs = .ok s := by
  have hall : ∃ uss, refs.mapM (refNodes vars) = .ok uss := by
    induction refs with
    | nil => exact ⟨[], rfl⟩
    | cons r refs ih =>
        obtain ⟨us, hus⟩ := refNodes_closed hd (hr r List.mem_cons_self)
        obtain ⟨uss, huss⟩ := ih fun r' hr' => hr r' (List.mem_cons_of_mem r hr')
        exact ⟨us :: uss, by rw [List.mapM_cons, hus, huss]; rfl⟩
  obtain ⟨uss, huss⟩ := hall
  exact ⟨_, by rw [refSet, huss]; rfl⟩

theorem holdsAll_total {fs : List Filter} (h : ∀ f ∈ fs, ∃ b, holds g vars u f = .ok b) :
    ∃ b, holdsAll g vars u fs = .ok b := by
  induction fs with
  | nil => exact ⟨true, rfl⟩
  | cons f fs ih =>
      obtain ⟨b, hb⟩ := h f List.mem_cons_self
      obtain ⟨c, hc⟩ := ih fun f' hf' => h f' (List.mem_cons_of_mem f hf')
      exact ⟨b && c, holdsAll_cons hb hc⟩

theorem holdsAny_total {fs : List Filter} (h : ∀ f ∈ fs, ∃ b, holds g vars u f = .ok b) :
    ∃ b, holdsAny g vars u fs = .ok b := by
  induction fs with
  | nil => exact ⟨false, rfl⟩
  | cons f fs ih =>
      obtain ⟨b, hb⟩ := h f List.mem_cons_self
      obtain ⟨c, hc⟩ := ih fun f' hf' => h f' (List.mem_cons_of_mem f hf')
      rw [holdsAny, hb]
      cases b with
      | true => exact ⟨true, rfl⟩
      | false => exact ⟨c, hc⟩

theorem holds_closed (hd : vars.Defines names) (u : Uid) {f : Filter} (hf : f.Closed names) :
    ∃ b, holds g vars u f = .ok b := by
  induction hf with
  | eq => exact ⟨_, rfl⟩
  | ge => exact ⟨_, rfl⟩
  | has => exact ⟨_, rfl⟩
  | regex h =>
      obtain ⟨ts, hts⟩ := Option.isSome_iff_exists.1 h
      exact ⟨_, by rw [holds, hts]⟩
  | uid h =>
      obtain ⟨s, hs⟩ := refSet_closed hd h
      exact ⟨s.contains u, by rw [holds, hs]; rfl⟩
  | and _ ih => exact holdsAll_total ih
  | or _ ih => exact holdsAny_total ih
  | not _ ih =>
      obtain ⟨b, hb⟩ := ih
      exact ⟨!b, by rw [holds, hb]; rfl⟩

theorem passes_closed (hd : vars.Defines names) {o : Option Filter} (ho : ∀ f ∈ o, f.Closed names) (u : Uid) :
    ∃ b, passes g vars o u = .ok b := by
  cases o with
  | none => exact ⟨true, rfl⟩
  | some f => exact holds_closed hd u (ho f rfl)

theorem sift_total {check : Uid → Eval Bool} (h : ∀ u, ∃ b, check u = .ok b) (us : List Uid) :
    ∃ vs, sift check us = .ok vs := by
  choose test htest using h
  exact ⟨us.filter test, sift_eq_filter htest⟩

theorem startNodes_closed (hd : vars.Defines names) {r : Root} (hr : ∀ ref ∈ r.refs, ref.Closed names) :
    ∃ us, startNodes g vars r = .ok us := by
  cases r with
  | eq p v => exact ⟨_, rfl⟩
  | has p => exact ⟨_, rfl⟩
  | type name => exact ⟨_, rfl⟩
  | uid refs =>
      obtain ⟨s, hs⟩ : ∃ s, refSet vars refs = .ok s := refSet_closed hd hr
      exact ⟨_, by rw [startNodes, hs]; rfl⟩

end Filters

section Hops

theorem hops_closed (hd : vars.Defines names) (edge : Edge) {o : Option Filter} (ho : ∀ f ∈ o, f.Closed names)
    (us : List Uid) : ∃ vss, us.mapM (hop g vars edge o) = .ok vss := by
  have hhop : ∀ u, ∃ vs, hop g vars edge o u = .ok vs := fun u => sift_total (passes_closed hd ho) _
  choose next hnext using hhop
  exact ⟨us.map next, mapM_ok hnext us⟩

theorem traverseAll_total {ts : List Traversal}
    (h : ∀ t ∈ ts, ∀ (vars : Vars) (us : List Uid), vars.Defines names →
      ∃ vars', traverse g vars us t = .ok vars' ∧ vars.Adds t.binds vars') (hd : vars.Defines names) (us : List Uid) :
    ∃ vars', traverseAll g vars us ts = .ok vars' ∧ vars.Adds (Traversal.bindsAll ts) vars' := by
  induction ts generalizing vars with
  | nil => exact ⟨vars, rfl, .refl vars⟩
  | cons t ts ih =>
      obtain ⟨vars₁, h₁, ha₁⟩ := h t List.mem_cons_self vars us hd
      obtain ⟨vars', h', ha'⟩ := ih (fun t' ht' => h t' (List.mem_cons_of_mem t ht')) (ha₁.keeps.defines hd)
      refine ⟨vars', ?_, ?_⟩
      · rw [traverseAll, h₁]
        exact h'
      · rw [Traversal.bindsAll]
        exact ha₁.trans ha'

theorem traverse_closed {t : Traversal} (ht : t.Closed names) : ∀ (vars : Vars) (us : List Uid), vars.Defines names →
    ∃ vars', traverse g vars us t = .ok vars' ∧ vars.Adds t.binds vars' := by
  induction ht with
  | @mk edge filter bind children hf _ ih =>
      intro vars us hd
      obtain ⟨vss, hvss⟩ := hops_closed (g := g) hd edge hf us
      have hadd := vars.adds_extend? bind (OrderedSet.ofList vss.flatten).items
      obtain ⟨vars', h', ha'⟩ := traverseAll_total ih (hadd.keeps.defines hd) (OrderedSet.ofList vss.flatten).items
      refine ⟨vars', ?_, ?_⟩
      · rw [traverse, hvss]
        exact h'
      · rw [Traversal.binds]
        exact hadd.trans ha'

end Hops

section Repeated

variable {loop : Bool} {ts : List Traversal}

theorem keeps_takes (bind : Option String) (us : List Uid) (e : Expansion) :
    e.vars.Keeps (us.foldl (Expansion.take loop bind) e).vars := by
  induction us generalizing e with
  | nil => exact .refl e.vars
  | cons u us ih =>
      refine Vars.Keeps.trans ?_ (ih _)
      unfold Expansion.take
      split
      · exact .refl e.vars
      · exact (e.vars.adds_extend? bind [u]).keeps

variable (ht : ∀ t ∈ ts, t.Closed names)
include ht

theorem expandNode_closed (u : Uid) (e : Expansion) (hd : e.vars.Defines names) :
    ∃ e', expandNode g loop u ts e = .ok e' ∧ e.vars.Keeps e'.vars := by
  induction ts generalizing e with
  | nil => exact ⟨e, rfl, .refl e.vars⟩
  | cons t ts ih =>
      cases ht t List.mem_cons_self with
      | @mk edge filter bind children hf _ =>
          obtain ⟨vs, hvs⟩ := sift_total (passes_closed (g := g) hd hf) (g.targets u edge)
          have hkeeps : e.vars.Keeps (vs.foldl (Expansion.take loop bind) e).vars := keeps_takes bind vs e
          obtain ⟨e', h', hk'⟩ := ih (fun t' ht' => ht t' (List.mem_cons_of_mem _ ht')) _ (hkeeps.defines hd)
          refine ⟨e', ?_, hkeeps.trans hk'⟩
          rw [expandNode, hop, hvs]
          exact h'

theorem expandFrontier_closed (us : List Uid) (e : Expansion) (hd : e.vars.Defines names) :
    ∃ e', expandFrontier g loop ts us e = .ok e' ∧ e.vars.Keeps e'.vars := by
  induction us generalizing e with
  | nil => exact ⟨e, rfl, .refl e.vars⟩
  | cons u us ih =>
      obtain ⟨e₁, h₁, hk₁⟩ := expandNode_closed ht u e hd
      obtain ⟨e', h', hk'⟩ := ih e₁ (hk₁.defines hd)
      refine ⟨e', ?_, hk₁.trans hk'⟩
      rw [expandFrontier, h₁]
      exact h'

theorem expand_closed (depth : Nat) (us : List Uid) (visited : UidSet) (hd : vars.Defines names) :
    ∃ vars', expand g loop ts depth us visited vars = .ok vars' ∧ vars.Keeps vars' := by
  induction depth generalizing us visited vars with
  | zero => exact ⟨vars, rfl, .refl vars⟩
  | succ depth ih =>
      obtain ⟨e, he, hk⟩ := expandFrontier_closed ht us ⟨visited, vars, []⟩ hd
      rw [expand, he]
      by_cases hstop : e.reached.isEmpty = true
      · refine ⟨e.vars, ?_, hk⟩
        change (if e.reached.isEmpty then _ else _) = _
        rw [if_pos hstop]
        rfl
      · obtain ⟨vars', h', hk'⟩ := ih e.reached e.visited (hk.defines hd)
        refine ⟨vars', ?_, hk.trans hk'⟩
        change (if e.reached.isEmpty then _ else _) = _
        rw [if_neg hstop]
        exact h'

/-- Repeated hops bind their variables even if they are not followed once. -/
theorem recur_closed (r : Recursion) (us : List Uid) (hd : vars.Defines names) :
    ∃ vars', recur g vars us r ts = .ok vars' ∧ vars.Adds (ts.filterMap (·.bind)) vars' := by
  have hbound : ∀ vars : Vars, vars.Adds (ts.filterMap (·.bind))
      (ts.foldl (fun vars t => vars.extend? t.bind []) vars) := by
    clear ht
    induction ts with
    | nil => exact .refl
    | cons t ts ih =>
        intro vars
        have hadd := (vars.adds_extend? t.bind []).trans (ih (vars.extend? t.bind []))
        cases hb : t.bind with
        | none =>
            rw [hb] at hadd
            rw [List.filterMap_cons_none hb, List.foldl_cons, hb]
            exact hadd
        | some name =>
            rw [hb] at hadd
            rw [List.filterMap_cons_some hb, List.foldl_cons, hb]
            exact hadd
  obtain ⟨vars', h', hk'⟩ := expand_closed ht r.depth us (.ofList us) ((hbound vars).keeps.defines hd)
  exact ⟨vars', h', (hbound vars).kept hk'⟩

end Repeated

section Blocks

theorem pageArg_closed {a : PageArg} (ha : a.Closed params) : ∃ n, pageArg params a = .ok n := by
  cases a with
  | literal n => exact ⟨n, rfl⟩
  | var name =>
      obtain ⟨raw, n, hraw, hn⟩ := ha
      exact ⟨n, by simp only [pageArg, hraw, hn]⟩

theorem pageArgs_closed {o : Option PageArg} (ho : ∀ a ∈ o, a.Closed params) :
    ∃ n, o.mapM (pageArg params) = .ok n := by
  cases o with
  | none => exact ⟨none, rfl⟩
  | some a =>
      obtain ⟨n, hn⟩ := pageArg_closed (ho a rfl)
      exact ⟨some n, by rw [Option.mapM_some, hn]; rfl⟩

theorem blockNodes_closed {b : Block} (hd : vars.Defines names) (hb : b.Closed params names) :
    ∃ us, blockNodes g params vars b = .ok us := by
  obtain ⟨start, hstart⟩ := startNodes_closed (g := g) hd hb.root
  obtain ⟨kept, hkept⟩ := sift_total (passes_closed (g := g) hd hb.filter) start
  obtain ⟨offset, hoffset⟩ := pageArgs_closed hb.offset
  obtain ⟨first, hfirst⟩ := pageArgs_closed hb.first
  exact ⟨_, by
    simp only [blockNodes, hstart, bind, Except.bind, hkept, cut, hoffset, hfirst]
    rfl⟩

theorem evalBlock_closed {b : Block} (hd : vars.Defines names) (hb : b.Closed params names) :
    ∃ us vars', evalBlock g params vars b = .ok (us, vars') ∧ vars.Adds b.binds vars' := by
  obtain ⟨us, hus⟩ := blockNodes_closed (g := g) hd hb
  have hadd := vars.adds_extend? b.bind us
  have hd₁ := hadd.keeps.defines hd
  rw [Block.binds]
  cases hr : b.recursion with
  | none =>
      obtain ⟨vars', h', ha'⟩ := traverseAll_total (g := g)
        (fun t ht => traverse_closed (hb.traversals t ht)) hd₁ us
      refine ⟨us, vars', ?_, hadd.trans ha'⟩
      simp only [evalBlock, hus, bind, Except.bind, hr, h']
      rfl
  | some r =>
      obtain ⟨vars', h', ha'⟩ := recur_closed (g := g) hb.traversals r us hd₁
      refine ⟨us, vars', ?_, hadd.trans ha'⟩
      simp only [evalBlock, hus, bind, Except.bind, hr, h']
      rfl

theorem evalBlocks_closed {bs : List Block} (hd : vars.Defines names) (hbs : Block.ClosedAll params names bs)
    (answer : Answer) : ∃ answer' vars', evalBlocks g params vars answer bs = .ok (answer', vars') ∧
      vars.Adds (bs.flatMap Block.binds) vars' := by
  induction bs generalizing vars names answer with
  | nil => exact ⟨answer, vars, rfl, .refl vars⟩
  | cons b bs ih =>
      obtain ⟨us, vars₁, h₁, ha₁⟩ := evalBlock_closed (g := g) hd hbs.1
      rw [evalBlocks_cons h₁]
      obtain ⟨answer', vars', h', ha'⟩ := ih (ha₁.defines hd) hbs.2 _
      exact ⟨answer', vars', h', ha₁.trans ha'⟩

/-- A closed query is answered on every graph, and binds all its variables. -/
theorem evaluate_closed {q : Query} (g : Graph) (hq : q.Closed params) :
    ∃ answer vars, g.evaluate q params = .ok (answer, vars) ∧ vars.Defines q.binds := by
  have hd : Vars.Defines .empty [] := fun _ h => absurd h List.not_mem_nil
  obtain ⟨answer, vars, h, ha⟩ := evalBlocks_closed (g := g) hd hq .empty
  exact ⟨answer, vars, h, fun name hname => ha name (.inr hname)⟩

end Blocks

section Mutations

theorem resolve_closed (hd : vars.Defines names) {s : Subject} (hs : s.Closed names) (d : Draft) :
    ∃ us d', resolve vars true d s = .ok (us, d') := by
  cases s with
  | node u => exact hs.elim
  | blank label =>
      cases hb : d.blanks.get? label with
      | some u => exact ⟨_, _, by simp only [resolve, hb]; rfl⟩
      | none => exact ⟨_, _, by simp only [resolve, hb]; rfl⟩
  | var name =>
      obtain ⟨bound, hb⟩ := Option.isSome_iff_exists.1 (hd name hs)
      cases hi : bound.items with
      | cons v vs => exact ⟨_, _, by simp only [resolve, hb, hi]; rfl⟩
      | nil =>
          cases hf : d.fresh.get? name with
          | some u => exact ⟨_, _, by simp only [resolve, hb, hi, hf]; rfl⟩
          | none => exact ⟨_, _, by simp only [resolve, hb, hi, hf]; rfl⟩

theorem setQuad_closed (hd : vars.Defines names) {q : Quad} (hq : q.Closed names) (d : Draft) :
    ∃ d', setQuad vars d q = .ok d' := by
  obtain ⟨us, d₁, h₁⟩ := resolve_closed hd hq.subject d
  rw [setQuad, if_neg hq.predicate, h₁]
  cases ho : q.object with
  | value v => exact ⟨_, rfl⟩
  | node s =>
      obtain ⟨targets, d₂, h₂⟩ := resolve_closed hd (hq.target s ho) d₁
      simp only [bind, Except.bind, h₂]
      exact ⟨_, rfl⟩
  | any => exact absurd ho hq.object

theorem setQuads_closed (hd : vars.Defines names) {qs : List Quad} (hqs : ∀ q ∈ qs, q.Closed names) (d : Draft) :
    ∃ d', qs.foldlM (setQuad vars) d = .ok d' := by
  induction qs generalizing d with
  | nil => exact ⟨d, rfl⟩
  | cons q qs ih =>
      obtain ⟨d₁, h₁⟩ := setQuad_closed hd (hqs q List.mem_cons_self) d
      obtain ⟨d', h'⟩ := ih (fun q' hq' => hqs q' (List.mem_cons_of_mem q hq')) d₁
      exact ⟨d', by rw [List.foldlM_cons, h₁]; exact h'⟩

/-- A closed request is carried out on every graph. -/
theorem execute_closed {query : Query} {r : Request} (g : Graph) (hr : r.Closed query) :
    ∃ receipt g', g.execute r = .ok (receipt, g') := by
  obtain ⟨answer, vars, he, hd⟩ := evaluate_closed g hr.closed
  have hquads : ∀ q ∈ quadsSet vars r.mutations, q.Closed query.binds := by
    intro q hq
    obtain ⟨m, hm, hq⟩ := List.mem_flatMap.1 hq
    exact hr.sets m (List.mem_filter.1 hm).1 q hq
  obtain ⟨d, hd'⟩ := setQuads_closed hd hquads ⟨g, .empty, .empty⟩
  refine ⟨⟨answer, d.blanks⟩, d.graph, execute_ok_iff.2 ⟨vars, d, ?_, ?_, rfl, rfl⟩⟩
  · rw [hr.asks]
    exact he
  · rw [applyMutations_eq hr.deletes]
    exact hd'

end Mutations

end Graph

end Inventory
