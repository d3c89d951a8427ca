import Inventory.Proofs.Graph.Filters
import Inventory.Proofs.Graph.Known
import Inventory.Proofs.Repository.Stored

/-!
Graphs that are alike as far as some scopes go, and queries that look no further. A query may start from any node and
follow hops to any, as long as its filters leave out whatever lies outside of the scopes before anything is made of it.
-/

namespace Inventory.Repository

open Inventory.Graph Query Listing Outcome Vocabulary

variable {g g' : Graph} {scopes free : List String} {u v : Uid} {us vs : List Uid} {vars vars' : Vars}
  {params : Bindings} {f : Filter} {fs : List Filter} {name label p : String}

/-- Graphs in which the nodes in some scopes are the same, and so are the nodes above and below these. -/
structure AlikeIn (scopes : List String) (g g' : Graph) : Prop where
  lists : ∀ p, g'.isList p = g.isList p
  placed : ∀ u, g'.inScopes scopes u = g.inScopes scopes u
  same : ∀ u, g.inScopes scopes u = true → Same g g' u
  above : ∀ u, g.inScopes scopes u = true → ∀ v ∈ g.edges u parent, Same g g' v
  sources : ∀ u, g.inScopes scopes u = true → g'.sources u parent = g.sources u parent
  below : ∀ u, g.inScopes scopes u = true → ∀ v ∈ g.sources u parent, Same g g' v

/-- Nodes in some scopes. -/
def Seen (g : Graph) (scopes : List String) (us : List Uid) : Prop := ∀ u ∈ us, g.inScopes scopes u = true

/-- Variables bound to nodes in some scopes, apart from some that are free to have others. -/
def Shown (g : Graph) (scopes free : List String) (vars : Vars) : Prop :=
  ∀ name, name ∉ free → Seen g scopes (vars.bound name)

/-- Two evaluations of one outcome, with what holds of it unless it is an error. -/
structure Concur {α : Type} (P : α → Prop) (x y : Eval α) : Prop where
  eq : y = x
  gives : ∀ a, x = .ok a → P a

namespace Concur

variable {α β : Type} {P : α → Prop} {Q : β → Prop} {x y : Eval α} {k k' : α → Eval β}

theorem ok {a : α} (h : P a) : Concur P (.ok a) (.ok a) := by
  refine ⟨rfl, fun b hb => ?_⟩
  cases hb
  exact h

theorem bind (h : Concur P x y) (hk : ∀ a, P a → Concur Q (k a) (k' a)) : Concur Q (x >>= k) (y >>= k') := by
  rw [h.eq]
  cases x with
  | error e => exact ⟨rfl, fun b hb => by cases hb⟩
  | ok a => exact hk a (h.gives a rfl)

theorem mapM {ι : Type} {step step' : ι → Eval α} {is : List ι} (h : ∀ i ∈ is, Concur P (step i) (step' i)) :
    Concur (fun as => ∀ a ∈ as, P a) (is.mapM step) (is.mapM step') := by
  induction is with
  | nil => exact ok fun _ ha => by cases ha
  | cons i is ih =>
      rw [List.mapM_cons, List.mapM_cons]
      refine (h i List.mem_cons_self).bind fun a ha => ?_
      refine (ih fun j hj => h j (List.mem_cons_of_mem i hj)).bind fun as has => ok ?_
      exact List.forall_mem_cons.2 ⟨ha, has⟩

end Concur

section Variables

theorem Shown.empty : Shown g scopes free .empty := fun _ _ _ hu => by cases hu

theorem Shown.extend? (hv : Shown g scopes free vars) (hu : Seen g scopes us) (o : Option String) :
    Shown g scopes free (vars.extend? o us) := by
  cases o with
  | none => exact hv
  | some name =>
      intro other hother u h
      rcases (bound_extend name other).1 h with ⟨-, h⟩ | h
      · exact hu u h
      · exact hv other hother u h

theorem Shown.extend_free (hv : Shown g scopes free vars) (hname : name ∈ free) :
    Shown g scopes free (vars.extend? (some name) us) := by
  intro other hother
  rw [Vars.extend?, (Vars.extends_extend vars name us).bound (ne_of_mem_of_not_mem hname hother).symm]
  exact hv other hother

end Variables

section Tests

/-- A filter that turns away whatever is outside of some scopes, whatever else it asks. -/
def Guards (scopes : List String) (f : Filter) : Prop :=
  ∀ g vars u, g.inScopes scopes u = false → holds g vars u f = .ok false

theorem guards_scopeFilter (scopes : List String) : Guards scopes (scopeFilter scopes) := by
  intro g vars u hu
  rw [holds_scopeFilter, hu]

theorem guards_and (h : Guards scopes f) (fs : List Filter) : Guards scopes (.and (f :: fs)) := by
  intro g vars u hu
  rw [holds, holdsAll, h g vars u hu]
  rfl

theorem guards_eq_and (p : String) (value : Json) (h : Guards scopes f) : Guards scopes (.and [.eq p value, f]) := by
  intro g vars u hu
  rw [holds, holdsAll_cons rfl (holdsAll_singleton (h g vars u hu)), Bool.and_false]

theorem guards_allOf (h : Guards scopes f) (fs : List Filter) :
    ∃ f', Filter.allOf (f :: fs) = some f' ∧ Guards scopes f' := by
  cases fs with
  | nil => exact ⟨f, rfl, h⟩
  | cons f' fs => exact ⟨_, rfl, guards_and h (f' :: fs)⟩

theorem contains_of_inScopes (h : g.inScopes scopes u = true) : g.contains u = true :=
  InScope.contains (inScopes_iff.1 h)

theorem Same.has (h : Same g g' u) (p : String) : g'.has u p = g.has u p := by
  rw [Graph.has, (h p).1, (h p).2, Graph.has]

mutual

theorem holds_same (h : Same g g' u) (vars : Vars) : ∀ f, holds g' vars u f = holds g vars u f
  | .eq p _ => by rw [holds, holds, (h p).1]
  | .ge p _ => by rw [holds, holds, (h p).1]
  | .regex p _ _ => by rw [holds, holds, (h p).1]
  | .uid _ => by rw [holds, holds]
  | .has p => by rw [holds, holds, h.has]
  | .and fs => by rw [holds, holds, holdsAll_same h vars fs]
  | .or fs => by rw [holds, holds, holdsAny_same h vars fs]
  | .not f => by rw [holds, holds, holds_same h vars f]

theorem holdsAll_same (h : Same g g' u) (vars : Vars) : ∀ fs, holdsAll g' vars u fs = holdsAll g vars u fs
  | [] => rfl
  | f :: fs => by rw [holdsAll, holdsAll, holds_same h vars f, holdsAll_same h vars fs]

theorem holdsAny_same (h : Same g g' u) (vars : Vars) : ∀ fs, holdsAny g' vars u fs = holdsAny g vars u fs
  | [] => rfl
  | f :: fs => by rw [holdsAny, holdsAny, holds_same h vars f, holdsAny_same h vars fs]

end

theorem passes_same (h : Same g g' u) (vars : Vars) (o : Option Filter) : passes g' vars o u = passes g vars o u := by
  cases o with
  | none => rfl
  | some f => exact holds_same h vars f

variable {test test' : Uid → Eval Bool}

theorem sift_congr (h : ∀ u ∈ us, test' u = test u) : sift test' us = sift test us := by
  induction us with
  | nil => rfl
  | cons u us ih =>
      rw [sift, sift, h u List.mem_cons_self, ih fun v hv => h v (List.mem_cons_of_mem u hv)]

/-- What a test is sure to turn away can be left out before. -/
theorem sift_filter {keep : Uid → Bool} (h : ∀ u, keep u = false → test u = .ok false) (us : List Uid) :
    sift test us = sift test (us.filter keep) := by
  induction us with
  | nil => rfl
  | cons u us ih =>
      rw [sift, ih, List.filter_cons]
      cases hk : keep u with
      | true => rw [if_pos rfl, sift]
      | false =>
          rw [h u hk]
          exact bind_pure (sift test (us.filter keep))

theorem passes_of_sift (h : sift test us = .ok vs) : ∀ v ∈ vs, test v = .ok true := by
  induction us generalizing vs with
  | nil =>
      cases h
      exact fun v hv => by cases hv
  | cons u us ih =>
      obtain ⟨b, hb, h⟩ := bind_ok_iff.1 h
      obtain ⟨rest, hrest, h⟩ := bind_ok_iff.1 h
      cases h
      cases b with
      | false => exact ih hrest
      | true => exact List.forall_mem_cons.2 ⟨hb, ih hrest⟩

end Tests

section Starts

variable (h : AlikeIn scopes g g')

include h

theorem AlikeIn.filter_uids {test test' : Uid → Bool} (ht : ∀ u, g.inScopes scopes u = true → test' u = test u) :
    (g'.uids.filter test').filter (g.inScopes scopes) = (g.uids.filter test).filter (g.inScopes scopes) := by
  refine OrderedSet.items_eq_of_mem_iff (((increasing_uids g').filter _).filter _)
    (((increasing_uids g).filter _).filter _) fun u => ?_
  simp only [List.mem_filter, mem_uids]
  refine and_congr_left fun hu => ?_
  have hu' : g'.inScopes scopes u = true := (h.placed u).trans hu
  simp [contains_of_inScopes hu, contains_of_inScopes hu', ht u hu]

/-- A block may start from any nodes: those in the scopes are the same. -/
theorem AlikeIn.startNodes (vars : Vars) (root : Root) : Concur (Seen g scopes)
    ((Graph.startNodes g vars root).map (List.filter (g.inScopes scopes)))
    ((Graph.startNodes g' vars root).map (List.filter (g.inScopes scopes))) := by
  refine ⟨?_, fun us hus u hu => ?_⟩
  · cases root with
    | eq p value =>
        exact congrArg Except.ok (h.filter_uids fun u hu => by rw [(h.same u hu p).1])
    | has p => exact congrArg Except.ok (h.filter_uids fun u hu => (h.same u hu).has p)
    | type t =>
        exact congrArg Except.ok (h.filter_uids fun u hu => by rw [(h.same u hu nodeType).1])
    | uid refs =>
        rw [Graph.startNodes, Graph.startNodes]
        cases refSet vars refs with
        | error e => rfl
        | ok s =>
            refine congrArg Except.ok ?_
            rw [List.filter_filter, List.filter_filter]
            refine List.filter_congr fun u _ => ?_
            cases hu : g.inScopes scopes u with
            | false => rfl
            | true => rw [contains_of_inScopes hu, contains_of_inScopes ((h.placed u).trans hu)]
  · cases hs : Graph.startNodes g vars root with
    | error e =>
        rw [hs] at hus
        cases hus
    | ok start =>
        rw [hs] at hus
        cases hus
        exact (List.mem_filter.1 hu).2

end Starts

/-- How a block finds nodes in some scopes only: by a filter, or from a variable that has no others. -/
inductive Enters (scopes free : List String) : Root → Option Filter → Prop
  | guarded (root : Root) (f : Filter) (hf : Guards scopes f) : Enters scopes free root (some f)
  | bound (name : String) (o : Option Filter) (hname : name ∉ free) : Enters scopes free (.uid (uidVar name)) o

/-- In either way, what is outside of the scopes may as well be left out from the start. -/
theorem Enters.filter {root : Root} {o : Option Filter} (he : Enters scopes free root o)
    (hv : Shown g scopes free vars) : startNodes g vars root >>= sift (passes g vars o) =
      (startNodes g vars root).map (List.filter (g.inScopes scopes)) >>= sift (passes g vars o) := by
  cases hs : startNodes g vars root with
  | error e => rfl
  | ok start =>
      cases he with
      | guarded _ f hf => exact sift_filter (fun u hu => hf g vars u hu) start
      | bound name o hname =>
          have hstart : start.filter (g.inScopes scopes) = start := by
            refine List.filter_eq_self.2 fun u hu => hv name hname u ?_
            rw [startNodes_uidVar hs] at hu
            exact (List.mem_filter.1 hu).1
          exact congrArg (sift _) hstart.symm

theorem AlikeIn.enters {root : Root} {o : Option Filter} (h : AlikeIn scopes g g') (he : Enters scopes free root o)
    (hv : Shown g scopes free vars) : Concur (Seen g scopes)
      (Graph.startNodes g vars root >>= sift (passes g vars o))
      (Graph.startNodes g' vars root >>= sift (passes g' vars o)) := by
  have hplaced : g'.inScopes scopes = g.inScopes scopes := funext h.placed
  have hv' : Shown g' scopes free vars := fun name hname u hu => (h.placed u).trans (hv name hname u hu)
  rw [he.filter hv, he.filter hv', hplaced]
  refine (h.startNodes vars root).bind fun us hus => ⟨?_, fun vs hvs u hu => hus u (sift_subset hvs hu)⟩
  exact sift_congr fun u hu => passes_same (h.same u (hus u hu)) vars o

section Hops

/-- A hop from nodes in some scopes to others in them, which does not tell graphs apart that are alike there. -/
def Bounded (scopes : List String) (edge : Edge) (o : Option Filter) : Prop :=
  ∀ g g' vars u, AlikeIn scopes g g' → g.inScopes scopes u = true →
    Concur (Seen g scopes) (hop g vars edge o u) (hop g' vars edge o u)

theorem AlikeIn.targets_forward (h : AlikeIn scopes g g') (hu : g.inScopes scopes u = true) (p : String) :
    g'.targets u ⟨p, false⟩ = g.targets u ⟨p, false⟩ := congrArg OrderedSet.items (h.same u hu p).2

theorem AlikeIn.targets {edge : Edge} (h : AlikeIn scopes g g') (hu : g.inScopes scopes u = true)
    (he : edge.reverse = true → edge.predicate = parent) : g'.targets u edge = g.targets u edge := by
  unfold Graph.targets
  split
  · rename_i hr
    rw [he hr, h.sources u hu]
  · rw [(h.same u hu _).2]

theorem bounded_of_guards {edge : Edge} (he : edge.reverse = true → edge.predicate = parent) (hf : Guards scopes f) :
    Bounded scopes edge (some f) := by
  intro g g' vars u h hu
  have hin : ∀ k : Graph, ∀ v, holds k vars v f = .ok true → k.inScopes scopes v = true := by
    intro k v hv
    by_contra hn
    rw [hf k vars v (Bool.eq_false_iff.2 hn)] at hv
    cases hv
  refine ⟨?_, fun vs hvs v hv => hin g v (passes_of_sift hvs v hv)⟩
  rw [hop, h.targets hu he]
  refine sift_congr fun v _ => ?_
  cases hv : g.inScopes scopes v with
  | true => exact passes_same (h.same v hv) vars _
  | false => exact (hf g' vars v ((h.placed v).trans hv)).trans (hf g vars v hv).symm

/-- The children of a node in the scopes are the same, so that what is asked of them may come first. -/
theorem bounded_below (hf : ∀ g vars u, holds g vars u f = .ok true → g.inScopes scopes u = true) :
    Bounded scopes ⟨parent, true⟩ (some f) := by
  intro g g' vars u h hu
  refine ⟨?_, fun vs hvs v hv => hf g vars v (passes_of_sift hvs v hv)⟩
  rw [hop, h.targets hu fun _ => rfl]
  exact sift_congr fun v hv => passes_same (h.below u hu v hv) vars _

/-- Bounded hops, the last of which may lead anywhere if that is kept in a variable that is free for it. -/
inductive Shielded (scopes free : List String) : Traversal → Prop
  | hop (edge : Edge) (o : Option Filter) (bind : Option String) (ts : List Traversal) (hb : Bounded scopes edge o)
      (hts : ∀ t ∈ ts, Shielded scopes free t) : Shielded scopes free ⟨edge, o, bind, ts⟩
  | last (p name : String) (hname : name ∈ free) : Shielded scopes free ⟨⟨p, false⟩, none, some name, []⟩

theorem seen_flatten {uss : List (List Uid)} (h : ∀ us ∈ uss, Seen g scopes us) :
    Seen g scopes (OrderedSet.ofList uss.flatten).items := by
  intro u hu
  obtain ⟨us, hus, hu⟩ := List.mem_flatten.1 (OrderedSet.mem_ofList.1 hu)
  exact h us hus u hu

theorem sift_passed (us : List Uid) : sift (passes g vars none) us = .ok us :=
  (sift_eq_filter fun _ => rfl).trans (by rw [List.filter_true])

mutual

theorem concur_traverse (h : AlikeIn scopes g g') : ∀ {us : List Uid} {vars : Vars} (t : Traversal),
    Shielded scopes free t → Seen g scopes us → Shown g scopes free vars →
      Concur (Shown g scopes free) (Graph.traverse g vars us t) (Graph.traverse g' vars us t)
  | us, vars, ⟨edge, o, bind, ts⟩, ht, hu, hv => by
      rw [Graph.traverse, Graph.traverse]
      cases ht with
      | hop _ _ _ _ hb hts =>
          refine (Concur.mapM fun u hmem => hb g g' vars u h (hu u hmem)).bind fun uss huss => ?_
          have hseen := seen_flatten huss
          exact concur_traverseAll h ts hts hseen (hv.extend? hseen bind)
      | last p name hname =>
          have hreach : ∀ u ∈ us, Concur (fun _ => True) (Graph.hop g vars ⟨p, false⟩ none u)
              (Graph.hop g' vars ⟨p, false⟩ none u) := by
            refine fun u hmem => ⟨?_, fun _ _ => trivial⟩
            rw [Graph.hop, Graph.hop, h.targets_forward (hu u hmem), sift_passed, sift_passed]
          exact (Concur.mapM hreach).bind fun uss _ => .ok (hv.extend_free hname)

theorem concur_traverseAll (h : AlikeIn scopes g g') : ∀ {us : List Uid} {vars : Vars} (ts : List Traversal),
    (∀ t ∈ ts, Shielded scopes free t) → Seen g scopes us → Shown g scopes free vars →
      Concur (Shown g scopes free) (traverseAll g vars us ts) (traverseAll g' vars us ts)
  | _, _, [], _, _, hv => .ok hv
  | us, vars, t :: ts, hts, hu, hv => by
      obtain ⟨ht, hts⟩ := List.forall_mem_cons.1 hts
      exact (concur_traverse h t ht hu hv).bind fun vars₁ hv₁ => concur_traverseAll h ts hts hu hv₁

end

end Hops

section Repeated

variable {loop : Bool} {ts : List Traversal} {e : Expansion}

/-- Repeated hops that have led to nodes in some scopes. -/
structure Stays (g : Graph) (scopes free : List String) (e : Expansion) : Prop where
  vars : Shown g scopes free e.vars
  reached : Seen g scopes e.reached

theorem stays_takes (he : Stays g scopes free e) (hu : Seen g scopes us) (o : Option String) :
    Stays g scopes free (us.foldl (Expansion.take loop o) e) := by
  induction us generalizing e with
  | nil => exact he
  | cons u us ih =>
      refine ih ?_ fun v hv => hu v (List.mem_cons_of_mem u hv)
      unfold Expansion.take
      split
      · exact he
      · have hone : Seen g scopes [u] := fun v hv => List.mem_singleton.1 hv ▸ hu u List.mem_cons_self
        exact ⟨he.vars.extend? hone o, fun v hv => (List.mem_append.1 hv).elim (he.reached v) (hone v)⟩

variable (h : AlikeIn scopes g g') (hts : ∀ t ∈ ts, Bounded scopes t.edge t.filter)

include h hts

theorem concur_expandNode (hu : g.inScopes scopes u = true) (he : Stays g scopes free e) :
    Concur (Stays g scopes free) (expandNode g loop u ts e) (expandNode g' loop u ts e) := by
  induction ts generalizing e with
  | nil => exact .ok he
  | cons t ts ih =>
      obtain ⟨ht, hts⟩ := List.forall_mem_cons.1 hts
      exact (ht g g' e.vars u h hu).bind fun us hus => ih hts (stays_takes he hus t.bind)

theorem concur_expandFrontier (hu : Seen g scopes us) (he : Stays g scopes free e) :
    Concur (Stays g scopes free) (expandFrontier g loop ts us e) (expandFrontier g' loop ts us e) := by
  induction us generalizing e with
  | nil => exact .ok he
  | cons u us ih =>
      obtain ⟨hu, hus⟩ := List.forall_mem_cons.1 hu
      exact (concur_expandNode h hts hu he).bind fun e he => ih hus he

theorem concur_expand {depth : Nat} {visited : UidSet} (hu : Seen g scopes us) (hv : Shown g scopes free vars) :
    Concur (Shown g scopes free) (expand g loop ts depth us visited vars)
      (expand g' loop ts depth us visited vars) := by
  induction depth generalizing us visited vars with
  | zero => exact .ok hv
  | succ depth ih =>
      refine (concur_expandFrontier h hts hu ⟨hv, fun _ hu => by cases hu⟩).bind fun e he => ?_
      split
      · exact .ok he.vars
      · exact ih he.reached he.vars

theorem concur_recur {r : Recursion} (hu : Seen g scopes us) (hv : Shown g scopes free vars) :
    Concur (Shown g scopes free) (recur g vars us r ts) (recur g' vars us r ts) := by
  refine concur_expand h hts hu (List.foldlRecOn ts _ hv fun vars hv t _ => ?_)
  exact hv.extend? (fun _ hu => by cases hu) t.bind

end Repeated

section Rows

/-- A selection that reports alike of a node in some scopes, wherever graphs are alike in them. -/
def Apparent (scopes : List String) (s : Selection) : Prop :=
  ∀ g g' u, AlikeIn scopes g g' → g.inScopes scopes u = true → selected g' u s = selected g u s

theorem fieldValue?_same (hl : ∀ p, g'.isList p = g.isList p) (h : Same g g' u) (p : String) :
    fieldValue? g' u p = fieldValue? g u p := by
  rw [fieldValue?, fieldValue?, (h p).1, (h p).2, hl p]

theorem selected_field_same (hl : ∀ p, g'.isList p = g.isList p) (h : Same g g' u) (label p : String) :
    selected g' u (.field label p) = selected g u (.field label p) := by
  rw [selected, selected, fieldValue?_same hl h]

theorem apparent_field (label p : String) : Apparent scopes (.field label p) :=
  fun _ _ u h hu => selected_field_same h.lists (h.same u hu) label p

theorem apparent_count (label : String) : Apparent scopes (.count label) := fun _ _ _ _ _ => rfl

theorem apparent_parent (label : String) {ss : List Selection} (hss : ∀ s ∈ ss, ∃ label p, s = .field label p) :
    Apparent scopes (.edge label ⟨parent, false⟩ ss) := by
  intro g g' u h hu
  have hfields : ∀ v, Same g g' v → selectedAll g' v ss = selectedAll g v ss := by
    intro v hv
    induction ss with
    | nil => rfl
    | cons s ss ih =>
        obtain ⟨⟨l, p, rfl⟩, hrest⟩ := List.forall_mem_cons.1 hss
        rw [selectedAll, selectedAll, selected_field_same h.lists hv, ih hrest]
  have hrows : ∀ v ∈ g.targets u ⟨parent, false⟩,
      Json.ofFields (selectedAll g' v ss) = Json.ofFields (selectedAll g v ss) := fun v hv =>
    congrArg Json.ofFields (hfields v (h.above u hu v hv))
  rw [selected, selected, h.targets_forward hu]
  generalize g.targets u ⟨parent, false⟩ = vs at hrows
  cases vs with
  | nil => rfl
  | cons v vs => simp only [List.map_congr_left hrows]

theorem project_apparent {ss : List Selection} (h : AlikeIn scopes g g') (hss : ∀ s ∈ ss, Apparent scopes s)
    (hu : Seen g scopes us) : project g' us ss = project g us ss := by
  have hrow : ∀ u ∈ us, g'.row u ss = g.row u ss := by
    refine fun u hmem => congrArg Json.ofFields ?_
    induction ss with
    | nil => rfl
    | cons s ss ih =>
        obtain ⟨hs, hss⟩ := List.forall_mem_cons.1 hss
        rw [selectedAll, selectedAll, hs g g' u h (hu u hmem), ih hss]
  unfold project
  split
  · rfl
  · exact List.map_congr_left hrow

theorem sorted_same (h : ∀ u ∈ us, Same g g' u) (o : Option Order) : g'.sorted o us = g.sorted o us := by
  cases o with
  | none => rfl
  | some o =>
      have hmap := List.map_mergeSort (r := fun u v => nodeOrder g' o u v != .gt)
        (s := fun u v => nodeOrder g o u v != .gt) (f := id) (l := us) fun u hu v hv => by
          rw [nodeOrder, nodeOrder, (h u hu o.predicate).1, (h v hv o.predicate).1]
          rfl
      rwa [List.map_id, List.map_id] at hmap

end Rows

section Blocks

/-- A block that looks no further than some scopes. -/
structure Confined (scopes free : List String) (b : Block) : Prop where
  enters : Enters scopes free b.root b.filter
  hops : match b.recursion with
    | some _ => ∀ t ∈ b.traversals, Bounded scopes t.edge t.filter
    | none => ∀ t ∈ b.traversals, Shielded scopes free t
  selections : ∀ s ∈ b.selections, Apparent scopes s

variable {b : Block} (h : AlikeIn scopes g g')

include h

theorem concur_blockNodes (hb : Enters scopes free b.root b.filter) (hv : Shown g scopes free vars) :
    Concur (Seen g scopes) (blockNodes g params vars b) (blockNodes g' params vars b) := by
  have hnodes : ∀ k : Graph, blockNodes k params vars b = (startNodes k vars b.root >>= sift (passes k vars b.filter))
      >>= fun kept => cut params b (k.sorted b.order kept) := fun k => by rw [blockNodes, bind_assoc]
  rw [hnodes, hnodes]
  refine (h.enters hb hv).bind fun kept hk => ?_
  rw [sorted_same (fun u hu => h.same u (hk u hu)) b.order]
  refine ⟨rfl, fun us hus u hu => hk u ?_⟩
  exact (sorted_perm b.order kept).subset (cut_subset hus hu)

theorem concur_evalBlock (hb : Confined scopes free b) (hv : Shown g scopes free vars) :
    Concur (fun a => Seen g scopes a.1 ∧ Shown g scopes free a.2) (evalBlock g params vars b)
      (evalBlock g' params vars b) := by
  refine (concur_blockNodes h hb.enters hv).bind fun us hus => ?_
  have hv := hv.extend? hus b.bind
  have hops := hb.hops
  cases hr : b.recursion with
  | none =>
      rw [hr] at hops
      exact (concur_traverseAll h b.traversals hops hus hv).bind fun vars₁ hv₁ => .ok ⟨hus, hv₁⟩
  | some r =>
      rw [hr] at hops
      exact (concur_recur h hops hus hv).bind fun vars₁ hv₁ => .ok ⟨hus, hv₁⟩

theorem concur_evalBlocks {bs : List Block} {answer : Answer} (hbs : ∀ b ∈ bs, Confined scopes free b)
    (hv : Shown g scopes free vars) :
    evalBlocks g' params vars answer bs = evalBlocks g params vars answer bs := by
  induction bs generalizing vars answer with
  | nil => rfl
  | cons b bs ih =>
      obtain ⟨hb, hbs⟩ := List.forall_mem_cons.1 hbs
      have he : Concur (fun a => Seen g scopes a.1 ∧ Shown g scopes free a.2) (evalBlock g params vars b)
          (evalBlock g' params vars b) := concur_evalBlock h hb hv
      rw [evalBlocks, evalBlocks, he.eq]
      cases hr : evalBlock g params vars b with
      | error e => rfl
      | ok a =>
          obtain ⟨hus, hv⟩ := he.gives a hr
          change evalBlocks g' params a.2 _ bs = evalBlocks g params a.2 _ bs
          rw [project_apparent h hb.selections hus, ih hbs hv]

/-- Graphs that are alike in some scopes give one answer to a query that looks no further. -/
theorem evaluate_confined {q : Query} (hq : ∀ b ∈ q.blocks, Confined scopes free b) :
    evaluate g' q params = evaluate g q params :=
  concur_evalBlocks h hq .empty

end Blocks

end Inventory.Repository
