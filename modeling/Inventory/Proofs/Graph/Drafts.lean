import Inventory.Graph.Mutation
import Inventory.Proofs.Graph.Intact
import Inventory.Proofs.Outcome

/-!
What a request that only sets makes of a graph. Which node a subject stands for is settled once the first quad has
used it, so that the cells after a request follow from its quads and from the nodes made for it.
-/

namespace Inventory.Graph

open Store Outcome

variable {g : Graph} {vars : Vars} {d d' : Draft} {s : Subject} {us : List Uid} {u w : Uid} {p : String} {q : Quad}

/-- The node made for a subject. -/
def Draft.made? (d : Draft) : Subject → Option Uid
  | .blank label => d.blanks.get? label
  | .var name => d.fresh.get? name
  | .node _ => none

/-- The nodes bound to a variable of a query. -/
def Vars.bound (vars : Vars) (name : String) : List Uid := ((vars.get? name).getD .empty).items

/-- The nodes a subject stands for so far. -/
def Draft.nodes (vars : Vars) (d : Draft) : Subject → List Uid
  | .node u => [u]
  | .blank label => (d.made? (.blank label)).toList
  | .var name => if (vars.bound name).isEmpty then (d.made? (.var name)).toList else vars.bound name

/-- The nodes that subjects may stand for without being made. -/
def Vars.Known (g : Graph) (vars : Vars) : Prop := ∀ name, ∀ u ∈ vars.bound name, g.contains u = true

theorem Vars.Known.empty {g : Graph} : Vars.Known g .empty := by
  intro name u hu
  cases hu

/-- A draft of a request on `g`, whose new nodes are those made for subjects, one for each. -/
structure Draft.Over (g : Graph) (vars : Vars) (d : Draft) : Prop where
  intact : d.graph.Intact
  predicates : d.graph.predicates = g.predicates
  grows : ∀ w, g.contains w = true → d.graph.contains w = true
  made_new : ∀ s u, d.made? s = some u → d.graph.contains u = true ∧ ¬g.contains u = true
  made_inj : ∀ s t u, d.made? s = some u → d.made? t = some u → s = t
  made_all : ∀ w, d.graph.contains w = true → g.contains w = true ∨ ∃ s, d.made? s = some w

/-- A draft with more nodes, all else in place. -/
structure Draft.Opens (d d' : Draft) : Prop where
  made : ∀ s u, d.made? s = some u → d'.made? s = some u
  contains : ∀ w, d.graph.contains w = true → d'.graph.contains w = true
  values : ∀ w p, d'.graph.values w p = d.graph.values w p
  edges : ∀ w p, d'.graph.edges w p = d.graph.edges w p

namespace Draft

theorem Opens.refl (d : Draft) : d.Opens d := ⟨fun _ _ h => h, fun _ h => h, fun _ _ => rfl, fun _ _ => rfl⟩

theorem Over.start (hg : g.Intact) : Over g vars ⟨g, .empty, .empty⟩ := by
  have hm : ∀ s, Draft.made? ⟨g, .empty, .empty⟩ s = none := by
    intro s
    cases s <;> rfl
  refine ⟨hg, rfl, fun _ h => h, ?_, ?_, fun w hw => .inl hw⟩
  · intro s u h
    rw [hm] at h
    cases h
  · intro s t u h
    rw [hm] at h
    cases h

end Draft

/-- A node made for a subject that had none. -/
structure Draft.Makes (s : Subject) (d d' : Draft) : Prop where
  unmade : d.made? s = none
  graph : d'.graph = d.graph.allocate.2
  made : ∀ t, d'.made? t = if t = s then some ⟨d.graph.lastUid + 1⟩ else d.made? t

namespace Draft.Makes

theorem blank {label : String} (hu : d.blanks.get? label = none) :
    d.Makes (.blank label) { d.allocate.2 with blanks := d.blanks.insert label d.allocate.1 } := by
  refine ⟨hu, rfl, fun t => ?_⟩
  cases t with
  | blank l => simp [made?, allocate, Graph.allocate]
  | var n => simp [made?, allocate]
  | node v => simp [made?]

theorem var {name : String} (hu : d.fresh.get? name = none) :
    d.Makes (.var name) { d.allocate.2 with fresh := d.fresh.insert name d.allocate.1 } := by
  refine ⟨hu, rfl, fun t => ?_⟩
  cases t with
  | blank l => simp [made?, allocate]
  | var n => simp [made?, allocate, Graph.allocate]
  | node v => simp [made?]

variable (h : d.Makes s d')

include h

theorem made_iff {t : Subject} :
    d'.made? t = some u ↔ (t = s ∧ u = ⟨d.graph.lastUid + 1⟩) ∨ d.made? t = some u := by
  rw [h.made]
  by_cases ht : t = s
  · subst ht
    simp [h.unmade, eq_comm]
  · simp [ht]

theorem made_self : d'.made? s = some d.allocate.1 := h.made_iff.2 (.inl ⟨rfl, rfl⟩)

theorem contains_self : d'.graph.contains d.allocate.1 = true := by
  simp [h.graph, allocate, Graph.allocate, contains, Table.contains]

variable (hd : d.Over g vars)

include hd

theorem opens : d.Opens d' := by
  have hn := hd.intact.not_contains_next
  refine ⟨fun t u ht => h.made_iff.2 (.inr ht), fun w hw => ?_, fun w p => ?_, fun w p => ?_⟩
  · simp [h.graph, hw]
  · rw [h.graph, values_allocate _ _ _ hn]
  · rw [h.graph, edges_allocate _ _ _ hn]

theorem overlay : d'.Over g vars := by
  have hn := hd.intact.not_contains_next
  have hold : ∀ {t u}, d.made? t = some u → u ≠ ⟨d.graph.lastUid + 1⟩ := by
    rintro t _ ht rfl
    exact hn (hd.made_new t _ ht).1
  refine ⟨?_, ?_, fun w hw => ?_, fun t u ht => ?_, fun t t' u ht ht' => ?_, fun w hw => ?_⟩
  · rw [h.graph]
    exact hd.intact.allocate
  · rw [h.graph]
    exact hd.predicates
  · simp [h.graph, hd.grows w hw]
  · rcases h.made_iff.1 ht with ⟨-, rfl⟩ | ht
    · exact ⟨by simp [h.graph], fun hg => hn (hd.grows _ hg)⟩
    · obtain ⟨hu, hg⟩ := hd.made_new t u ht
      exact ⟨by simp [h.graph, hu], hg⟩
  · rcases h.made_iff.1 ht with ⟨rfl, hu⟩ | ht
    · rcases h.made_iff.1 ht' with ⟨rfl, -⟩ | ht'
      · rfl
      · exact absurd hu (hold ht')
    · rcases h.made_iff.1 ht' with ⟨-, hu⟩ | ht'
      · exact absurd hu (hold ht)
      · exact hd.made_inj t t' u ht ht'
  · rw [h.graph, contains_allocate, Bool.or_eq_true, decide_eq_true_eq] at hw
    rcases hw with hw | rfl
    · exact (hd.made_all w hw).imp_right fun ⟨t, ht⟩ => ⟨t, h.made_iff.2 (.inr ht)⟩
    · exact .inr ⟨s, h.made_iff.2 (.inl ⟨rfl, rfl⟩)⟩

end Draft.Makes

/-- A subject is resolved to nodes that are there, or a node is made for it. -/
theorem resolve_cases {make : Bool} (h : resolve vars make d s = .ok (us, d')) : d' = d ∨ d.Makes s d' := by
  cases s with
  | node u =>
      simp only [resolve] at h
      split at h
      · cases h
        exact .inl rfl
      · cases h
  | blank label =>
      simp only [resolve] at h
      split at h
      · cases h
        exact .inl rfl
      · rename_i hnone
        split at h
        · cases h
          exact .inr (.blank hnone)
        · cases h
          exact .inl rfl
  | var name =>
      simp only [resolve] at h
      split at h
      · cases h
      · split at h
        · cases h
          exact .inl rfl
        · cases h
          exact .inl rfl
        · rename_i hnone
          split at h
          · cases h
            exact .inr (.var hnone)
          · cases h
            exact .inl rfl

/-- What is so once a subject stands for nodes. -/
structure Resolved (g : Graph) (vars : Vars) (d : Draft) (s : Subject) (us : List Uid) (d' : Draft) : Prop where
  overlay : d'.Over g vars
  opens : d.Opens d'
  nodes : us = d'.nodes vars s
  nonempty : us ≠ []
  contains : ∀ u ∈ us, d'.graph.contains u = true

namespace Resolved

theorem of_made (hd : d.Over g vars) (hu : d.made? s = some u) (hn : d.nodes vars s = (d.made? s).toList) :
    Resolved g vars d s [u] d := by
  refine ⟨hd, .refl _, by rw [hn, hu]; rfl, List.cons_ne_nil _ _, ?_⟩
  simpa using (hd.made_new s u hu).1

theorem of_makes (hd : d.Over g vars) (h : d.Makes s d') (hn : d'.nodes vars s = (d'.made? s).toList) :
    Resolved g vars d s [d.allocate.1] d' := by
  refine ⟨h.overlay hd, h.opens hd, by rw [hn, h.made_self]; rfl, List.cons_ne_nil _ _, ?_⟩
  simpa using h.contains_self

end Resolved

theorem resolve_spec (hv : vars.Known g) (hd : d.Over g vars) (h : resolve vars true d s = .ok (us, d')) :
    Resolved g vars d s us d' := by
  cases s with
  | node u =>
      simp only [resolve] at h
      split at h
      · rename_i hu
        cases h
        exact ⟨hd, .refl _, rfl, by simp, by simpa using hu⟩
      · cases h
  | blank label =>
      simp only [resolve] at h
      split at h
      · rename_i u hu
        cases h
        exact .of_made hd hu rfl
      · rename_i hu
        cases h
        exact .of_makes hd (.blank hu) rfl
  | var name =>
      simp only [resolve] at h
      split at h
      · cases h
      · rename_i bound hb
        have hbound : vars.bound name = bound.items := by simp [Vars.bound, hb]
        split at h
        · rename_i v vs _ hvs
          cases h
          refine ⟨hd, .refl _, ?_, by simp, fun u hu => ?_⟩
          · simp [Draft.nodes, hbound, hvs]
          · exact hd.grows u (hv name u (by rw [hbound, hvs]; exact hu))
        · rename_i u hnil hu
          cases h
          exact .of_made hd hu (by simp [Draft.nodes, hbound, hnil])
        · rename_i hnil hu
          cases h
          exact .of_makes hd (.var hu) (by simp [Draft.nodes, hbound, hnil])

section Folds

variable {ts : List Uid} {v : Json}

@[simp]
theorem isList_setValue (u : Uid) (r : String) : (g.setValue u p v).isList r = g.isList r := by simp [isList]

@[simp]
theorem keepsEdges_setEdge (u t : Uid) (r : String) : (g.setEdge u p t).keepsEdges r = g.keepsEdges r := by
  simp [keepsEdges]

theorem values_setValues (hc : ∀ u ∈ us, g.contains u = true) (r : String) :
    (us.foldl (fun g u => g.setValue u p v) g).values w r =
      if w ∈ us ∧ p = r then put (g.isList p) (g.values w p) v else g.values w r := by
  induction us generalizing g with
  | nil => simp
  | cons u us ih =>
      have hu : g.contains u = true := hc u (by simp)
      rw [List.foldl_cons, ih fun u' hu' => by simpa using hc u' (by simp [hu'])]
      simp only [values_setValue, hu, isList_setValue, true_and, List.mem_cons, eq_comm (a := p)]
      by_cases hr : r = p
      · subst hr
        by_cases hw : w = u
        · subst hw
          simp [put_put]
        · simp [hw]
      · simp [hr]

theorem edges_setEdges (hu : g.contains u = true) (r : String) :
    (ts.foldl (fun g t => g.setEdge u p t) g).edges w r =
      if w = u ∧ r = p then ts.foldl (link (g.keepsEdges p)) (g.edges u p) else g.edges w r := by
  induction ts generalizing g with
  | nil =>
      split
      · rename_i h
        rw [h.1, h.2]
        rfl
      · rfl
  | cons t ts ih =>
      rw [List.foldl_cons, ih (by simpa using hu)]
      simp only [edges_setEdge, hu, true_and, keepsEdges_setEdge, and_self, if_true, List.foldl_cons]
      split
      · rfl
      · rfl

theorem foldl_link_of_adding {c : UidSet} {t : Uid} : t ∈ ts.foldl (link true) c ↔ t ∈ ts ∨ t ∈ c := by
  induction ts generalizing c with
  | nil => simp
  | cons t ts ih => simp [ih, mem_link, or_assoc, or_left_comm]

theorem mem_of_mem_foldl_link {keeps : Bool} {c : UidSet} {t : Uid} (h : t ∈ ts.foldl (link keeps) c) :
    t ∈ ts ∨ t ∈ c := by
  induction ts generalizing c with
  | nil => exact .inr h
  | cons u ts ih =>
      rcases ih h with h | h
      · exact .inl (List.mem_cons_of_mem u h)
      · rcases mem_link.1 h with rfl | ⟨-, h⟩
        · exact .inl List.mem_cons_self
        · exact .inr h

/-- The last of several values is left where a predicate keeps one. -/
theorem foldl_put_single (vs ws : List Json) :
    ws.foldl (put false) vs =
      match ws.getLast? with
      | some v => [v]
      | none => vs := by
  induction ws generalizing vs with
  | nil => rfl
  | cons w ws ih =>
      rw [List.foldl_cons, ih, List.getLast?_cons]
      cases ws.getLast? <;> rfl

theorem foldl_link_of_single {c : UidSet} (h : ts ≠ []) :
    ts.foldl (link false) c = link false .empty (ts.getLast h) := by
  induction ts generalizing c with
  | nil => exact absurd rfl h
  | cons t ts ih =>
      cases ts with
      | nil => rfl
      | cons t' ts => exact ih (by simp)

theorem foldl_link_twice {keeps : Bool} {c : UidSet} :
    ts.foldl (link keeps) (ts.foldl (link keeps) c) = ts.foldl (link keeps) c := by
  cases keeps with
  | true =>
      ext v
      simp [foldl_link_of_adding]
  | false =>
      by_cases h : ts = []
      · subst h
        rfl
      · rw [foldl_link_of_single h, foldl_link_of_single h]

theorem predicates_setEdges (u : Uid) : (ts.foldl (fun g t => g.setEdge u p t) g).predicates = g.predicates := by
  induction ts generalizing g with
  | nil => rfl
  | cons t ts ih => rw [List.foldl_cons, ih, predicates_setEdge]

theorem contains_setEdges (u : Uid) : (ts.foldl (fun g t => g.setEdge u p t) g).contains w = g.contains w := by
  induction ts generalizing g with
  | nil => rfl
  | cons t ts ih => rw [List.foldl_cons, ih, contains_setEdge]

theorem edges_setAllEdges (hc : ∀ u ∈ us, g.contains u = true) (r : String) :
    (us.foldl (fun g u => ts.foldl (fun g t => g.setEdge u p t) g) g).edges w r =
      if w ∈ us ∧ p = r then ts.foldl (link (g.keepsEdges p)) (g.edges w p) else g.edges w r := by
  induction us generalizing g with
  | nil => simp
  | cons u us ih =>
      have hu : g.contains u = true := hc u (by simp)
      have hk : ∀ r, (ts.foldl (fun g t => g.setEdge u p t) g).keepsEdges r = g.keepsEdges r := by
        intro r
        rw [keepsEdges, predicates_setEdges, ← keepsEdges]
      rw [List.foldl_cons, ih fun u' hu' => by simpa [contains_setEdges] using hc u' (by simp [hu'])]
      simp only [edges_setEdges hu, hk, List.mem_cons, and_true, eq_comm (a := p)]
      by_cases hr : r = p
      · subst hr
        by_cases hw : w = u
        · subst hw
          simp [foldl_link_twice]
        · simp [hw]
      · simp [hr]

end Folds

/-- The values that a quad writes to a cell. -/
def Draft.written (vars : Vars) (d : Draft) (w : Uid) (p : String) (q : Quad) : List Json :=
  match q.object with
  | .value v => if w ∈ d.nodes vars q.subject ∧ q.predicate = p then [v] else []
  | _ => []

/-- The edges that a quad writes to a cell. -/
def Draft.linked (vars : Vars) (d : Draft) (w : Uid) (p : String) (q : Quad) : List Uid :=
  match q.object with
  | .node s => if w ∈ d.nodes vars q.subject ∧ q.predicate = p then d.nodes vars s else []
  | _ => []

/-- What the quads of a request have made of a graph. -/
structure Draft.Holds (vars : Vars) (d : Draft) (qs : List Quad) (d' : Draft) : Prop where
  made : ∀ s u, d.made? s = some u → d'.made? s = some u
  subject : ∀ q ∈ qs, d'.nodes vars q.subject ≠ []
  object : ∀ q ∈ qs, ∀ s, q.object = .node s → d'.nodes vars s ≠ []
  values : ∀ w p, d'.graph.values w p =
    (qs.flatMap (d'.written vars w p)).foldl (put (d.graph.isList p)) (d.graph.values w p)
  edges : ∀ w p, d'.graph.edges w p =
    (qs.flatMap (d'.linked vars w p)).foldl (link (d.graph.keepsEdges p)) (d.graph.edges w p)

namespace Draft

theorem Holds.exists_made {qs : List Quad} {label : String} (h : d.Holds vars qs d') (hq : q ∈ qs)
    (hs : q.subject = .blank label) : ∃ u, d'.made? (.blank label) = some u ∧ d'.nodes vars (.blank label) = [u] := by
  have hne := h.subject q hq
  rw [hs] at hne
  cases hu : d'.made? (.blank label) with
  | none => exact absurd (by simp [nodes, hu]) hne
  | some u => exact ⟨u, rfl, by simp [nodes, hu]⟩

theorem Over.update (h : d.Over g vars) {f : Graph → Uid → Graph} (hf : ∀ g' u, g'.Intact →
      (∀ w, g'.contains w = d.graph.contains w) →
      (f g' u).Intact ∧ (f g' u).predicates = g'.predicates ∧ ∀ w, (f g' u).contains w = g'.contains w)
    (us : List Uid) :
    (d.update us f).Over g vars := by
  have fold : ∀ (us : List Uid) (g' : Graph), g'.Intact → (∀ w, g'.contains w = d.graph.contains w) →
      (us.foldl f g').Intact ∧ (us.foldl f g').predicates = g'.predicates ∧
        ∀ w, (us.foldl f g').contains w = d.graph.contains w := by
    intro us
    induction us with
    | nil => exact fun g' hi hc => ⟨hi, rfl, hc⟩
    | cons u us ih =>
        intro g' hi hc
        obtain ⟨hi', hp', hc'⟩ := hf g' u hi hc
        obtain ⟨hi'', hp'', hc''⟩ := ih (f g' u) hi' fun w => (hc' w).trans (hc w)
        exact ⟨hi'', hp''.trans hp', hc''⟩
  obtain ⟨hi, hp, hw⟩ := fold us d.graph h.intact fun _ => rfl
  refine ⟨hi, hp.trans h.predicates, fun w hg => ?_, fun s u hs => ?_, h.made_inj, fun w hw' => ?_⟩
  · exact (hw w).trans (h.grows w hg)
  · exact ⟨(hw u).trans (h.made_new s u hs).1, (h.made_new s u hs).2⟩
  · exact h.made_all w ((hw w).symm.trans hw')

/-- Of the nodes a variable stands for, those that were there before have been bound. -/
theorem Over.mem_bound {name : String} (h : d.Over g vars) (hu : g.contains u = true)
    (hn : u ∈ d.nodes vars (.var name)) : u ∈ vars.bound name := by
  rw [nodes] at hn
  split at hn
  · exact absurd hu (h.made_new (.var name) u (by simpa using hn)).2
  · exact hn

theorem nodes_of_made (hm : ∀ s u, d.made? s = some u → d'.made? s = some u) (hs : d.nodes vars s ≠ []) :
    d'.nodes vars s = d.nodes vars s := by
  have settled : ∀ s, d.made? s ≠ none → d'.made? s = d.made? s := by
    intro s h
    obtain ⟨u, hu⟩ := Option.ne_none_iff_exists'.1 h
    rw [hu, hm s u hu]
  cases s with
  | node u => rfl
  | blank label =>
      simp only [nodes] at hs ⊢
      rw [settled _ (by simpa using hs)]
  | var name =>
      simp only [nodes] at hs ⊢
      split
      · rename_i h
        rw [if_pos h] at hs
        rw [settled _ (by simpa using hs)]
      · rfl

@[simp]
theorem nodes_node (d : Draft) (u : Uid) : d.nodes vars (.node u) = [u] := rfl

@[simp]
theorem nodes_update {f : Graph → Uid → Graph} : (d.update us f).nodes vars s = d.nodes vars s := by
  cases s <;> rfl

end Draft

theorem isList_of_predicates {g g' : Graph} (h : g.predicates = g'.predicates) (p : String) :
    g.isList p = g'.isList p := by
  rw [isList, isList, h]

theorem keepsEdges_of_predicates {g g' : Graph} (h : g.predicates = g'.predicates) (p : String) :
    g.keepsEdges p = g'.keepsEdges p := by
  rw [keepsEdges, keepsEdges, h]

theorem edges_setValues (us : List Uid) (v : Json) (p r : String) :
    (us.foldl (fun g u => g.setValue u p v) g).edges w r = g.edges w r := by
  induction us generalizing g with
  | nil => rfl
  | cons u us ih => rw [List.foldl_cons, ih, edges_setValue]

theorem values_setAllEdges (us ts : List Uid) (p r : String) :
    (us.foldl (fun g u => ts.foldl (fun g t => g.setEdge u p t) g) g).values w r = g.values w r := by
  have one : ∀ (g : Graph) (u : Uid), (ts.foldl (fun g t => g.setEdge u p t) g).values w r = g.values w r := by
    intro g u
    induction ts generalizing g with
    | nil => rfl
    | cons t ts ih => rw [List.foldl_cons, ih, values_setEdge]
  induction us generalizing g with
  | nil => rfl
  | cons u us ih => rw [List.foldl_cons, ih, one]

theorem Intact.setEdges {ts : List Uid} (hg : g.Intact) (ht : ∀ t ∈ ts, g.contains t = true) :
    Intact (ts.foldl (fun g t => g.setEdge u p t) g) := by
  induction ts generalizing g with
  | nil => exact hg
  | cons t ts ih => exact ih (hg.setEdge (ht t (by simp))) fun t' ht' => by simpa using ht t' (by simp [ht'])

theorem setQuad_spec (hv : vars.Known g) (hd : d.Over g vars) (h : setQuad vars d q = .ok d') :
    d'.Over g vars ∧ d.Holds vars [q] d' := by
  unfold setQuad at h
  split at h
  · cases h
  · obtain ⟨⟨us, d₁⟩, hs, h⟩ := bind_ok_iff.1 h
    obtain ⟨ho₁, he₁, rfl, hne, hc⟩ := resolve_spec hv hd hs
    cases hq : q.object with
    | any =>
        rw [hq] at h
        cases h
    | value v =>
        rw [hq] at h
        cases h
        refine ⟨ho₁.update (fun g' u hi _ => ?_) _, he₁.made, ?_, ?_, fun w p => ?_, fun w p => ?_⟩
        · exact ⟨hi.setValue v, predicates_setValue g' u _ v, fun w => contains_setValue g' u w _ v⟩
        · simpa using hne
        · simp [hq]
        · refine (values_setValues hc p).trans ?_
          rw [isList_of_predicates (ho₁.predicates.trans hd.predicates.symm), he₁.values, he₁.values]
          simp only [List.flatMap_cons, List.flatMap_nil, List.append_nil, Draft.written, hq, Draft.nodes_update]
          split
          · rename_i hw
            rw [hw.2]
            rfl
          · rfl
        · refine (edges_setValues _ v _ p).trans ?_
          rw [he₁.edges]
          simp [Draft.linked, hq]
    | node t =>
        rw [hq] at h
        obtain ⟨⟨ts, d₂⟩, ht, h⟩ := bind_ok_iff.1 h
        cases h
        obtain ⟨ho₂, he₂, rfl, hne₂, hc₂⟩ := resolve_spec hv ho₁ ht
        have hn := Draft.nodes_of_made he₂.made hne
        have hc₁ : ∀ u ∈ d₁.nodes vars q.subject, d₂.graph.contains u = true := fun u hu => he₂.contains u (hc u hu)
        refine ⟨ho₂.update (fun g' u hi hc' => ?_) _, fun s u hs => he₂.made s u (he₁.made s u hs), ?_, ?_,
          fun w p => ?_, fun w p => ?_⟩
        · exact ⟨hi.setEdges fun t ht => by rw [hc', hc₂ t ht], predicates_setEdges u, fun w => contains_setEdges u⟩
        · simpa [hn] using hne
        · simpa [hq] using hne₂
        · refine (values_setAllEdges _ _ _ p).trans ?_
          rw [he₂.values, he₁.values]
          simp [Draft.written, hq]
        · refine (edges_setAllEdges hc₁ p).trans ?_
          rw [keepsEdges_of_predicates (ho₂.predicates.trans hd.predicates.symm), he₂.edges, he₂.edges, he₁.edges,
            he₁.edges]
          simp only [List.flatMap_cons, List.flatMap_nil, List.append_nil, Draft.linked, hq, Draft.nodes_update, hn]
          split
          · rename_i hw
            rw [hw.2]
          · rfl

theorem Draft.written_of_made (hm : ∀ s u, d.made? s = some u → d'.made? s = some u)
    (hs : d.nodes vars q.subject ≠ []) : d'.written vars w p q = d.written vars w p q := by
  unfold written
  rw [nodes_of_made hm hs]

theorem Draft.linked_of_made (hm : ∀ s u, d.made? s = some u → d'.made? s = some u)
    (hs : d.nodes vars q.subject ≠ []) (ho : ∀ s, q.object = .node s → d.nodes vars s ≠ []) :
    d'.linked vars w p q = d.linked vars w p q := by
  unfold linked
  rw [nodes_of_made hm hs]
  cases hq : q.object with
  | node s => simp only [nodes_of_made hm (ho s hq)]
  | value v => rfl
  | any => rfl

theorem setQuads_spec {qs : List Quad} (hv : vars.Known g) (hd : d.Over g vars)
    (h : qs.foldlM (setQuad vars) d = .ok d') : d'.Over g vars ∧ d.Holds vars qs d' := by
  induction qs generalizing d with
  | nil =>
      cases h
      exact ⟨hd, fun _ _ h => h, by simp, by simp, fun _ _ => rfl, fun _ _ => rfl⟩
  | cons q qs ih =>
      rw [List.foldlM_cons] at h
      obtain ⟨d₁, h₁, h⟩ := bind_ok_iff.1 h
      obtain ⟨ho₁, hh₁⟩ := setQuad_spec hv hd h₁
      obtain ⟨ho, hh⟩ := ih ho₁ h
      have hs := hh₁.subject q (by simp)
      have hob := hh₁.object q (by simp)
      refine ⟨ho, fun s u hs => hh.made s u (hh₁.made s u hs), ?_, ?_, fun w p => ?_, fun w p => ?_⟩
      · intro q' hq'
        rcases List.mem_cons.1 hq' with rfl | hq'
        · rwa [Draft.nodes_of_made hh.made hs]
        · exact hh.subject q' hq'
      · intro q' hq' s hs'
        rcases List.mem_cons.1 hq' with rfl | hq'
        · rw [Draft.nodes_of_made hh.made (hob s hs')]
          exact hob s hs'
        · exact hh.object q' hq' s hs'
      · rw [hh.values, hh₁.values, isList_of_predicates (ho₁.predicates.trans hd.predicates.symm),
          List.flatMap_singleton, List.flatMap_cons, List.foldl_append, Draft.written_of_made hh.made hs]
      · rw [hh.edges, hh₁.edges, keepsEdges_of_predicates (ho₁.predicates.trans hd.predicates.symm),
          List.flatMap_singleton, List.flatMap_cons, List.foldl_append, Draft.linked_of_made hh.made hs hob]

/-- The quads set by those mutations whose conditions hold. -/
def quadsSet (vars : Vars) (ms : List Mutation) : List Quad :=
  (ms.filter fun m => m.condition.all (conditionHolds vars)).flatMap (·.set)

theorem quadsSet_cons (m : Mutation) (ms : List Mutation) : quadsSet vars (m :: ms) =
    (if m.condition.all (conditionHolds vars) then m.set else []) ++ quadsSet vars ms := by
  unfold quadsSet
  rw [List.filter_cons]
  split <;> simp

theorem quadsSet_filter (ms : List Mutation) : quadsSet vars (ms.filter (!·.isEmpty)) = quadsSet vars ms := by
  induction ms with
  | nil => rfl
  | cons m ms ih =>
      rw [List.filter_cons]
      split
      · rw [quadsSet_cons, quadsSet_cons, ih]
      · rename_i hm
        have hs : m.set = [] := by
          simp [Mutation.isEmpty] at hm
          exact hm.1
        rw [quadsSet_cons, ih, hs]
        simp

theorem applyMutations_eq {ms : List Mutation} (hm : ∀ m ∈ ms, m.delete = []) :
    ms.foldlM (applyMutation vars) d = (quadsSet vars ms).foldlM (setQuad vars) d := by
  induction ms generalizing d with
  | nil => rfl
  | cons m ms ih =>
      have hd : applyMutation vars d m =
          (if m.condition.all (conditionHolds vars) then m.set else []).foldlM (setQuad vars) d := by
        unfold applyMutation
        rw [hm m (by simp)]
        split <;> rfl
      rw [List.foldlM_cons, quadsSet_cons, List.foldlM_append, hd]
      refine congrArg _ (funext fun e => ?_)
      exact ih fun m' hm' => hm m' (by simp [hm'])

/-- What the query of a request answers and binds. -/
def Answers (g : Graph) (query : Option Query) (params : Query.Bindings) (answer : Answer) (vars : Vars) : Prop :=
  match query with
  | some q => evaluate g q params = .ok (answer, vars)
  | none => answer = .empty ∧ vars = .empty

theorem execute_ok_iff {r : Request} {receipt : Receipt} {g' : Graph} : execute g r = .ok (receipt, g') ↔
    ∃ vars d, Answers g r.query r.vars receipt.answer vars ∧
      r.mutations.foldlM (applyMutation vars) ⟨g, .empty, .empty⟩ = .ok d ∧ receipt.assigned = d.blanks ∧
        g' = d.graph := by
  unfold execute
  rw [bind_ok_iff]
  constructor
  · rintro ⟨⟨answer, vars⟩, hq, h⟩
    obtain ⟨d, hd, h⟩ := bind_ok_iff.1 h
    cases h
    rw [mapError_ok_iff] at hq hd
    refine ⟨vars, d, ?_, hd, rfl, rfl⟩
    unfold Answers
    cases hr : r.query with
    | none =>
        rw [hr] at hq
        cases hq
        exact ⟨rfl, rfl⟩
    | some q =>
        rw [hr] at hq
        exact hq
  · rintro ⟨vars, d, ha, hd, hb, rfl⟩
    refine ⟨(receipt.answer, vars), ?_, bind_ok_iff.2 ⟨d, mapError_ok_iff.2 hd, ?_⟩⟩
    · rw [mapError_ok_iff]
      unfold Answers at ha
      cases hr : r.query with
      | none =>
          rw [hr] at ha
          rw [ha.1, ha.2]
      | some q =>
          rw [hr] at ha
          exact ha
    · rw [← hb]
      rfl

theorem execute_set_foldlM {query : Option Query} {ms : List Mutation} {receipt : Receipt} {g' : Graph}
    (hm : ∀ m ∈ ms, m.delete = []) (h : execute g (.of query ms) = .ok (receipt, g')) :
    ∃ vars d, Answers g query .empty receipt.answer vars ∧
      (quadsSet vars ms).foldlM (setQuad vars) ⟨g, .empty, .empty⟩ = .ok d ∧ receipt.assigned = d.blanks ∧
        g' = d.graph := by
  obtain ⟨vars, d, ha, hd, hb, hg'⟩ := execute_ok_iff.1 h
  rw [applyMutations_eq, Request.of, quadsSet_filter] at hd
  · exact ⟨vars, d, ha, hd, hb, hg'⟩
  · exact fun m hm' => hm m (List.mem_filter.1 hm').1

theorem execute_set {query : Option Query} {ms : List Mutation} {receipt : Receipt} {g' : Graph} (hg : g.Intact)
    (hm : ∀ m ∈ ms, m.delete = []) (h : execute g (.of query ms) = .ok (receipt, g'))
    (hk : ∀ vars, Answers g query .empty receipt.answer vars → vars.Known g) :
    ∃ vars d, Answers g query .empty receipt.answer vars ∧ d.Over g vars ∧
      Draft.Holds vars ⟨g, .empty, .empty⟩ (quadsSet vars ms) d ∧ receipt.assigned = d.blanks ∧ g' = d.graph := by
  obtain ⟨vars, d, ha, hset, hb, hg'⟩ := execute_set_foldlM hm h
  obtain ⟨ho, hh⟩ := setQuads_spec (hk vars ha) (.start hg) hset
  exact ⟨vars, d, ha, ho, hh, hb, hg'⟩

section Quads

variable {qs : List Quad} {receipt : Receipt} {g' : Graph}

theorem execute_quads_foldlM (h : execute g (.of none [⟨none, qs, []⟩]) = .ok (receipt, g')) :
    ∃ vars d, vars.Known g ∧ qs.foldlM (setQuad vars) ⟨g, .empty, .empty⟩ = .ok d ∧ receipt.assigned = d.blanks ∧
      g' = d.graph := by
  obtain ⟨vars, d, ⟨-, rfl⟩, hset, hb, hg'⟩ := execute_set_foldlM (by simp) h
  have hqs : quadsSet .empty [⟨none, qs, []⟩] = qs := by
    rw [quadsSet_cons]
    exact List.append_nil qs
  rw [hqs] at hset
  exact ⟨.empty, d, .empty, hset, hb, hg'⟩

theorem execute_quads (hg : g.Intact) (h : execute g (.of none [⟨none, qs, []⟩]) = .ok (receipt, g')) :
    ∃ vars d, d.Over g vars ∧ Draft.Holds vars ⟨g, .empty, .empty⟩ qs d ∧ g' = d.graph := by
  obtain ⟨vars, d, hv, hset, -, hg'⟩ := execute_quads_foldlM h
  obtain ⟨ho, hh⟩ := setQuads_spec hv (.start hg) hset
  exact ⟨vars, d, ho, hh, hg'⟩

end Quads

end Inventory.Graph
