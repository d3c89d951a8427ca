import Inventory.Proofs.Graph.Results

/-!
Filters that may fail. The parts of a filter are tried in turn until one decides, so that a part which fails matters
only where those before it leave the matter open.
-/

namespace Inventory.Graph

open Query Outcome Listing

variable {ι : Type} {g : Graph} {vars : Vars} {u : Uid} {f : Filter} {fs : List Filter} {b : Block}
  {is : List ι} {E : QueryFault → Prop} {P Q : Prop} {r : Eval Bool}

/-- A test says whether something holds, or fails for a reason of some kind. -/
structure Settles (E : QueryFault → Prop) (r : Eval Bool) (P : Prop) : Prop where
  decides : ∀ b, r = .ok b → (b = true ↔ P)
  fails : ∀ e, r = .error e → E e

namespace Settles

theorem ok {b : Bool} (h : b = true ↔ P) : Settles E (.ok b) P := by
  refine ⟨fun c hc => ?_, fun e he => ?_⟩
  · cases hc
    exact h
  · cases he

theorem error {e : QueryFault} (h : E e) : Settles E (.error e) P := by
  refine ⟨fun c hc => ?_, fun e' he => ?_⟩
  · cases hc
  · cases he
    exact h

theorem of_ok {b : Bool} (h : r = .ok b) : Settles E r (b = true) := by
  rw [h]
  exact ok Iff.rfl

theorem eq_ok [Decidable P] (h : Settles E r P) (hE : ∀ e, ¬E e) : r = .ok (decide P) := by
  cases hr : r with
  | error e => exact absurd (h.fails e hr) (hE e)
  | ok b =>
      have hb := h.decides b hr
      rw [← decide_eq_true_iff (p := P)] at hb
      exact congrArg Except.ok (Bool.eq_iff_iff.2 hb)

theorem eq_true (h : Settles E r P) (hE : ∀ e, ¬E e) (hP : P) : r = .ok true := by
  classical
  rw [h.eq_ok hE, decide_eq_true hP]

theorem congr (h : Settles E r P) (hPQ : P ↔ Q) : Settles E r Q :=
  ⟨fun b hb => (h.decides b hb).trans hPQ, h.fails⟩

theorem holdsAll_cons (hf : Settles E (holds g vars u f) P) (hfs : Settles E (holdsAll g vars u fs) Q) :
    Settles E (holdsAll g vars u (f :: fs)) (P ∧ Q) := by
  rw [holdsAll]
  cases hr : holds g vars u f with
  | error e => exact error (hf.fails e hr)
  | ok b =>
      have hP := hf.decides b hr
      cases b with
      | true => exact hfs.congr ⟨fun hq => ⟨hP.1 rfl, hq⟩, And.right⟩
      -- the parts after this one are not tried, and none of them can matter
      | false => exact ok ⟨fun h => absurd h Bool.false_ne_true, fun h => hP.2 h.1⟩

theorem holdsAny_cons (hf : Settles E (holds g vars u f) P) (hfs : Settles E (holdsAny g vars u fs) Q) :
    Settles E (holdsAny g vars u (f :: fs)) (P ∨ Q) := by
  rw [holdsAny]
  cases hr : holds g vars u f with
  | error e => exact error (hf.fails e hr)
  | ok b =>
      have hP := hf.decides b hr
      cases b with
      | true => exact ok ⟨fun _ => .inl (hP.1 rfl), fun _ => rfl⟩
      | false => exact hfs.congr ⟨Or.inr, fun h => h.resolve_left fun hp => Bool.false_ne_true (hP.2 hp)⟩

theorem holdsAll_filterMap {part : ι → Option Filter} {meaning : ι → Prop}
    (hsome : ∀ i ∈ is, ∀ f, part i = some f → Settles E (holds g vars u f) (meaning i))
    (hnone : ∀ i ∈ is, part i = none → meaning i) :
    Settles E (holdsAll g vars u (is.filterMap part)) (∀ i ∈ is, meaning i) := by
  induction is with
  | nil => exact ok (by simp)
  | cons i is ih =>
      have hrest := ih (fun j hj => hsome j (List.mem_cons_of_mem i hj)) fun j hj => hnone j (List.mem_cons_of_mem i hj)
      cases hp : part i with
      | none =>
          have hi : meaning i := hnone i List.mem_cons_self hp
          rw [List.filterMap_cons_none hp]
          exact hrest.congr (by simp [hi])
      | some f =>
          rw [List.filterMap_cons_some hp]
          exact ((hsome i List.mem_cons_self f hp).holdsAll_cons hrest).congr (by simp)

theorem holdsAny_map {part : ι → Filter} {meaning : ι → Prop}
    (h : ∀ i ∈ is, Settles E (holds g vars u (part i)) (meaning i)) :
    Settles E (holdsAny g vars u (is.map part)) (∃ i ∈ is, meaning i) := by
  induction is with
  | nil => exact ok (by simp)
  | cons i is ih =>
      have hrest := ih fun j hj => h j (List.mem_cons_of_mem i hj)
      exact ((h i List.mem_cons_self).holdsAny_cons hrest).congr (by simp)

theorem sift {check : Uid → Eval Bool} {meaning : Uid → Prop} (h : ∀ u, Settles E (check u) (meaning u))
    (us : List Uid) : (∃ vs, sift check us = .ok vs ∧ ∀ u, u ∈ vs ↔ u ∈ us ∧ meaning u) ∨
      ∃ e, sift check us = .error e ∧ E e := by
  induction us with
  | nil => exact .inl ⟨[], rfl, by simp⟩
  | cons u us ih =>
      rw [Graph.sift]
      cases hc : check u with
      | error e => exact .inr ⟨e, rfl, (h u).fails e hc⟩
      | ok b =>
          have hb := (h u).decides b hc
          rcases ih with ⟨vs, hvs, hmem⟩ | ⟨e, he, hE⟩
          · refine .inl ⟨if b then u :: vs else vs, ?_, fun v => ?_⟩
            · rw [hvs]
              rfl
            · have hkept : v ∈ (if b then u :: vs else vs) ↔ (v = u ∧ b = true) ∨ v ∈ vs := by cases b <;> simp
              rw [hkept, hmem, hb, List.mem_cons, or_and_right]
              exact or_congr_left (and_congr_right fun h => by rw [h])
          · refine .inr ⟨e, ?_, hE⟩
            rw [he]
            rfl

theorem hops {meaning : Uid → Prop} {o : Option Filter} (h : ∀ u, Settles E (passes g vars o u) (meaning u))
    (edge : Edge) (us : List Uid) :
    (∃ vss, us.mapM (hop g vars edge o) = .ok vss ∧
      ∀ v, v ∈ vss.flatten ↔ ∃ u ∈ us, v ∈ g.targets u edge ∧ meaning v) ∨
    ∃ e, us.mapM (hop g vars edge o) = .error e ∧ E e := by
  induction us with
  | nil => exact .inl ⟨[], rfl, by simp⟩
  | cons u us ih =>
      rw [List.mapM_cons, hop]
      rcases sift h (g.targets u edge) with ⟨vs, hvs, hmem⟩ | ⟨e, he, hE⟩
      · rw [hvs]
        rcases ih with ⟨vss, hvss, hall⟩ | ⟨e, he, hE⟩
        · rw [hvss]
          refine .inl ⟨vs :: vss, rfl, fun v => ?_⟩
          rw [List.flatten_cons, List.mem_append, hmem, hall]
          simp
        · rw [he]
          exact .inr ⟨e, rfl, hE⟩
      · rw [he]
        exact .inr ⟨e, rfl, hE⟩

/-- A block without hops gives the nodes that pass its test, unless that fails, whatever the page. -/
theorem evalBlock {meaning : Uid → Prop} {start : List Uid} (hs : startNodes g vars b.root = .ok start)
    (hp : ∀ u, Settles E (passes g vars b.filter u) (meaning u)) (hf : b.first = none) (ho : b.offset = none)
    (hr : b.recursion = none) (ht : b.traversals = []) :
    (∃ us, (∀ params, evalBlock g params vars b = .ok (us, vars.extend? b.bind us)) ∧
      ∀ u, u ∈ us ↔ u ∈ start ∧ meaning u) ∨
    ∃ e, (∀ params, evalBlock g params vars b = .error e) ∧ E e := by
  have hnodes : ∀ params, blockNodes g params vars b = (do
      let kept ← Graph.sift (passes g vars b.filter) start
      cut params b (g.sorted b.order kept)) := by
    intro params
    rw [blockNodes, hs]
    rfl
  rcases sift hp start with ⟨vs, hvs, hmem⟩ | ⟨e, he, hE⟩
  · have hok : ∀ params, blockNodes g params vars b = .ok (g.sorted b.order vs) := by
      intro params
      rw [hnodes, hvs]
      exact cut_eq_self hf ho
    refine .inl ⟨g.sorted b.order vs, fun params => ?_, fun u => ?_⟩
    · rw [Graph.evalBlock, hok, hr, ht]
      rfl
    · rw [(sorted_perm b.order vs).mem_iff, hmem]
  · refine .inr ⟨e, fun params => ?_, hE⟩
    rw [Graph.evalBlock, hnodes, he]
    rfl

end Settles

theorem holdsAll_singleton_eq (f : Filter) : holdsAll g vars u [f] = holds g vars u f := by
  rw [holdsAll]
  cases holds g vars u f with
  | error e => rfl
  | ok b => cases b <;> rfl

/-- No part, or one by itself, means what it means among several. -/
theorem passes_allOf (fs : List Filter) : passes g vars (Filter.allOf fs) u = holdsAll g vars u fs := by
  match fs with
  | [] => rfl
  | [f] => exact (holdsAll_singleton_eq f).symm
  | f :: f' :: fs =>
      have hf : Filter.allOf (f :: f' :: fs) = some (.and (f :: f' :: fs)) := rfl
      rw [hf, passes, holds]

theorem holdsAll_toList (o : Option Filter) : holdsAll g vars u o.toList = passes g vars o u := by
  cases o with
  | none => rfl
  | some f => exact holdsAll_singleton_eq f

theorem holds_anyOf (h : Filter.anyOf fs = some f) : holds g vars u f = holdsAny g vars u fs := by
  match fs with
  | [] => cases h
  | [f'] =>
      cases h
      rw [holdsAny]
      cases holds g vars u f with
      | error e => rfl
      | ok b => cases b <;> rfl
  | f' :: f'' :: fs =>
      cases h
      rw [holds]

theorem passes_vars {names : List String} (hd : ∀ name ∈ names, vars.Defined name) (u : Uid) :
    passes g vars (Filter.allOf (names.map fun name => .uid (uidVar name))) u =
      .ok (names.all fun name => decide (u ∈ vars.bound name)) := by
  rw [passes_allOf]
  induction names with
  | nil => rfl
  | cons name names ih =>
      have hname := holds_uidVar (g := g) (u := u) (hd name List.mem_cons_self)
      exact Graph.holdsAll_cons hname (ih fun other ho => hd other (List.mem_cons_of_mem name ho))

end Inventory.Graph
