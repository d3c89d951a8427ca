import Inventory.Proofs.Graph.Schema

/-!
Nodes that a request empties and marks.
-/

namespace Inventory.Graph

open Store Outcome

variable {g : Graph} {vars : Vars} {d d' : Draft} {s : Subject} {us : List Uid} {u : Uid}

/-- The nodes a subject stands for without any being made. -/
def Vars.given (vars : Vars) : Subject → List Uid
  | .node u => [u]
  | .blank _ => []
  | .var name => vars.bound name

/-- A graph with some nodes emptied and marked as deleted. -/
structure Cleared (us : List Uid) (g g' : Graph) : Prop where
  intact : g'.Intact
  schema : SameSchema g g'
  contains : ∀ w, g'.contains w = g.contains w
  values : ∀ w p, g'.values w p =
    if w ∈ us then (if p = Vocabulary.recycle then [.str "true"] else []) else g.values w p
  edges : ∀ w p, g'.edges w p = if w ∈ us then .empty else g.edges w p

theorem Cleared.refl (hg : g.Intact) : Cleared [] g g := ⟨hg, .refl g, fun _ => rfl, fun _ _ => rfl, fun _ _ => rfl⟩

theorem Cleared.trans {vs : List Uid} {g' g'' : Graph} (h : Cleared us g g') (h' : Cleared vs g' g'') :
    Cleared (us ++ vs) g g'' := by
  refine ⟨h'.intact, h.schema.trans h'.schema, fun w => (h'.contains w).trans (h.contains w), ?_, ?_⟩
  · intro w p
    rw [h'.values, h.values]
    by_cases hv : w ∈ vs <;> by_cases hu : w ∈ us <;> simp [hv, hu]
  · intro w p
    rw [h'.edges, h.edges]
    by_cases hv : w ∈ vs <;> by_cases hu : w ∈ us <;> simp [hv, hu]

theorem Cleared.not_mem {g' : Graph} {p : String} (h : Cleared us g g') (hp : p ≠ Vocabulary.recycle)
    (hu : g'.values u p ≠ []) : u ∉ us := by
  intro hmem
  rw [h.values, if_pos hmem, if_neg hp] at hu
  exact hu rfl

theorem Cleared.of_mem_edges {g' : Graph} {p : String} {v : Uid} (h : Cleared us g g') (hv : v ∈ g'.edges u p) :
    v ∈ g.edges u p := by
  rw [h.edges] at hv
  split at hv
  · exact absurd hv OrderedSet.not_mem_empty
  · exact hv

theorem resolve_given {make : Bool} (hs : vars.given s ≠ []) (h : resolve vars make d s = .ok (us, d')) :
    us = vars.given s ∧ d' = d := by
  cases s with
  | node u =>
      simp only [resolve] at h
      split at h
      · cases h
        exact ⟨rfl, rfl⟩
      · cases h
  | blank label => exact absurd rfl hs
  | var name =>
      simp only [resolve] at h
      split at h
      · cases h
      · rename_i bound hb
        have hbound : vars.given (.var name) = bound.items := by simp [Vars.given, Vars.bound, hb]
        split at h
        · rename_i v vs _ hvs
          cases h
          exact ⟨by rw [hbound, hvs], rfl⟩
        · rename_i hnil _
          rw [hbound, hnil] at hs
          exact absurd rfl hs
        · rename_i hnil _
          rw [hbound, hnil] at hs
          exact absurd rfl hs

theorem resolve_bound {make : Bool} {name : String} (h : vars.bound name ≠ []) :
    resolve vars make d (.var name) = .ok (vars.bound name, d) := by
  cases hv : vars.get? name with
  | none =>
      rw [Vars.bound, hv] at h
      exact absurd rfl h
  | some bound =>
      have hb : vars.bound name = bound.items := by
        rw [Vars.bound, hv]
        rfl
      rw [hb] at h ⊢
      cases hi : bound.items with
      | nil => exact absurd hi h
      | cons v vs => simp only [resolve, hv, hi]

theorem contains_given {make : Bool} (hv : vars.Known g) (hgrow : ∀ w, d.graph.contains w = g.contains w)
    (h : resolve vars make d s = .ok (us, d')) : ∀ u ∈ vars.given s, g.contains u = true := by
  cases s with
  | node u =>
      simp only [resolve] at h
      split at h
      · rename_i hu
        simpa [Vars.given, ← hgrow] using hu
      · cases h
  | blank label => simp [Vars.given]
  | var name => exact hv name

section ClearAlls

variable {w : Uid} {p : String}

theorem contains_clearAlls : (us.foldl clearAll g).contains w = g.contains w := by
  induction us generalizing g with
  | nil => rfl
  | cons u us ih => rw [List.foldl_cons, ih, contains_clearAll]

theorem Intact.clearAlls (hg : g.Intact) : (us.foldl Graph.clearAll g).Intact := by
  induction us generalizing g with
  | nil => exact hg
  | cons u us ih => exact ih hg.clearAll

theorem values_clearAlls : (us.foldl clearAll g).values w p = if w ∈ us then [] else g.values w p := by
  induction us generalizing g with
  | nil => simp
  | cons u us ih =>
      rw [List.foldl_cons, ih, values_clearAll]
      by_cases hw : w = u <;> simp [hw]

theorem edges_clearAlls : (us.foldl clearAll g).edges w p = if w ∈ us then .empty else g.edges w p := by
  induction us generalizing g with
  | nil => simp
  | cons u us ih =>
      rw [List.foldl_cons, ih, edges_clearAll]
      by_cases hw : w = u <;> simp [hw]

end ClearAlls

theorem Intact.setValues {v : Json} {p : String} (hg : g.Intact) :
    (us.foldl (fun g u => g.setValue u p v) g).Intact := by
  induction us generalizing g with
  | nil => exact hg
  | cons u us ih => exact ih (hg.setValue v)

theorem contains_setValues {v : Json} {p : String} {w : Uid} :
    (us.foldl (fun g u => g.setValue u p v) g).contains w = g.contains w := by
  induction us generalizing g with
  | nil => rfl
  | cons u us ih => rw [List.foldl_cons, ih, contains_setValue]

theorem applyMutation_clear {c : Option Condition} (hg : g.Intact) (hv : vars.Known g) (hs : vars.given s ≠ [])
    (hc : c.all (conditionHolds vars) = true)
    (h : applyMutation vars ⟨g, .empty, .empty⟩ ⟨c, [.text s Vocabulary.recycle "true"], [.everything s]⟩ = .ok d) :
    Cleared (vars.given s) g d.graph := by
  have hschema := sameSchema_applyMutation h
  unfold applyMutation at h
  rw [if_pos hc] at h
  obtain ⟨d₁, h₁, h⟩ := bind_ok_iff.1 h
  rw [List.foldlM_cons] at h h₁
  obtain ⟨d₁', h₁, he₁⟩ := bind_ok_iff.1 h₁
  obtain ⟨d₂, h, he⟩ := bind_ok_iff.1 h
  cases he₁
  cases he
  obtain ⟨⟨us, e⟩, hr, h₁⟩ := bind_ok_iff.1 h₁
  have hu := contains_given hv (fun _ => rfl) hr
  obtain ⟨rfl, rfl⟩ := resolve_given hs hr
  cases h₁
  obtain ⟨⟨us, e⟩, hr, h⟩ := bind_ok_iff.1 h
  obtain ⟨rfl, rfl⟩ := resolve_given hs hr
  cases h
  have hu' : ∀ u ∈ vars.given s, ((vars.given s).foldl clearAll g).contains u = true := fun u hw => by
    rw [contains_clearAlls, hu u hw]
  constructor
  · exact hg.clearAlls.setValues
  · exact hschema
  · exact fun w => contains_setValues.trans contains_clearAlls
  · intro w p
    refine (values_setValues hu' p).trans ?_
    simp only [values_clearAlls]
    by_cases hw : w ∈ vars.given s
    · by_cases hp : p = Vocabulary.recycle
      · subst hp
        simp [hw, put, Quad.text, Quad.value]
      · have hp' : ¬Vocabulary.recycle = p := fun h => hp h.symm
        simp [hw, hp, hp', Quad.text, Quad.value]
    · simp [hw]
  · intro w p
    exact (edges_setValues _ _ _ p).trans edges_clearAlls

theorem clear_bound_ok {c : Option Condition} {name : String} (hc : c.all (conditionHolds vars) = true)
    (h : vars.bound name ≠ []) :
    ∃ d', applyMutation vars d ⟨c, [.text (.var name) Vocabulary.recycle "true"], [.everything (.var name)]⟩ =
      .ok d' := by
  have hp : Vocabulary.recycle ≠ anyPredicate := by decide
  rw [applyMutation, if_pos hc, List.foldlM_cons, deleteQuad, Quad.everything, resolve_bound h]
  change ∃ d', List.foldlM (setQuad vars) _ [Quad.text (.var name) Vocabulary.recycle "true"] = .ok d'
  rw [List.foldlM_cons, setQuad, if_neg (by exact hp), Quad.text, Quad.value, resolve_bound h]
  exact ⟨_, rfl⟩

theorem execute_clear {query : Option Query} {c : Option Condition} {receipt : Receipt} {g' : Graph} (hg : g.Intact)
    (h : execute g (.of query [⟨c, [.text s Vocabulary.recycle "true"], [.everything s]⟩]) = .ok (receipt, g'))
    (hk : ∀ vars, Answers g query .empty receipt.answer vars → vars.Known g)
    (hs : ∀ vars, c.all (conditionHolds vars) = true → vars.given s ≠ []) :
    ∃ vars, Answers g query .empty receipt.answer vars ∧
      (c.all (conditionHolds vars) = false ∧ g' = g ∨
        c.all (conditionHolds vars) = true ∧ Cleared (vars.given s) g g') := by
  obtain ⟨vars, d, ha, hd, -, rfl⟩ := execute_ok_iff.1 h
  refine ⟨vars, ha, ?_⟩
  have hm : (Request.of query [⟨c, [.text s Vocabulary.recycle "true"], [.everything s]⟩]).mutations =
      [⟨c, [.text s Vocabulary.recycle "true"], [.everything s]⟩] := rfl
  rw [hm, List.foldlM_cons] at hd
  obtain ⟨d', hd, he⟩ := bind_ok_iff.1 hd
  cases he
  cases hc : c.all (conditionHolds vars) with
  | true => exact .inr ⟨rfl, applyMutation_clear hg (hk vars ha) (hs vars hc) hc hd⟩
  | false =>
      unfold applyMutation at hd
      rw [if_neg (Bool.eq_false_iff.1 hc)] at hd
      cases hd
      exact .inl ⟨rfl, rfl⟩

end Inventory.Graph
