import Inventory.Proofs.Graph.Requests

/-!
Quads that are set one part after another. What a part makes lies beyond whatever was given out before it, and is made
for subjects that it uses.
-/

namespace Inventory.Graph

open Store Outcome

variable {g : Graph} {vars : Vars} {d d' d'' : Draft} {s : Subject} {us : List Uid} {q : Quad} {qs : List Quad}

/-- A later draft, which has made nodes for some subjects only, all beyond the uids given out before. -/
structure Draft.Since (used : Subject → Prop) (d d' : Draft) : Prop where
  lastUid : d.graph.lastUid ≤ d'.graph.lastUid
  contains : ∀ w, d.graph.contains w = true → d'.graph.contains w = true
  made : ∀ s u, d'.made? s = some u → d.made? s = some u ∨ d.graph.lastUid < u.value ∧ used s

namespace Draft.Since

variable {used used' : Subject → Prop}

theorem refl (used : Subject → Prop) (d : Draft) : Since used d d := ⟨Nat.le_refl _, fun _ h => h, fun _ _ h => .inl h⟩

theorem trans (h : Since used d d') (h' : Since used d' d'') : Since used d d'' := by
  refine ⟨Nat.le_trans h.lastUid h'.lastUid, fun w hw => h'.contains w (h.contains w hw), fun s u hs => ?_⟩
  rcases h'.made s u hs with hs | ⟨hlt, hu⟩
  · exact h.made s u hs
  · exact .inr ⟨Nat.lt_of_le_of_lt h.lastUid hlt, hu⟩

theorem mono (h : Since used d d') (hu : ∀ s, used s → used' s) : Since used' d d' :=
  ⟨h.lastUid, h.contains, fun s u hs => (h.made s u hs).imp_right fun hm => ⟨hm.1, hu s hm.2⟩⟩

theorem resolve (h : resolve vars true d s = .ok (us, d')) : Since (· = s) d d' := by
  rcases resolve_cases h with rfl | hm
  · exact refl _ _
  · refine ⟨?_, fun w hw => ?_, fun t u ht => ?_⟩
    · rw [hm.graph, lastUid_allocate]
      exact Nat.le_succ _
    · simp [hm.graph, hw]
    · rcases hm.made_iff.1 ht with ⟨hts, rfl⟩ | ht
      · exact .inr ⟨Nat.lt_succ_self _, hts⟩
      · exact .inl ht

theorem edit {f : Graph → Uid → Graph} (h : Edit d f) (us : List Uid) : Since used d (d.update us f) :=
  ⟨Nat.le_of_eq (h.maintains_update us).lastUid.symm, fun w hw => ((h.maintains_update us).contains w).trans hw,
    fun s u hs => .inl (by cases s <;> exact hs)⟩

theorem setQuad (hv : vars.Known g) (hd : d.Over g vars) (h : setQuad vars d q = .ok d') :
    Since (fun s => q.subject = s ∨ q.object = .node s) d d' := by
  unfold Graph.setQuad at h
  split at h
  · cases h
  · obtain ⟨⟨us, d₁⟩, hs, h⟩ := bind_ok_iff.1 h
    have h₁ : Since (fun s => q.subject = s ∨ q.object = .node s) d d₁ :=
      (resolve hs).mono fun s hs => .inl hs.symm
    cases hq : q.object with
    | any =>
        rw [hq] at h
        cases h
    | value v =>
        rw [hq] at h h₁
        cases h
        exact h₁.trans (edit (.setValue q.predicate v) us)
    | node t =>
        rw [hq] at h h₁
        obtain ⟨⟨ts, d₂⟩, ht, h⟩ := bind_ok_iff.1 h
        cases h
        have hts := (resolve_spec hv (resolve_spec hv hd hs).overlay ht).contains
        have h₂ : Since (fun s => q.subject = s ∨ Object.node t = .node s) d₁ d₂ :=
          (resolve ht).mono fun s hs => .inr (congrArg Object.node hs.symm)
        exact (h₁.trans h₂).trans (edit (.setEdges q.predicate ts hts) us)

theorem setQuads (hv : vars.Known g) (hd : d.Over g vars) (h : qs.foldlM (Graph.setQuad vars) d = .ok d') :
    Since (fun s => ∃ q ∈ qs, q.subject = s ∨ q.object = .node s) d d' := by
  induction qs generalizing d with
  | nil =>
      cases h
      exact refl _ _
  | cons q qs ih =>
      rw [List.foldlM_cons] at h
      obtain ⟨d₁, h₁, h⟩ := bind_ok_iff.1 h
      have hfirst : Since (fun s => ∃ q' ∈ q :: qs, q'.subject = s ∨ q'.object = .node s) d d₁ :=
        (setQuad hv hd h₁).mono fun s hs => ⟨q, List.mem_cons_self, hs⟩
      refine hfirst.trans ((ih (setQuad_spec hv hd h₁).1 h).mono fun s => ?_)
      rintro ⟨q', hq', hs⟩
      exact ⟨q', List.mem_cons_of_mem q hq', hs⟩

theorem lt_of_made {u : Uid} (h : Since used d d') (hn : d.made? s = none) (hs : d'.made? s = some u) :
    d.graph.lastUid < u.value := by
  rcases h.made s u hs with hs | ⟨hlt, -⟩
  · rw [hn] at hs
    cases hs
  · exact hlt

theorem unmade (h : Since used d d') (hn : d.made? s = none) (hu : ¬used s) : d'.made? s = none := by
  cases hs : d'.made? s with
  | none => rfl
  | some u =>
      rcases h.made s u hs with hs | ⟨-, hus⟩
      · rw [hn] at hs
        cases hs
      · exact absurd hus hu

end Draft.Since

theorem execute_quads_append {qs' : List Quad} {receipt : Receipt} {g' : Graph} (hg : g.Intact)
    (h : execute g (.of none [⟨none, qs ++ qs', []⟩]) = .ok (receipt, g')) :
    ∃ vars d d', vars.Known g ∧ d.Over g vars ∧ Draft.Holds vars ⟨g, .empty, .empty⟩ qs d ∧
      Draft.Since (fun s => ∃ q ∈ qs, q.subject = s ∨ q.object = .node s) ⟨g, .empty, .empty⟩ d ∧
        qs'.foldlM (setQuad vars) d = .ok d' ∧ receipt.assigned = d'.blanks ∧ g' = d'.graph := by
  obtain ⟨vars, d', hv, hset, hassigned, hg'⟩ := execute_quads_foldlM h
  rw [List.foldlM_append] at hset
  obtain ⟨d, hd, hset⟩ := bind_ok_iff.1 hset
  obtain ⟨ho, hh⟩ := setQuads_spec hv (.start hg) hd
  exact ⟨vars, d, d', hv, ho, hh, .setQuads hv (.start hg) hd, hset, hassigned, hg'⟩

end Inventory.Graph
