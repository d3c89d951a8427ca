import Inventory.Proofs.Graph.ClosedRequests
import Inventory.Proofs.InstanceKeys
import Inventory.Proofs.StoreIntegrity

/-!
The request that writes a record. It finds the instance of the record's key and that of its parent's, makes those that
are missing, and changes no cells but those of the record.
-/

namespace Inventory.InstanceUpserts

open Inventory.Graph Store Repository Query

variable {g g' : Graph} {vars : Vars} {d : Draft} {u w : Uid} {p var scope name typeName id time : String}
  {r : Record} {parent : Option (String × String)}

/-- The instance that a key names after a request: the one it named before, or else one with a new uid. -/
structure Settles (g g' : Graph) (scope name id : String) (u : Uid) : Prop where
  only : ∀ w, InstanceOf g' scope name id w ↔ w = u
  origin : InstanceOf g scope name id u ∨ (∀ w, ¬InstanceOf g scope name id w) ∧ g.lastUid < u.value

/-- A key that names one instance at most. -/
def Single (g : Graph) (scope name id : String) : Prop :=
  ∀ u v, InstanceOf g scope name id u → InstanceOf g scope name id v → u = v

/-- The value of the last field of a record that is kept under a predicate. -/
def lastValue? (r : Record) (p : String) : Option FieldValue :=
  ((r.values.filter (·.predicate = p)).getLast?).map (·.value)

/-- A record that has been written to the instance `own`, below the instance `above` if it has a parent. -/
structure Upserted (g g' : Graph) (scope typeName : String) (parent : Option (String × String)) (r : Record)
    (time : String) (own : Uid) (above : Option Uid) : Prop where
  key : Settles g g' scope typeName r.identifier own
  parentKey : match parent with
    | some (parentId, parentType) => ∃ u, above = some u ∧ Settles g g' scope parentType parentId u
    | none => above = none
  attributes : ∀ p, Vocabulary.isAttributePredicate p = true → g'.values own p =
    match lastValue? r p with
    | some v => [v.toJson]
    | none => g.values own p
  updated : g'.values own Vocabulary.updated = [.str time]
  created : ∀ u, u = own ∨ above = some u →
    g'.values u Vocabulary.created =
      if g.contains u = true then g.values u Vocabulary.created else [.str time]
  link : g'.edges own Vocabulary.parent = above.elim (g.edges own Vocabulary.parent) fun u => .ofList [u]
  values : ∀ p, g.contains own = true → Vocabulary.isAttributePredicate p = false → p ≠ Vocabulary.updated →
    g'.values own p = g.values own p
  edges : ∀ p, p ≠ Vocabulary.parent → g'.edges own p = g.edges own p
  others : ∀ w, w ≠ own → ∀ p, g'.edges w p = g.edges w p ∧
    ((above = some w → g.contains w = true) → g'.values w p = g.values w p)

section Carried

variable {names : List String} {params : Bindings} {q : Quad}

theorem closed_lookup (var scope typeName id : String) : (Record.lookup var scope typeName id).Closed params names := by
  refine ((Block.closed_start _ ?_).bindAs _).filtered ?_
  · simp [Root.refs]
  · rintro _ ⟨⟩
    refine .and fun f hf => ?_
    simp only [List.mem_cons, List.not_mem_nil, or_false] at hf
    rcases hf with rfl | rfl | rfl <;> exact .eq

theorem closed_lookups (scope typeName id : String) (parent : Option (String × String)) :
    Query.Closed ⟨"Upsert", [], lookups scope typeName id parent⟩ .empty := by
  refine Block.closedAll_cons (closed_lookup _ _ _ _) rfl ?_
  cases parent with
  | none => trivial
  | some k => exact Block.closedAll_cons (closed_lookup _ _ _ _) rfl trivial

theorem closed_creation (hv : var ∈ names) (hq : q ∈ (Record.creation var scope typeName id time).set) :
    q.Closed names := by
  simp only [Record.creation, List.mem_cons, List.not_mem_nil, or_false] at hq
  rcases hq with rfl | rfl | rfl | rfl | rfl | rfl | rfl <;> exact Quad.closed_value (by decide) hv

theorem closed_update
    (hr : ∀ f ∈ r.values, f.predicate = Vocabulary.identifier ∨ Vocabulary.isAttributePredicate f.predicate = true)
    (hv : Record.instanceVar ∈ names) (hq : q ∈ (r.update time).set) : q.Closed names := by
  simp only [Record.update, List.mem_append, List.mem_map, List.mem_singleton] at hq
  rcases hq with ⟨f, hf, rfl⟩ | rfl
  · refine Quad.closed_value (fun h => ?_) hv
    have hf := hr f (List.mem_filter.1 hf).1
    rw [h] at hf
    revert hf
    decide
  · exact Quad.closed_value (by decide) hv

/-- The request that writes a record sets only values and edges of what it has looked up. -/
theorem closed_upsertRequest
    (hr : ∀ f ∈ r.values, f.predicate = Vocabulary.identifier ∨ Vocabulary.isAttributePredicate f.predicate = true)
    (scope typeName : String) (parent : Option (String × String)) (time : String) :
    (upsertRequest scope typeName parent r time).Closed
      ⟨"Upsert", [], lookups scope typeName r.identifier parent⟩ := by
  have hown : Record.instanceVar ∈ Query.binds ⟨"Upsert", [], lookups scope typeName r.identifier parent⟩ :=
    List.mem_flatMap.2 ⟨_, List.mem_cons_self, by simp [Block.binds, Record.lookup, Block.filtered, Block.bindAs]⟩
  refine ⟨rfl, closed_lookups scope typeName r.identifier parent, fun m hm => ?_, fun m hm q hq => ?_⟩
  · exact delete_upsertRequest (List.mem_filter.1 hm).1
  · replace hm := (List.mem_filter.1 hm).1
    simp only [List.mem_append, List.mem_cons, List.not_mem_nil, or_false, List.mem_flatMap, Option.mem_toList] at hm
    rcases hm with (rfl | rfl) | ⟨k, rfl, hm⟩
    · exact closed_update hr hown hq
    · exact closed_creation hown hq
    · have hstub : Record.parentVar ∈ Query.binds ⟨"Upsert", [], lookups scope typeName r.identifier (some k)⟩ :=
        List.mem_flatMap.2 ⟨_, List.mem_cons_of_mem _ List.mem_cons_self,
          by simp [Block.binds, Record.lookup, Block.filtered, Block.bindAs]⟩
      rcases hm with rfl | rfl
      · obtain rfl := List.mem_singleton.1 hq
        refine ⟨by simp only [Quad.edge]; decide, hown, by simp [Quad.edge], fun s hs => ?_⟩
        cases hs
        exact hstub
      · exact closed_creation hstub hq

end Carried

section Cells

theorem stamp_eq_nil (hp : p ∉ [Vocabulary.scopes, Vocabulary.identifier, Vocabulary.typeName, Vocabulary.nodeType,
    Vocabulary.equipmentType, Vocabulary.created]) : stamp scope typeName id time p = [] := by
  simp only [List.mem_cons, List.not_mem_nil, or_false, not_or] at hp
  obtain ⟨h1, h2, h3, h4, h5, h6⟩ := hp
  simp [stamp, Ne.symm h1, Ne.symm h2, Ne.symm h3, Ne.symm h4, Ne.symm h5, Ne.symm h6]

theorem stamp_of_attribute (hp : Vocabulary.isAttributePredicate p = true) : stamp scope typeName id time p = [] := by
  refine stamp_eq_nil fun hmem => ?_
  have hplain : ∀ q ∈ [Vocabulary.scopes, Vocabulary.identifier, Vocabulary.typeName, Vocabulary.nodeType,
    Vocabulary.equipmentType, Vocabulary.created], Vocabulary.isAttributePredicate q = false := by decide
  rw [hplain p hmem] at hp
  cases hp

theorem ne_of_attribute {q : String} (hp : Vocabulary.isAttributePredicate p = true)
    (hq : Vocabulary.isAttributePredicate q = false) : q ≠ p := by
  rintro rfl
  rw [hp] at hq
  cases hq

theorem recorded_of_attribute (hp : Vocabulary.isAttributePredicate p = true) (time : String) :
    recorded r time p = (r.values.filter (·.predicate = p)).map (·.value.toJson) := by
  have hi : Vocabulary.identifier ≠ p := ne_of_attribute hp (by decide)
  rw [recorded, if_neg (ne_of_attribute hp (by decide)), List.append_nil, List.filter_filter]
  refine congrArg _ (List.filter_congr fun f _ => ?_)
  by_cases hf : f.predicate = p
  · simp [hf, Ne.symm hi]
  · simp [hf]

theorem recorded_updated
    (hr : ∀ f ∈ r.values, f.predicate = Vocabulary.identifier ∨ Vocabulary.isAttributePredicate f.predicate = true)
    (time : String) : recorded r time Vocabulary.updated = [.str time] := by
  have hnone : (r.values.filter (·.predicate ≠ Vocabulary.identifier)).filter (·.predicate = Vocabulary.updated) =
      [] := by
    refine List.filter_eq_nil_iff.2 fun f hf h => ?_
    obtain ⟨hf, hne⟩ := List.mem_filter.1 hf
    have hown := (hr f hf).resolve_left (of_decide_eq_true hne)
    rw [of_decide_eq_true h] at hown
    revert hown
    decide
  rw [recorded, hnone, if_pos rfl]
  rfl

end Cells

theorem singles_of_declared (h : Declared g) : g.isList Vocabulary.updated = false ∧
    g.isList Vocabulary.created = false ∧ g.keepsEdges Vocabulary.parent = false :=
  ⟨isList_of_declared h (q := .new Vocabulary.updated .datetime) (by decide),
    isList_of_declared h (q := .new Vocabulary.created .datetime) (by decide),
    keepsEdges_of_declared h (q := (Schema.PredicateStatement.new Vocabulary.parent .uid).reversed) (by decide)⟩

section Settling

/-- A variable that is bound to one node at most stands for one. -/
theorem nodes_of_unique (hone : ∀ u ∈ vars.bound var, ∀ v ∈ vars.bound var, u = v)
    (hne : d.nodes vars (.var var) ≠ []) : ∃ u, d.nodes vars (.var var) = [u] := by
  by_cases hb : vars.bound var = []
  · rw [Draft.nodes, if_pos (by simpa using hb)] at hne ⊢
    cases hm : d.made? (.var var) with
    | none => simp [hm] at hne
    | some u => exact ⟨u, rfl⟩
  · rw [Draft.nodes, if_neg (by simpa using hb)]
    have hnodup := bound_nodup vars var
    cases hvs : vars.bound var with
    | nil => exact absurd hvs hb
    | cons u us =>
        rw [hvs] at hone hnodup
        cases us with
        | nil => exact ⟨u, rfl⟩
        | cons v vs =>
            have he := hone u (by simp) v (by simp)
            simp [he] at hnodup

theorem settles_of_var (hbound : ∀ w, w ∈ vars.bound var ↔ InstanceOf g scope name id w)
    (hp : Placed g g' scope name id (madeFor vars d var))
    (hold : ∀ w, InstanceOf g scope name id w → InstanceOf g' scope name id w)
    (hnew : ∀ w, InstanceOf g' scope name id w → InstanceOf g scope name id w ∨ madeFor vars d var = some w)
    (hfresh : ∀ w, madeFor vars d var = some w → g.lastUid < w.value) (hn : d.nodes vars (.var var) = [u]) :
    Settles g g' scope name id u := by
  by_cases hb : vars.bound var = []
  · have hm : madeFor vars d var = some u := madeFor_eq_some.2 ⟨hb, by simp [hn]⟩
    have hnone : ∀ w, ¬InstanceOf g scope name id w := fun w hw => by simpa [hb] using (hbound w).2 hw
    rw [hm] at hp hnew
    refine ⟨fun w => ⟨fun hw => ?_, ?_⟩, .inr ⟨hnone, hfresh u hm⟩⟩
    · exact (Option.some.inj ((hnew w hw).resolve_left (hnone w))).symm
    · rintro rfl
      exact instanceOf_of_stamped hp.2.1
  · have hbu : vars.bound var = [u] := by
      rw [← hn, Draft.nodes, if_neg (by simpa using hb)]
    have hu : InstanceOf g scope name id u := (hbound u).1 (by simp [hbu])
    refine ⟨fun w => ⟨fun hw => ?_, ?_⟩, .inl hu⟩
    · rcases hnew w hw with hw | hm
      · simpa [hbu] using (hbound w).2 hw
      · exact absurd (madeFor_eq_some.1 hm).1 hb
    · rintro rfl
      exact hold w hu

end Settling

section Written

variable {own : Uid} {above : Option Uid}

theorem madeFor_iff (ho : d.Over g vars) (hv : vars.Known g) (hn : d.nodes vars (.var var) = [u]) :
    madeFor vars d var = some w ↔ w = u ∧ ¬g.contains w = true := by
  constructor
  · intro hm
    exact ⟨by simpa [hn] using (madeFor_eq_some.1 hm).2, madeFor_new ho hm⟩
  · rintro ⟨rfl, hw⟩
    refine madeFor_eq_some.2 ⟨Classical.byContradiction fun hb => hw ?_, by simp [hn]⟩
    rw [Draft.nodes, if_neg (by simpa using hb)] at hn
    exact hv var w (by simp [hn])

/-- The nodes that a request stands for: that of a record, and that of its parent, if it has one. -/
structure Stands (vars : Vars) (d : Draft) (parent : Option (String × String)) (own : Uid) (above : Option Uid) :
    Prop where
  child : d.nodes vars (.var Record.instanceVar) = [own]
  below : ∀ k, parent = some k → ∃ u, above = some u ∧ d.nodes vars (.var Record.parentVar) = [u]
  alone : parent = none → above = none

theorem Stands.of_unique {id : String}
    (hone : ∀ u ∈ vars.bound Record.instanceVar, ∀ v ∈ vars.bound Record.instanceVar, u = v)
    (habove : ∀ u ∈ vars.bound Record.parentVar, ∀ v ∈ vars.bound Record.parentVar, u = v)
    (hh : Draft.Holds vars ⟨g, .empty, .empty⟩ (upsertQuads vars r scope typeName id time parent) d) :
    ∃ own above, Stands vars d parent own above := by
  obtain ⟨hi, hp⟩ := nodes_of_upsert hh
  obtain ⟨own, hown⟩ := nodes_of_unique hone hi
  cases parent with
  | none => exact ⟨own, none, hown, by simp, fun _ => rfl⟩
  | some k =>
      obtain ⟨u, hu⟩ := nodes_of_unique habove (hp rfl)
      exact ⟨own, some u, hown, fun _ _ => ⟨u, rfl, hu⟩, by simp⟩

variable (ho : d.Over g vars) (hv : vars.Known g) (hs : Stands vars d parent own above)
  (hh : Draft.Holds vars ⟨g, .empty, .empty⟩ (upsertQuads vars r scope typeName id time parent) d)

include ho hv hs hh

theorem values_of_upsert (w : Uid) (p : String) : d.graph.values w p =
    ((if w = own then recorded r time p else []) ++
      (if w = own ∧ ¬g.contains w = true then stamp scope typeName id time p else []) ++
        parent.toList.flatMap fun k =>
          if above = some w ∧ ¬g.contains w = true then stamp scope k.2 k.1 time p else []).foldl
            (put (g.isList p)) (g.values w p) := by
  rw [(cells_of_upsert hh w p).1, hs.child]
  simp only [List.mem_singleton, madeFor_iff ho hv hs.child]
  cases hp : parent with
  | none => rfl
  | some k =>
      obtain ⟨u, rfl, hu⟩ := hs.below k hp
      simp only [madeFor_iff ho hv hu, Option.some.injEq, eq_comm (a := u)]

omit ho hv in
theorem edges_of_upsert (w : Uid) (p : String) : d.graph.edges w p =
    (if w = own ∧ Vocabulary.parent = p then above.toList else []).foldl (link (g.keepsEdges p)) (g.edges w p) := by
  rw [(cells_of_upsert hh w p).2, hs.child]
  cases hp : parent with
  | none => simp [hs.alone hp]
  | some k =>
      obtain ⟨u, rfl, hu⟩ := hs.below k hp
      simp [hu]

theorem attributes_of_upsert
    (hlists : ∀ f ∈ r.values, Vocabulary.isAttributePredicate f.predicate = true → g.isList f.predicate = false)
    (hp : Vocabulary.isAttributePredicate p = true) : d.graph.values own p =
      match lastValue? r p with
      | some v => [v.toJson]
      | none => g.values own p := by
  have hwritten : d.graph.values own p =
      ((r.values.filter (·.predicate = p)).map (·.value.toJson)).foldl (put (g.isList p)) (g.values own p) := by
    rw [values_of_upsert ho hv hs hh, if_pos rfl, recorded_of_attribute hp]
    cases parent <;> simp [stamp_of_attribute hp]
  rw [hwritten, lastValue?]
  cases hf : r.values.filter (·.predicate = p) with
  | nil => rfl
  | cons f fs =>
      have hfirst : f ∈ r.values.filter (·.predicate = p) := by simp [hf]
      obtain ⟨hmem, hfp⟩ := List.mem_filter.1 hfirst
      have hlist : g.isList p = false := of_decide_eq_true hfp ▸ hlists f hmem (by rwa [of_decide_eq_true hfp])
      rw [hlist, foldl_put_single, List.getLast?_map]
      cases (f :: fs).getLast? <;> rfl

/-- Under any other predicate a record changes its own node only where it is new, and the time of the update. -/
theorem values_of_plain
    (hr : ∀ f ∈ r.values, f.predicate = Vocabulary.identifier ∨ Vocabulary.isAttributePredicate f.predicate = true)
    (hp : Vocabulary.isAttributePredicate p = false) (hu : p ≠ Vocabulary.updated) (hw : g.contains w = true) :
    d.graph.values w p = g.values w p := by
  rw [values_of_upsert ho hv hs hh, recorded_eq_nil hr hp hu.symm]
  cases parent <;> simp [hw]

theorem updated_of_upsert (hd : Declared g)
    (hr : ∀ f ∈ r.values, f.predicate = Vocabulary.identifier ∨ Vocabulary.isAttributePredicate f.predicate = true) :
    d.graph.values own Vocabulary.updated = [.str time] := by
  have hstamp : ∀ typeName id, stamp scope typeName id time Vocabulary.updated = [] :=
    fun _ _ => stamp_eq_nil (by decide)
  rw [values_of_upsert ho hv hs hh, if_pos rfl, recorded_updated hr, (singles_of_declared hd).1]
  cases parent <;> simp [hstamp, put]

theorem created_of_upsert (hd : Declared g)
    (hr : ∀ f ∈ r.values, f.predicate = Vocabulary.identifier ∨ Vocabulary.isAttributePredicate f.predicate = true)
    (hu : u = own ∨ above = some u) : d.graph.values u Vocabulary.created =
      if g.contains u = true then g.values u Vocabulary.created else [.str time] := by
  by_cases hc : g.contains u = true
  · rw [if_pos hc, values_of_plain ho hv hs hh hr (by decide) (by decide) hc]
  · have hstamp : ∀ typeName id, stamp scope typeName id time Vocabulary.created = [.str time] := by
      intro typeName id
      simp +decide [stamp]
    rw [if_neg hc, values_of_upsert ho hv hs hh, recorded_eq_nil hr (by decide) (by decide),
      (singles_of_declared hd).2.1, foldl_put_single]
    rcases hu with rfl | hu
    · cases hp : parent with
      | none => simp [hstamp, hc]
      | some k => by_cases ha : above = some u <;> simp [hstamp, hc, ha]
    · cases hp : parent with
      | none => rw [hs.alone hp] at hu; cases hu
      | some k =>
          rcases eq_or_ne u own with rfl | hne
          · simp [hstamp, hc, hu]
          · simp [hstamp, hc, hu, hne]

/-- A record changes no values of nodes other than its own, unless they are new. -/
theorem values_of_other (hw : w ≠ own) (hc : above = some w → g.contains w = true) (p : String) :
    d.graph.values w p = g.values w p := by
  have hmade : ¬(above = some w ∧ g.contains w = false) := by
    rintro ⟨ha, hn⟩
    rw [hc ha] at hn
    cases hn
  rw [values_of_upsert ho hv hs hh]
  cases parent <;> simp [hw, hmade]

omit ho hv in
theorem link_of_upsert (hd : Declared g) :
    d.graph.edges own Vocabulary.parent = above.elim (g.edges own Vocabulary.parent) fun u => .ofList [u] := by
  rw [edges_of_upsert hs hh, if_pos ⟨rfl, rfl⟩, (singles_of_declared hd).2.2]
  cases above <;> rfl

omit ho hv in
theorem edges_of_other (h : ¬(w = own ∧ Vocabulary.parent = p)) : d.graph.edges w p = g.edges w p := by
  rw [edges_of_upsert hs hh, if_neg h]
  rfl

end Written

section Upserted

variable (h : UpsertDraft g scope typeName r.identifier parent r time vars d) (hd : Declared g)
  (hr : ∀ f ∈ r.values, f.predicate = Vocabulary.identifier ∨ Vocabulary.isAttributePredicate f.predicate = true)
  (hself : parent ≠ some (r.identifier, typeName))
  (hfresh : ∀ w, d.graph.contains w = true → ¬g.contains w = true → g.lastUid < w.value)

include h hfresh in
theorem lt_of_madeFor (hm : madeFor vars d var = some w) : g.lastUid < w.value := by
  have hmade : d.made? (.var var) = some w := by
    rw [madeFor, if_pos (madeFor_eq_some.1 hm).1] at hm
    exact hm
  exact hfresh w (h.overlay.made_new _ w hmade).1 (madeFor_new h.overlay hm)

include h hd hr hself hfresh

/-- The node of a record is the only one of its key. -/
theorem settles_own (hn : d.nodes vars (.var Record.instanceVar) = [u]) :
    Settles g d.graph scope typeName r.identifier u := by
  have hm := h.instanceWritten hr hd
  refine settles_of_var h.own hm.owned (fun w hw => hm.old hw) (fun w hw => ?_) (fun w => lt_of_madeFor h hfresh) hn
  rcases InstanceKeys.origin hm hw with hw | ⟨-, ⟨hw, -⟩ | ⟨-, hp⟩⟩
  · exact .inl hw
  · exact .inr hw
  · exact absurd hp hself

/-- The node of its parent is the only one of that key, which is another. -/
theorem settles_parent {k : String × String} (hk : parent = some k)
    (hn : d.nodes vars (.var Record.parentVar) = [u]) : Settles g d.graph scope k.2 k.1 u := by
  subst hk
  have hm := h.instanceWritten hr hd
  have hkey : ∀ w, w ∈ vars.bound Record.parentVar ↔ InstanceOf g scope k.2 k.1 w := by
    intro w
    rw [h.above]
    simp
  refine settles_of_var hkey hm.stubbed (fun w hw => hm.old hw) (fun w hw => ?_) (fun w => lt_of_madeFor h hfresh) hn
  rcases InstanceKeys.origin hm hw with hw | ⟨-, ⟨-, -, hname, hid⟩ | ⟨hw, -⟩⟩
  · exact .inl hw
  · exact absurd (by rw [← hname, ← hid]) hself
  · exact .inr hw

variable (hlists : ∀ f ∈ r.values, Vocabulary.isAttributePredicate f.predicate = true → g.isList f.predicate = false)
  (hone : Single g scope typeName r.identifier) (habove : ∀ k, parent = some k → Single g scope k.2 k.1)

include hlists hone habove

theorem upserted_of_draft : ∃ own above, Upserted g d.graph scope typeName parent r time own above := by
  obtain ⟨own, above, hs⟩ := Stands.of_unique (fun u hu v hv => hone u v ((h.own u).1 hu) ((h.own v).1 hv))
    (fun u hu v hv => by
      obtain ⟨k, hk, hu⟩ := (h.above u).1 hu
      obtain ⟨k', hk', hv⟩ := (h.above v).1 hv
      obtain rfl := Option.some.inj (hk.symm.trans hk')
      exact habove k hk u v hu hv) h.holds
  have hv := h.known
  have ho := h.overlay
  have hh := h.holds
  refine ⟨own, above, settles_own h hd hr hself hfresh hs.child, ?_, fun p hp => ?_, ?_, fun u hu => ?_, ?_,
    fun p hc hp hne => ?_, fun p hp => ?_, fun w hw p => ⟨?_, fun hc => ?_⟩⟩
  · cases hp : parent with
    | none => exact hs.alone hp
    | some k =>
        obtain ⟨u, hu, hnodes⟩ := hs.below k hp
        exact ⟨u, hu, settles_parent h hd hr hself hfresh hp hnodes⟩
  · exact attributes_of_upsert ho hv hs hh hlists hp
  · exact updated_of_upsert ho hv hs hh hd hr
  · exact created_of_upsert ho hv hs hh hd hr hu
  · exact link_of_upsert hs hh hd
  · exact values_of_plain ho hv hs hh hr hp hne hc
  · exact edges_of_other hs hh fun h => hp h.2.symm
  · exact edges_of_other hs hh fun h => hw h.1
  · exact values_of_other ho hv hs hh hw hc p

end Upserted

/-- A record that has been read is written to whatever calls have left in a store, if its key and that of its parent
name one instance each at most and are not the same. Its instance and its parent's are found or made, its attributes
are set, and no other cell changes. -/
theorem upserted_of_bind (refusals : Refusals) (cs : List Call) {t : EquipmentType} {payload : List (String × Json)}
    {parentType : Option String} (hr : Record.bind t payload = .ok r) (hp : r.parent? typeName parentType = .ok parent)
    (hd : Declared ((unused refusals).afterCalls cs).graph)
    (hlists : ∀ f ∈ r.values, Vocabulary.isAttributePredicate f.predicate = true →
      ((unused refusals).afterCalls cs).graph.isList f.predicate = false)
    (hone : Single ((unused refusals).afterCalls cs).graph scope typeName r.identifier)
    (habove : ∀ k, parent = some k → Single ((unused refusals).afterCalls cs).graph scope k.2 k.1)
    (hself : parent ≠ some (r.identifier, typeName)) (now : Int) :
    ∃ request receipt g' own above, r.upsert scope typeName parentType now = .ok request ∧
      execute ((unused refusals).afterCalls cs).graph request = .ok (receipt, g') ∧
        Upserted ((unused refusals).afterCalls cs).graph g' scope typeName parent r (Timestamp.render now) own
          above := by
  have hi := (kept_unused refusals cs).intact
  generalize ((unused refusals).afterCalls cs).graph = g at hd hlists hone habove hi ⊢
  have hfields := fun f (hf : f ∈ r.values) => Record.predicate_of_bind hr hf
  obtain ⟨receipt, g', he⟩ :=
    execute_closed g (closed_upsertRequest hfields scope typeName parent (Timestamp.render now))
  have hfresh := fun w => lt_of_new (u := w) hi he
  obtain ⟨vars, d, hdraft, rfl⟩ := draft_of_upsert hi he
  obtain ⟨own, above, h⟩ := upserted_of_draft hdraft hd hfields hself hfresh hlists hone habove
  exact ⟨_, receipt, d.graph, own, above, upsert_ok hp now, he, h⟩

section Twice

/-- A type of instances below racks, two attributes of which are kept under one predicate. -/
def server : EquipmentType :=
  ((((EquipmentType.new "server" "0x1").withAttribute (.identifier "key" "id")).withAttribute
    (.parentIdentifier "up" "up")).withAttribute (.new "u size" .int "size")).withAttribute (.new "u_size" .int "units")

def payload (up : String) (size units : Nat) : List (String × Json) :=
  [("id", .str "x"), ("up", .str up), ("size", .ofNat size), ("units", .ofNat units)]

def record (up : String) (size units : Int) : Record :=
  ⟨"server", "x", some up, [⟨"key", Vocabulary.identifier, .string "x"⟩,
    ⟨"u size", "equipment.server.u_size", .int size⟩, ⟨"u_size", "equipment.server.u_size", .int units⟩]⟩

/-- A record is written below one parent. -/
def once : List Call :=
  [.alter Schema.baseStatements, .execute (upsertRequest "s1" "server" (some ("y", "rack")) (record "y" 1 2) "t")]

set_option maxRecDepth 100000 in
theorem cells_once : ((unused .none).afterCalls once).graph.uids = [⟨1⟩, ⟨2⟩] ∧
    ((unused .none).afterCalls once).graph.values ⟨1⟩ Vocabulary.identifier = [.str "x"] ∧
    ((unused .none).afterCalls once).graph.values ⟨2⟩ Vocabulary.identifier = [.str "y"] ∧
    Declared ((unused .none).afterCalls once).graph ∧
    ∀ f ∈ (record "z" 3 4).values, Vocabulary.isAttributePredicate f.predicate = true →
      ((unused .none).afterCalls once).graph.isList f.predicate = false := by
  unfold Declared
  decide +kernel

theorem single_once (scope name id : String) : Single ((unused .none).afterCalls once).graph scope name id := by
  obtain ⟨hu, hx, hy, -⟩ := cells_once
  generalize ((unused .none).afterCalls once).graph = g at hu hx hy ⊢
  intro u v h h'
  have hmem := mem_uids.2 h.contains
  have hmem' := mem_uids.2 h'.contains
  obtain ⟨-, -, -, hi⟩ := h
  obtain ⟨-, -, -, hi'⟩ := h'
  rw [hu] at hmem hmem'
  simp only [List.mem_cons, List.not_mem_nil, or_false] at hmem hmem'
  rcases hmem with rfl | rfl <;> rcases hmem' with rfl | rfl <;> simp_all

/-- The record is then written again, below another parent. -/
theorem upserted_twice : ∃ request receipt g' own above,
    (record "z" 3 4).upsert "s1" "server" (some "rack") 60 = .ok request ∧
      execute ((unused .none).afterCalls once).graph request = .ok (receipt, g') ∧
        Upserted ((unused .none).afterCalls once).graph g' "s1" "server" (some ("z", "rack")) (record "z" 3 4)
          (Timestamp.render 60) own above := by
  have hbind : Record.bind server (payload "z" 3 4) = .ok (record "z" 3 4) := by decide +kernel
  have hparent : (record "z" 3 4).parent? "server" (some "rack") = .ok (some ("z", "rack")) := rfl
  obtain ⟨-, -, -, hdeclared, hlists⟩ := cells_once
  exact upserted_of_bind .none once hbind hparent hdeclared hlists (single_once _ _ _) (fun k _ => single_once _ _ _)
    (by decide) 60

end Twice

end Inventory.InstanceUpserts
