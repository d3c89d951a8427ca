import Inventory.Proofs.Repository.Runs

/-!
The keys of instances. A scope, a type and an identifier name one instance, until a record is written that is its own
parent.
-/

namespace Inventory.InstanceKeys

open Inventory.Graph Repository Vocabulary

variable {g g' : Graph} {u v w : Uid} {scope scope' name name' id id' : String} {s : Store} {r : Repository}
  {c : Change}

def Unique (g : Graph) : Prop :=
  ∀ scope name id u v, InstanceOf g scope name id u → InstanceOf g scope name id v → u = v

/-- A record has been written below a parent of its own key, when there was no instance of that key: its type is its
own parent type, and its identifier that of its parent. -/
def Doubles (r : Repository) (s : Store) (c : Change) : Prop :=
  ∃ k scope name payload now t record, c = .upsertInstance k scope name payload now ∧
    (perform (typeByName name [scope]) s).1 = .ok t ∧
    (perform (r.upsertInstance k scope name payload now) s).1 = .ok record ∧
    t.parentTypeName = some t.typeName ∧ record.parentIdentifier = some record.identifier ∧
      ∀ w, ¬InstanceOf s.graph scope t.typeName record.identifier w

theorem key_of_stamped (h : Stamped g scope name id u) (hi : InstanceOf g scope' name' id' u) :
    scope' = scope ∧ name' = name ∧ id' = id := by
  obtain ⟨-, hs, ht, hid⟩ := hi
  rw [h.scope, List.mem_singleton, Json.str.injEq] at hs
  rw [h.type, List.mem_singleton, Json.str.injEq] at ht
  rw [h.id, List.mem_singleton, Json.str.injEq] at hid
  exact ⟨hs, ht, hid⟩

/-- An instance after a record has been written was there before, or is the new one of the record or of its parent. -/
theorem origin {parent : Option (String × String)} {own stub : Option Uid}
    (h : InstanceWritten g g' scope name id parent own stub) (hi : InstanceOf g' scope' name' id' w) :
    InstanceOf g scope' name' id' w ∨ (∀ x, ¬InstanceOf g scope' name' id' x) ∧
      (own = some w ∧ scope' = scope ∧ name' = name ∧ id' = id ∨ stub = some w ∧ parent = some (id', name')) := by
  by_cases hown : own = some w
  · have hp := h.owned
    rw [hown] at hp
    obtain ⟨rfl, rfl, rfl⟩ := key_of_stamped hp.2.1 hi
    exact .inr ⟨hp.2.2, .inl ⟨hown, rfl, rfl, rfl⟩⟩
  · by_cases hstub : stub = some w
    · have hp := h.stubbed
      rw [hstub] at hp
      cases parent with
      | none => cases hp
      | some k =>
          obtain ⟨i, n⟩ := k
          obtain ⟨rfl, rfl, rfl⟩ := key_of_stamped hp.2.1 hi
          exact .inr ⟨hp.2.2, .inr ⟨hstub, rfl⟩⟩
    · exact .inl ((instanceOf_of_kept (h.others w hown hstub)).1 hi)

/-- New instances have keys of their own, and so have the two of one record unless it is its own parent. -/
theorem unique_of_written {parent : Option (String × String)} {own stub : Option Uid} (hu : Unique g)
    (h : InstanceWritten g g' scope name id parent own stub)
    (hself : parent = some (id, name) → ∃ w, InstanceOf g scope name id w) : Unique g' := by
  intro scope' name' id' u v hi hj
  rcases origin h hi with hi | ⟨hnone, hi⟩
  · rcases origin h hj with hj | ⟨hnone, -⟩
    · exact hu scope' name' id' u v hi hj
    · exact absurd hi (hnone u)
  · rcases origin h hj with hj | ⟨-, hj⟩
    · exact absurd hj (hnone v)
    · have hapart : parent = some (id', name') → scope' = scope → name' = name → id' = id → u = v := by
        rintro hp rfl rfl rfl
        obtain ⟨x, hx⟩ := hself hp
        exact absurd hx (hnone x)
      rcases hi with ⟨hown, hs, hn, hid⟩ | ⟨hstub, hp⟩
      · rcases hj with ⟨hown', -⟩ | ⟨-, hp⟩
        · exact Option.some.inj (hown.symm.trans hown')
        · exact hapart hp hs hn hid
      · rcases hj with ⟨-, hs, hn, hid⟩ | ⟨hstub', -⟩
        · exact hapart hp hs hn hid
        · exact Option.some.inj (hstub.symm.trans hstub')

theorem keeps (hs : Coherent s.graph) (hu : Unique s.graph) (hn : ¬Doubles r s c) : Unique (c.run r s).graph := by
  rcases (c.step r hs).1.instances hs with hk |
    ⟨k, scope, name, payload, now, t, record, parent, own, stub, rfl, ht, hr, hp, hm⟩
  · exact fun scope name id u v hi hj =>
      hu scope name id u v ((instanceOf_of_kept (hk u hi.1)).1 hi) ((instanceOf_of_kept (hk v hj.1)).1 hj)
  · refine unique_of_written hu hm fun hself => Classical.byContradiction fun hnone => ?_
    rw [hself, Record.parent?_eq_some] at hp
    exact hn ⟨k, scope, name, payload, now, t, record, rfl, ht, hr, hp.2, hp.1, fun w hw => hnone ⟨w, hw⟩⟩

theorem breaks (hs : Coherent s.graph) (hb : Doubles r s c) : ¬Unique (c.run r s).graph := by
  obtain ⟨k, scope, name, payload, now, t, record, rfl, ht, hr, htype, hid, hnone⟩ := hb
  intro hu
  have hrun : perform (r.upsertInstance k scope name payload now) s =
      (.ok record, (Change.upsertInstance k scope name payload now).run r s) := Prod.ext hr rfl
  -- the lookups are made before anything is written, so neither of them finds the other new node
  rcases upsertInstance_cases hs hrun with ⟨-, e, he⟩ | ⟨t', record', parent, own, stub, ht', hr', hp, -, -, hm, -⟩
  · cases he
  · rw [ht] at ht'
    cases ht'
    cases hr'
    rw [Record.parent?_eq_some.2 ⟨hid, htype⟩] at hp
    cases hp
    have howned := hm.owned
    have hstubbed := hm.stubbed
    cases own with
    | none => exact howned.elim hnone
    | some x =>
        cases stub with
        | none => exact hstubbed.elim hnone
        | some y =>
            refine hm.apart x rfl (congrArg some ?_)
            exact hu scope t.typeName record.identifier y x (instanceOf_of_stamped hstubbed.2.1)
              (instanceOf_of_stamped howned.2.1)

/-- Keys name one instance each all along a run exactly if no record is written that is its own new parent. -/
theorem unique_iff (r : Repository) (refusals : Refusals) (cs : List Change) :
    (∀ pre, pre <+: cs → Unique (after r (bootstrapped refusals) pre).graph) ↔
      ∀ pre c, pre ++ [c] <+: cs → ¬Doubles r (after r (bootstrapped refusals) pre) c := by
  have hs := coherent_bootstrapped refusals
  have start : Unique (bootstrapped refusals).graph := by
    intro scope name id u v hu
    have hm := hu.1
    rw [(idle_bootstrapped refusals u typeName (by decide)).1] at hm
    cases hm
  exact forall_prefix_iff hs start (fun s c hs hu hn => keeps hs hu hn) (fun s c hs _ hb => breaks hs hb) cs

/-- Two types of one name in scopes of their own, of which the second is then brought into the scope of the first. -/
def namesakes : List Change :=
  [.upsertSource ((MetadataSource.equipment "b" "s2").withColumns ["id", "up"]),
    .upsertSource ((MetadataSource.equipment "a" "s1").withColumns ["id", "up"]),
    .createType ⟨0⟩ (((EquipmentType.new "server" "0x1").withScope "s2").withAttribute (.identifier "key" "id")),
    .createType ⟨0⟩ (((EquipmentType.new "server" "0x2").withScope "s1").withAttribute (.identifier "key" "id")),
    .updateType ⟨0⟩ "0x5" none [] ["s1", "s2"]]

/-- The first is put below the second, and a record is written below one of its own key. -/
def ownParent : List Change :=
  namesakes ++
    [.updateType ⟨0⟩ "0x3" (some "0x5") [.parentIdentifier "up" "up"] ["s2"],
    .upsertInstance ⟨0⟩ "s2" "server" [("id", .str "x"), ("up", .str "x")] 0]

set_option maxRecDepth 100000 in
theorem instances_ownParent : ([⟨8⟩, ⟨9⟩] : List Uid).map (fun u =>
    [typeName, scopes, equipmentType, identifier].map
      ((after ⟨0, .standard⟩ (bootstrapped .none) ownParent).graph.values u)) =
    List.replicate 2 [[.str equipmentMarker], [.str "s2"], [.str "server"], [.str "x"]] := by
  unfold ownParent
  simp only [after, List.foldl_append, List.foldl_cons, List.foldl_nil, Change.run]
  unfold updateType admitParent descendantIds typeChildren Repository.types loadTypes Repository.read step
    Store.query evaluate
  simp only [evalBlocks, evalBlock, blockNodes_eq_sortedPairs, Hierarchy.typeTraversal, Hierarchy.blocks]
  decide +kernel

theorem not_unique_ownParent : ¬Unique (after ⟨0, .standard⟩ (bootstrapped .none) ownParent).graph := by
  have h := instances_ownParent
  generalize (after ⟨0, .standard⟩ (bootstrapped .none) ownParent).graph = g at h ⊢
  simp only [List.map_cons, List.map_nil, List.replicate, List.cons.injEq, and_true] at h
  obtain ⟨⟨hm8, hs8, ht8, hi8⟩, hm9, hs9, ht9, hi9⟩ := h
  intro hu
  have he := hu "s2" "server" "x" ⟨8⟩ ⟨9⟩ ⟨by simp [hm8], by simp [hs8], by simp [ht8], by simp [hi8]⟩
    ⟨by simp [hm9], by simp [hs9], by simp [ht9], by simp [hi9]⟩
  cases he

end Inventory.InstanceKeys
