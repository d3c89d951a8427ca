import Inventory.Proofs.Record
import Inventory.Proofs.Repository.SourceEffects
import Inventory.Repository.Instances

/-!
What the request that writes a record makes of a graph: a node for the key of the record and one for that of its
parent, each only if there is none.
-/

namespace Inventory.Repository

open Inventory.Graph Store Query Listing

variable {g g' : Graph} {vars : Vars} {d : Draft} {answer : Answer} {u w : Uid}
  {p var scope typeName id : String}

/-- The instances of an identifier, of a type in a scope. -/
def InstanceOf (g : Graph) (scope typeName id : String) (w : Uid) : Prop :=
  .str Vocabulary.equipmentMarker ∈ g.values w Vocabulary.typeName ∧ .str scope ∈ g.values w Vocabulary.scopes ∧
    .str typeName ∈ g.values w Vocabulary.equipmentType ∧ .str id ∈ g.values w Vocabulary.identifier

/-- An instance of a type, in a scope. -/
def InstanceIn (g : Graph) (scope typeName : String) (w : Uid) : Prop :=
  .str Vocabulary.equipmentMarker ∈ g.values w Vocabulary.typeName ∧ .str scope ∈ g.values w Vocabulary.scopes ∧
    .str typeName ∈ g.values w Vocabulary.equipmentType

theorem InstanceOf.instanceIn (h : InstanceOf g scope typeName id w) : InstanceIn g scope typeName w :=
  ⟨h.1, h.2.1, h.2.2.1⟩

instance : Decidable (InstanceOf g scope typeName id w) := inferInstanceAs (Decidable (_ ∧ _ ∧ _ ∧ _))

theorem InstanceOf.contains (h : InstanceOf g scope typeName id w) : g.contains w = true := contains_of_mem_values h.1

/-- An instance as it is first written. -/
structure Stamped (g : Graph) (scope typeName id : String) (u : Uid) : Prop where
  marker : g.values u Vocabulary.typeName = [.str Vocabulary.equipmentMarker]
  scope : g.values u Vocabulary.scopes = [.str scope]
  type : g.values u Vocabulary.equipmentType = [.str typeName]
  id : g.values u Vocabulary.identifier = [.str id]
  plain : g.values u Vocabulary.metaType = []
  edges : ∀ p ∈ tracked, g.edges u p = .empty

/-- The node made for a key, if there was none for it. -/
def Placed (g g' : Graph) (scope typeName id : String) : Option Uid → Prop
  | some u => ¬g.contains u = true ∧ Stamped g' scope typeName id u ∧ ∀ w, ¬InstanceOf g scope typeName id w
  | none => ∃ w, InstanceOf g scope typeName id w

/-- A record that has been written in a scope, under a type and an identifier, perhaps below a parent. -/
structure InstanceWritten (g g' : Graph) (scope typeName id : String) (parent : Option (String × String))
    (own stub : Option Uid) : Prop where
  others : ∀ w, own ≠ some w → stub ≠ some w → Kept g g' w
  owned : Placed g g' scope typeName id own
  stubbed : match parent with
    | some (parentId, parentType) => Placed g g' scope parentType parentId stub
    | none => stub = none
  apart : ∀ u, own = some u → stub ≠ some u
  links : ∀ w v, v ∈ g'.edges w Vocabulary.parent → v ∈ g.edges w Vocabulary.parent ∨
    ∃ k, parent = some k ∧ InstanceOf g' scope typeName id w ∧ InstanceOf g' scope k.2 k.1 v
  recycled : ∀ w, g'.values w Vocabulary.recycle = g.values w Vocabulary.recycle

theorem instanceOf_of_kept (h : Kept g g' u) :
    InstanceOf g' scope typeName id u ↔ InstanceOf g scope typeName id u := by
  rw [InstanceOf, InstanceOf, (h Vocabulary.typeName (by decide)).1, (h Vocabulary.scopes (by decide)).1,
    (h Vocabulary.equipmentType (by decide)).1, (h Vocabulary.identifier (by decide)).1]

theorem instanceOf_of_stamped (h : Stamped g scope typeName id u) : InstanceOf g scope typeName id u := by
  refine ⟨?_, ?_, ?_, ?_⟩
  · simp [h.marker]
  · simp [h.scope]
  · simp [h.type]
  · simp [h.id]

section Places

variable {parent : Option (String × String)} {own stub : Option Uid}

theorem InstanceWritten.kept (h : InstanceWritten g g' scope typeName id parent own stub) (hc : g.contains w = true) :
    Kept g g' w := by
  refine h.others w (fun ho => ?_) fun hs => ?_
  · have hp := h.owned
    rw [ho] at hp
    exact hp.1 hc
  · have hp := h.stubbed
    rw [hs] at hp
    cases parent with
    | none => cases hp
    | some k => exact hp.1 hc

theorem InstanceWritten.stamped {p : String} (h : InstanceWritten g g' scope typeName id parent own stub)
    (hn : ¬g.contains w = true) (hp : p ∈ tracked) (hw : g'.values w p ≠ []) :
    ∃ name id, Stamped g' scope name id w := by
  by_cases ho : own = some w
  · have hplaced := h.owned
    rw [ho] at hplaced
    exact ⟨_, _, hplaced.2.1⟩
  · by_cases hs : stub = some w
    · have hplaced := h.stubbed
      rw [hs] at hplaced
      cases parent with
      | none => cases hplaced
      | some k => exact ⟨_, _, hplaced.2.1⟩
    · rw [(h.others w ho hs p hp).1, values_of_not_contains g p hn] at hw
      exact absurd rfl hw

theorem InstanceWritten.old {scope' name' id' : String} (h : InstanceWritten g g' scope typeName id parent own stub)
    (hw : InstanceOf g scope' name' id' w) : InstanceOf g' scope' name' id' w :=
  (instanceOf_of_kept (h.kept hw.contains)).2 hw

end Places

theorem plain_lookup : Plain g vars (Record.lookup var scope typeName id)
    (g.uids.filter fun u => Comparison.valuesMatch (g.values u Vocabulary.identifier) (.str id))
    fun u => decide (.str Vocabulary.equipmentMarker ∈ g.values u Vocabulary.typeName) &&
      (g.inScopes [scope] u && decide (.str typeName ∈ g.values u Vocabulary.equipmentType)) :=
  ⟨rfl, fun _ => holdsAll_cons (holds_eq_str _ _)
    (holdsAll_cons (holds_scopeFilter [scope]) (holdsAll_singleton (holds_eq_str _ _))), rfl, rfl⟩

theorem lookup_iff : (w ∈ g.uids.filter fun u => Comparison.valuesMatch (g.values u Vocabulary.identifier) (.str id)) ∧
    (decide (.str Vocabulary.equipmentMarker ∈ g.values w Vocabulary.typeName) &&
      (g.inScopes [scope] w && decide (.str typeName ∈ g.values w Vocabulary.equipmentType))) = true ↔
    InstanceOf g scope typeName id w := by
  simp only [List.mem_filter, mem_uids, Comparison.valuesMatch_str_iff, Bool.and_eq_true, decide_eq_true_eq,
    inScopes_iff, List.mem_singleton, exists_eq_left, InstanceOf]
  constructor
  · rintro ⟨⟨-, hi⟩, hm, hs, ht⟩
    exact ⟨hm, hs, ht, hi⟩
  · rintro ⟨hm, hs, ht, hi⟩
    exact ⟨⟨contains_of_mem_values hm, hi⟩, hm, hs, ht⟩

open Record in
/-- The blocks that look for an instance and for its parent. -/
def lookups (scope typeName id : String) (parent : Option (String × String)) : List Block :=
  lookup instanceVar scope typeName id :: parent.toList.map fun k => lookup parentVar scope k.2 k.1

theorem bound_of_lookups {parent : Option (String × String)}
    (h : Answers g (some ⟨"Upsert", [], lookups scope typeName id parent⟩) .empty answer vars) :
    (∀ w, w ∈ vars.bound Record.instanceVar ↔ InstanceOf g scope typeName id w) ∧
      (∀ w, w ∈ vars.bound Record.parentVar ↔ ∃ k, parent = some k ∧ InstanceOf g scope k.2 k.1 w) ∧
        vars.Known g := by
  obtain ⟨us, hus, h⟩ := evalBlocks_var plain_lookup rfl rfl rfl rfl h
  have hown : ∀ w, w ∈ us ↔ InstanceOf g scope typeName id w := fun w => (hus w).trans lookup_iff
  cases parent with
  | none =>
      cases h
      refine ⟨fun w => ?_, fun w => ?_, fun name w hw => ?_⟩
      · simp [mem_bound_extend_empty, hown]
      · simp +decide [mem_bound_extend_empty]
      · exact ((hown w).1 (mem_bound_extend_empty.1 hw).2).contains
  | some k =>
      obtain ⟨vs, hvs, h⟩ := evalBlocks_var plain_lookup rfl rfl rfl rfl h
      cases h
      have hstub : ∀ w, w ∈ vs ↔ InstanceOf g scope k.2 k.1 w := fun w => (hvs w).trans lookup_iff
      refine ⟨fun w => ?_, fun w => ?_, fun name w hw => ?_⟩
      · rw [bound_extend, mem_bound_extend_empty, hown]
        simp +decide
      · rw [bound_extend, mem_bound_extend_empty, hstub]
        simp +decide
      · rcases (bound_extend _ _).1 hw with ⟨-, hw⟩ | hw
        · exact ((hstub w).1 hw).contains
        · exact ((hown w).1 (mem_bound_extend_empty.1 hw).2).contains

/-- The node made for a variable that was bound to none. -/
def madeFor (vars : Vars) (d : Draft) (var : String) : Option Uid :=
  if vars.bound var = [] then d.made? (.var var) else none

theorem madeFor_eq_some : madeFor vars d var = some w ↔ vars.bound var = [] ∧ w ∈ d.nodes vars (.var var) := by
  unfold madeFor
  by_cases h : vars.bound var = []
  · simp [h, Draft.nodes]
  · simp [h]

/-- The quads of a new instance, where a variable has none. -/
def createdBy (vars : Vars) (var scope typeName id time : String) : List Quad :=
  if vars.bound var = [] then (Record.creation var scope typeName id time).set else []

/-- What is written to a new instance under a predicate. -/
def stamp (scope typeName id time p : String) : List Json :=
  (if Vocabulary.scopes = p then [.str scope] else []) ++ (if Vocabulary.identifier = p then [.str id] else []) ++
    (if Vocabulary.typeName = p then [.str Vocabulary.equipmentMarker] else []) ++
    (if Vocabulary.nodeType = p then
      [.str Vocabulary.equipmentNodeType, .str (Vocabulary.typeDeclaration typeName)] else []) ++
    (if Vocabulary.equipmentType = p then [.str typeName] else []) ++
      if Vocabulary.created = p then [.str time] else []

theorem written_createdBy (time : String) :
    (createdBy vars var scope typeName id time).flatMap (d.written vars w p) =
      if madeFor vars d var = some w then stamp scope typeName id time p else [] := by
  unfold createdBy
  by_cases hb : vars.bound var = []
  · rw [if_pos hb]
    by_cases hw : w ∈ d.nodes vars (.var var)
    · rw [if_pos (madeFor_eq_some.2 ⟨hb, hw⟩)]
      by_cases hn : Vocabulary.nodeType = p
      · simp [Record.creation, written_text hw, stamp, hn]
      · simp [Record.creation, written_text hw, stamp, hn]
    · rw [if_neg fun h => hw (madeFor_eq_some.1 h).2]
      have hsubject : ∀ q ∈ (Record.creation var scope typeName id time).set, q.subject = .var var := by
        intro q hq
        simp only [Record.creation, List.mem_cons, List.not_mem_nil, or_false] at hq
        rcases hq with rfl | rfl | rfl | rfl | rfl | rfl | rfl <;> rfl
      exact flatMap_written_of_not_mem hsubject hw
  · rw [if_neg hb, if_neg fun h => hb (madeFor_eq_some.1 h).1]
    rfl

theorem linked_createdBy (time : String) :
    (createdBy vars var scope typeName id time).flatMap (d.linked vars w p) = [] := by
  unfold createdBy
  split <;> rfl

/-- What a record writes to its instance under a predicate, apart from what every new instance gets. -/
def recorded (r : Record) (time p : String) : List Json :=
  (((r.values.filter (·.predicate ≠ Vocabulary.identifier)).filter (·.predicate = p)).map (·.value.toJson)) ++
    if Vocabulary.updated = p then [.str time] else []

theorem recorded_eq_nil {r : Record}
    (hr : ∀ f ∈ r.values, f.predicate = Vocabulary.identifier ∨ Vocabulary.isAttributePredicate f.predicate = true)
    (hp : Vocabulary.isAttributePredicate p = false) (hu : Vocabulary.updated ≠ p) (time : String) :
    recorded r time p = [] := by
  have hnone : (r.values.filter (·.predicate ≠ Vocabulary.identifier)).filter (·.predicate = p) = [] := by
    refine List.filter_eq_nil_iff.2 fun f hf h => ?_
    obtain ⟨hf, hne⟩ := List.mem_filter.1 hf
    obtain rfl := of_decide_eq_true h
    have hown := (hr f hf).resolve_left (of_decide_eq_true hne)
    rw [hp] at hown
    cases hown
  rw [recorded, hnone, if_neg hu]
  rfl

theorem written_fields {owner : Subject} (hw : w ∈ d.nodes vars owner) (fs : List BoundField) :
    (fs.map fun f => Quad.value owner f.predicate f.value.toJson).flatMap (d.written vars w p) =
      (fs.filter (·.predicate = p)).map (·.value.toJson) := by
  induction fs with
  | nil => rfl
  | cons f fs ih =>
      rw [List.map_cons, List.flatMap_cons, ih, List.filter_cons]
      by_cases hp : f.predicate = p <;> simp [Draft.written, Quad.value, hw, hp]

theorem written_update (r : Record) (time : String) : (r.update time).set.flatMap (d.written vars w p) =
    if w ∈ d.nodes vars (.var Record.instanceVar) then recorded r time p else [] := by
  by_cases hw : w ∈ d.nodes vars (.var Record.instanceVar)
  · rw [if_pos hw, Record.update, List.flatMap_append, List.flatMap_singleton, written_text hw, written_fields hw]
    rfl
  · have hsubject : ∀ q ∈ (r.update time).set, q.subject = .var Record.instanceVar := by
      intro q hq
      simp only [Record.update, List.mem_append, List.mem_map, List.mem_singleton] at hq
      rcases hq with ⟨f, -, rfl⟩ | rfl <;> rfl
    rw [if_neg hw, flatMap_written_of_not_mem hsubject hw]

theorem linked_update (r : Record) (time : String) : (r.update time).set.flatMap (d.linked vars w p) = [] := by
  refine List.flatMap_eq_nil_iff.2 fun q hq => ?_
  simp only [Record.update, List.mem_append, List.mem_map, List.mem_singleton] at hq
  rcases hq with ⟨f, -, rfl⟩ | rfl <;> rfl

theorem quadsSet_creation (time : String) (ms : List Mutation) :
    quadsSet vars (Record.creation var scope typeName id time :: ms) =
      createdBy vars var scope typeName id time ++ quadsSet vars ms := by
  have hcond : (Record.creation var scope typeName id time).condition.all (conditionHolds vars) =
      (vars.bound var).isEmpty := rfl
  rw [quadsSet_cons, hcond, createdBy]
  simp only [List.isEmpty_iff]

/-- The quads that write a record, in order. -/
def upsertQuads (vars : Vars) (r : Record) (scope typeName id time : String) (parent : Option (String × String)) :
    List Quad :=
  (r.update time).set ++ createdBy vars Record.instanceVar scope typeName id time ++
    parent.toList.flatMap fun k => Record.link.set ++ createdBy vars Record.parentVar scope k.2 k.1 time

theorem quadsSet_upsert (r : Record) (time : String) (parent : Option (String × String)) :
    quadsSet vars ([r.update time, Record.creation Record.instanceVar scope typeName id time] ++
      parent.toList.flatMap fun k => [Record.link, Record.creation Record.parentVar scope k.2 k.1 time]) =
    upsertQuads vars r scope typeName id time parent := by
  have hu : (r.update time).condition = none := rfl
  have hl : Record.link.condition = none := rfl
  have hn : quadsSet vars [] = [] := rfl
  unfold upsertQuads
  cases parent with
  | none =>
      change quadsSet vars [_, _] = _
      rw [quadsSet_cons, quadsSet_creation, hu, hn]
      simp
  | some k =>
      change quadsSet vars [_, _, _, _] = _
      rw [quadsSet_cons, quadsSet_creation, quadsSet_cons, quadsSet_creation, hu, hl, hn]
      simp

section UpsertQuads

variable {r : Record} {time : String} {parent : Option (String × String)}

theorem written_upsertQuads : (upsertQuads vars r scope typeName id time parent).flatMap (d.written vars w p) =
    (if w ∈ d.nodes vars (.var Record.instanceVar) then recorded r time p else []) ++
      (if madeFor vars d Record.instanceVar = some w then stamp scope typeName id time p else []) ++
        parent.toList.flatMap fun k =>
          if madeFor vars d Record.parentVar = some w then stamp scope k.2 k.1 time p else [] := by
  have hl : Record.link.set.flatMap (d.written vars w p) = [] := rfl
  rw [upsertQuads, List.flatMap_append, List.flatMap_append, written_update, written_createdBy, List.flatMap_assoc]
  simp only [List.flatMap_append, hl, written_createdBy, List.nil_append]

theorem linked_upsertQuads : (upsertQuads vars r scope typeName id time parent).flatMap (d.linked vars w p) =
    if parent.isSome = true ∧ w ∈ d.nodes vars (.var Record.instanceVar) ∧ Vocabulary.parent = p then
      d.nodes vars (.var Record.parentVar)
    else [] := by
  have hl : Record.link.set.flatMap (d.linked vars w p) =
      if w ∈ d.nodes vars (.var Record.instanceVar) ∧ Vocabulary.parent = p then d.nodes vars (.var Record.parentVar)
      else [] := by
    rw [Record.link, List.flatMap_singleton]
    rfl
  rw [upsertQuads, List.flatMap_append, List.flatMap_append, linked_update, linked_createdBy, List.flatMap_assoc]
  simp only [List.flatMap_append, hl, linked_createdBy, List.append_nil, List.nil_append]
  cases parent <;> simp

theorem cells_of_upsert
    (hh : Draft.Holds vars ⟨g, .empty, .empty⟩ (upsertQuads vars r scope typeName id time parent) d) (w : Uid)
    (p : String) : d.graph.values w p =
      ((if w ∈ d.nodes vars (.var Record.instanceVar) then recorded r time p else []) ++
        (if madeFor vars d Record.instanceVar = some w then stamp scope typeName id time p else []) ++
          parent.toList.flatMap fun k =>
            if madeFor vars d Record.parentVar = some w then stamp scope k.2 k.1 time p else []).foldl
              (put (g.isList p)) (g.values w p) ∧
      d.graph.edges w p =
        (if parent.isSome = true ∧ w ∈ d.nodes vars (.var Record.instanceVar) ∧ Vocabulary.parent = p then
          d.nodes vars (.var Record.parentVar)
        else []).foldl (link (g.keepsEdges p)) (g.edges w p) := by
  rw [hh.values, hh.edges, written_upsertQuads, linked_upsertQuads]
  exact ⟨rfl, rfl⟩

theorem nodes_of_upsert
    (hh : Draft.Holds vars ⟨g, .empty, .empty⟩ (upsertQuads vars r scope typeName id time parent) d) :
    d.nodes vars (.var Record.instanceVar) ≠ [] ∧
      (parent.isSome = true → d.nodes vars (.var Record.parentVar) ≠ []) := by
  constructor
  · have hq : Quad.text (.var Record.instanceVar) Vocabulary.updated time ∈
        upsertQuads vars r scope typeName id time parent := by
      simp [upsertQuads, Record.update]
    exact hh.subject _ hq
  · intro hp
    obtain ⟨k, rfl⟩ := Option.isSome_iff_exists.1 hp
    have hq : Quad.edge (.var Record.instanceVar) Vocabulary.parent (.var Record.parentVar) ∈
        upsertQuads vars r scope typeName id time (some k) := by
      simp [upsertQuads, Record.link]
    exact hh.object _ hq _ rfl

end UpsertQuads

section MadeFor

variable (ho : d.Over g vars)

include ho

theorem madeFor_new (hu : madeFor vars d var = some u) : ¬g.contains u = true := by
  obtain ⟨hb, hu⟩ := madeFor_eq_some.1 hu
  exact fun hc => by simpa [hb] using ho.mem_bound hc hu

theorem madeFor_inj {var' : String} (h : madeFor vars d var = some u) (h' : madeFor vars d var' = some u) :
    var = var' := by
  unfold madeFor at h h'
  split at h
  · split at h'
    · exact Subject.var.inj (ho.made_inj _ _ u h h')
    · cases h'
  · cases h

end MadeFor

theorem stamped_of_cells (hd : Declared g)
    {time : String} (hv : ∀ p ∈ tracked, g'.values u p = (stamp scope typeName id time p).foldl (put (g.isList p)) [])
    (he : ∀ p ∈ tracked, g'.edges u p = .empty) : Stamped g' scope typeName id u := by
  obtain ⟨-, hps, hpn, hpi, hpe, -, -⟩ := lists_of_declared hd
  refine ⟨?_, ?_, ?_, ?_, ?_, he⟩
  · rw [hv _ (by decide)]
    simp +decide [stamp, put]
  · rw [hv _ (by decide)]
    simp +decide [stamp, put, hps]
  · rw [hv _ (by decide)]
    simp +decide [stamp, put]
  · rw [hv _ (by decide)]
    simp +decide [stamp, put]
  · rw [hv _ (by decide)]
    simp +decide [stamp]

/-- A variable for a key is bound to what has that key, or stands for a node that is made for it. -/
theorem placed_of_var (time : String) (hd : Declared g) (ho : d.Over g vars)
    (hbound : ∀ w, w ∈ vars.bound var ↔ InstanceOf g scope typeName id w) (hne : d.nodes vars (.var var) ≠ [])
    (hcells : ∀ u, madeFor vars d var = some u → ∀ p ∈ tracked,
      d.graph.values u p = (stamp scope typeName id time p).foldl (put (g.isList p)) [] ∧
        d.graph.edges u p = .empty) :
    Placed g d.graph scope typeName id (madeFor vars d var) := by
  cases hm : madeFor vars d var with
  | some u =>
      refine ⟨madeFor_new ho hm, ?_, fun w hw => ?_⟩
      · exact stamped_of_cells hd (fun p hp => (hcells u hm p hp).1) fun p hp => (hcells u hm p hp).2
      · simpa [(madeFor_eq_some.1 hm).1] using (hbound w).2 hw
  | none =>
      have hb : vars.bound var ≠ [] := by
        intro hb
        obtain ⟨w, hw⟩ := List.exists_mem_of_ne_nil _ hne
        rw [madeFor_eq_some.2 ⟨hb, hw⟩] at hm
        cases hm
      obtain ⟨w, hw⟩ := List.exists_mem_of_ne_nil _ hb
      exact ⟨w, (hbound w).1 hw⟩

theorem instanceOf_of_mem_nodes (hp : Placed g g' scope typeName id (madeFor vars d var))
    (hbound : ∀ u ∈ vars.bound var, InstanceOf g' scope typeName id u) (hu : u ∈ d.nodes vars (.var var)) :
    InstanceOf g' scope typeName id u := by
  by_cases hb : vars.bound var = []
  · rw [madeFor_eq_some.2 ⟨hb, hu⟩] at hp
    exact instanceOf_of_stamped hp.2.1
  · rw [Draft.nodes, if_neg (by simpa using hb)] at hu
    exact hbound u hu

/-- A draft in which a record is written, to what its look-ups bind. -/
structure UpsertDraft (g : Graph) (scope typeName id : String) (parent : Option (String × String)) (r : Record)
    (time : String) (vars : Vars) (d : Draft) : Prop where
  own : ∀ w, w ∈ vars.bound Record.instanceVar ↔ InstanceOf g scope typeName id w
  above : ∀ w, w ∈ vars.bound Record.parentVar ↔ ∃ k, parent = some k ∧ InstanceOf g scope k.2 k.1 w
  known : vars.Known g
  overlay : d.Over g vars
  holds : Draft.Holds vars ⟨g, .empty, .empty⟩ (upsertQuads vars r scope typeName id time parent) d

namespace UpsertDraft

variable {r : Record} {time : String} {parent : Option (String × String)}
  (h : UpsertDraft g scope typeName id parent r time vars d)
  (hr : ∀ f ∈ r.values, f.predicate = Vocabulary.identifier ∨ Vocabulary.isAttributePredicate f.predicate = true)

include h

theorem apart (hu : madeFor vars d Record.instanceVar = some u) : madeFor vars d Record.parentVar ≠ some u :=
  fun hp => absurd (madeFor_inj h.overlay hu hp) (by decide)

include hr

/-- Of all that tells instances apart, a record writes only what a node that is made for it starts from. -/
theorem trackedCells (w : Uid) (hp : p ∈ tracked) :
    d.graph.values w p =
        ((if madeFor vars d Record.instanceVar = some w then stamp scope typeName id time p else []) ++
          parent.toList.flatMap fun k =>
            if madeFor vars d Record.parentVar = some w then stamp scope k.2 k.1 time p else []).foldl
              (put (g.isList p)) (g.values w p) ∧
      d.graph.edges w p = g.edges w p := by
  obtain ⟨hv, he⟩ := cells_of_upsert h.holds w p
  have hplain : ∀ p ∈ tracked, Vocabulary.isAttributePredicate p = false := by decide
  have hlink : ¬(parent.isSome = true ∧ w ∈ d.nodes vars (.var Record.instanceVar) ∧ Vocabulary.parent = p) :=
    fun h => ne_of_tracked hp (by decide) h.2.2
  rw [hv, he, recorded_eq_nil hr (hplain p hp) (ne_of_tracked hp (by decide)), ite_self, List.nil_append,
    if_neg hlink]
  exact ⟨rfl, rfl⟩

theorem kept (hw : madeFor vars d Record.instanceVar ≠ some w)
    (hs : (parent.bind fun _ => madeFor vars d Record.parentVar) ≠ some w) : Kept g d.graph w := by
  intro p hp
  obtain ⟨hv, he⟩ := h.trackedCells hr w hp
  refine ⟨?_, he⟩
  rw [hv, if_neg hw]
  cases parent with
  | none => rfl
  | some k =>
      rw [Option.bind_some] at hs
      simp [if_neg hs]

theorem placed (hd : Declared g) : Placed g d.graph scope typeName id (madeFor vars d Record.instanceVar) := by
  refine placed_of_var time hd h.overlay h.own (nodes_of_upsert h.holds).1 fun u hm p hp => ?_
  obtain ⟨hv, he⟩ := h.trackedCells hr u hp
  have hnew := madeFor_new h.overlay hm
  rw [hv, he, if_pos hm, values_of_not_contains g p hnew, edges_of_not_contains g p hnew]
  cases parent with
  | none => simp
  | some k => simp [if_neg (h.apart hm)]

theorem placed_parent (hd : Declared g) {k : String × String} (hk : parent = some k) :
    Placed g d.graph scope k.2 k.1 (madeFor vars d Record.parentVar) := by
  subst hk
  have hkey : ∀ w, w ∈ vars.bound Record.parentVar ↔ InstanceOf g scope k.2 k.1 w := by
    intro w
    rw [h.above]
    simp
  refine placed_of_var time hd h.overlay hkey ((nodes_of_upsert h.holds).2 rfl) fun u hm p hp => ?_
  have hi : madeFor vars d Record.instanceVar ≠ some u := fun hi => h.apart hi hm
  obtain ⟨hv, he⟩ := h.trackedCells hr u hp
  have hnew := madeFor_new h.overlay hm
  rw [hv, he, if_neg hi, values_of_not_contains g p hnew, edges_of_not_contains g p hnew]
  simp [hm]

theorem instanceOf_of_old {scope' name' id' : String} (hw : InstanceOf g scope' name' id' w) :
    InstanceOf d.graph scope' name' id' w := by
  have hold : ∀ var, madeFor vars d var ≠ some w := fun var hm => madeFor_new h.overlay hm hw.contains
  refine (instanceOf_of_kept (h.kept hr (hold _) fun hs => ?_)).2 hw
  obtain ⟨k, -, hs⟩ := Option.bind_eq_some_iff.1 hs
  exact hold _ hs

/-- Links that are new lead from what has the key of the record to what has that of its parent. -/
theorem mem_parent (hd : Declared g) {v : Uid} (hv : v ∈ d.graph.edges w Vocabulary.parent) :
    v ∈ g.edges w Vocabulary.parent ∨
      ∃ k, parent = some k ∧ InstanceOf d.graph scope typeName id w ∧ InstanceOf d.graph scope k.2 k.1 v := by
  rw [(cells_of_upsert h.holds w Vocabulary.parent).2] at hv
  split at hv
  · rename_i hlink
    obtain ⟨k, hk⟩ := Option.isSome_iff_exists.1 hlink.1
    refine (mem_of_mem_foldl_link hv).symm.imp_right fun hv => ⟨k, hk, ?_, ?_⟩
    · exact instanceOf_of_mem_nodes (h.placed hr hd) (fun u hu => h.instanceOf_of_old hr ((h.own u).1 hu)) hlink.2.1
    · refine instanceOf_of_mem_nodes (h.placed_parent hr hd hk) (fun u hu => ?_) hv
      obtain ⟨k', hk', hu⟩ := (h.above u).1 hu
      obtain rfl := Option.some.inj (hk.symm.trans hk')
      exact h.instanceOf_of_old hr hu
  · exact .inl hv

theorem recycled (w : Uid) : d.graph.values w Vocabulary.recycle = g.values w Vocabulary.recycle := by
  have hstamp : ∀ name id, stamp scope name id time Vocabulary.recycle = [] := fun _ _ => rfl
  rw [(cells_of_upsert h.holds w Vocabulary.recycle).1, recorded_eq_nil hr (by decide) (by decide)]
  cases parent <;> simp [hstamp]

theorem instanceWritten (hd : Declared g) :
    InstanceWritten g d.graph scope typeName id parent (madeFor vars d Record.instanceVar)
      (parent.bind fun _ => madeFor vars d Record.parentVar) := by
  refine ⟨fun w => h.kept hr, h.placed hr hd, ?_, fun u hu hs => ?_, fun w v => h.mem_parent hr hd, h.recycled hr⟩
  · cases parent with
    | none => rfl
    | some k => exact h.placed_parent hr hd rfl
  · obtain ⟨k, -, hs⟩ := Option.bind_eq_some_iff.1 hs
    exact h.apart hu hs

end UpsertDraft

/-- The request that writes a record with a time. -/
def upsertRequest (scope typeName : String) (parent : Option (String × String)) (r : Record) (time : String) :
    Store.Request :=
  .of (some ⟨"Upsert", [], lookups scope typeName r.identifier parent⟩)
    ([r.update time, Record.creation Record.instanceVar scope typeName r.identifier time] ++
      parent.toList.flatMap fun k => [Record.link, Record.creation Record.parentVar scope k.2 k.1 time])

theorem upsert_ok {r : Record} {parentType : Option String} {parent : Option (String × String)}
    (h : r.parent? typeName parentType = .ok parent) (now : Int) :
    r.upsert scope typeName parentType now = .ok (upsertRequest scope typeName parent r (Timestamp.render now)) := by
  rw [Record.upsert, h]
  cases parent <;> rfl

theorem request_of_upsert {r : Record} {parentType : Option String} {now : Int} {request : Store.Request}
    (h : r.upsert scope typeName parentType now = .ok request) :
    ∃ parent time, r.parent? typeName parentType = .ok parent ∧
      request = upsertRequest scope typeName parent r time := by
  obtain ⟨parent, hp, -⟩ := Outcome.bind_ok_iff.1 h
  rw [upsert_ok hp] at h
  cases h
  exact ⟨parent, Timestamp.render now, hp, rfl⟩

theorem delete_upsertRequest {r : Record} {parent : Option (String × String)} {time : String} {m : Mutation}
    (hm : m ∈ [r.update time, Record.creation Record.instanceVar scope typeName r.identifier time] ++
      parent.toList.flatMap fun k => [Record.link, Record.creation Record.parentVar scope k.2 k.1 time]) :
    m.delete = [] := by
  simp only [List.mem_append, List.mem_cons, List.not_mem_nil, or_false, List.mem_flatMap] at hm
  rcases hm with (rfl | rfl) | ⟨k, -, rfl | rfl⟩ <;> rfl

theorem draft_of_upsert {r : Record} {parent : Option (String × String)} {time : String} {receipt : Receipt}
    (hg : g.Intact) (h : execute g (upsertRequest scope typeName parent r time) = .ok (receipt, g')) :
    ∃ vars d, UpsertDraft g scope typeName r.identifier parent r time vars d ∧ g' = d.graph := by
  obtain ⟨vars, d, ha, ho, hh, -, hg'⟩ :=
    execute_set hg (fun m hm => delete_upsertRequest hm) h fun vars ha => (bound_of_lookups ha).2.2
  obtain ⟨hown, hstub, hv⟩ := bound_of_lookups ha
  rw [quadsSet_upsert] at hh
  exact ⟨vars, d, ⟨hown, hstub, hv, ho, hh⟩, hg'⟩

theorem instanceWritten_of_execute {r : Record} {parentType : Option String} {now : Int} {request : Store.Request}
    {receipt : Receipt} (hg : g.Intact) (hd : Declared g)
    (hr : ∀ f ∈ r.values, f.predicate = Vocabulary.identifier ∨ Vocabulary.isAttributePredicate f.predicate = true)
    (hreq : r.upsert scope typeName parentType now = .ok request) (h : execute g request = .ok (receipt, g')) :
    g'.Intact ∧ g'.predicates = g.predicates ∧ ∃ parent own stub, r.parent? typeName parentType = .ok parent ∧
      InstanceWritten g g' scope typeName r.identifier parent own stub := by
  obtain ⟨parent, time, hp, rfl⟩ := request_of_upsert hreq
  obtain ⟨vars, d, hdraft, rfl⟩ := draft_of_upsert hg h
  exact ⟨hdraft.overlay.intact, hdraft.overlay.predicates, parent, _, _, hp, hdraft.instanceWritten hr hd⟩

end Inventory.Repository
