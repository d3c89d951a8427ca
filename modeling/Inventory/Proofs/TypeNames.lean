import Inventory.Proofs.Repository.Runs

/-!
The names of types. No scope has two types of one name, whatever the case of its letters, until an update brings a
type into a scope that has its name already.
-/

namespace Inventory.TypeNames

open Inventory.Graph Hierarchy Repository Vocabulary Text.LetterCase

variable {g g' : Graph} {u v : Uid} {scope name m n : String} {s : Store} {r : Repository} {c : Change}

/-- A type of a name, in a scope. -/
structure Named (g : Graph) (scope name : String) (u : Uid) : Prop where
  name : .str name ∈ g.values u metaType
  scope : .str scope ∈ g.values u scopes

def Apart (g : Graph) : Prop :=
  ∀ scope m n u v, Named g scope m u → Named g scope n v → sameLetters m n = true → u = v

/-- A type has been brought into a scope in which another type has its name. -/
def Collides (r : Repository) (s : Store) (c : Change) : Prop :=
  ∃ k id parentId attributes into u v scope m n, c = .updateType k id parentId attributes into ∧
    Uid.parse? id = some u ∧ scope ∈ into ∧ .str scope ∈ (c.run r s).graph.values u scopes ∧
      .str m ∈ s.graph.values u metaType ∧ Named s.graph scope n v ∧ u ≠ v ∧ sameLetters m n = true

theorem named_of_kept (h : Kept g g' u) : Named g' scope name u ↔ Named g scope name u := by
  have hname := (h metaType (by decide)).1
  have hscope := (h scopes (by decide)).1
  constructor
  · rintro ⟨hn, hs⟩
    rw [hname] at hn
    rw [hscope] at hs
    exact ⟨hn, hs⟩
  · rintro ⟨hn, hs⟩
    rw [← hname] at hn
    rw [← hscope] at hs
    exact ⟨hn, hs⟩

theorem Named.visible {scopes : List String} (h : Named g scope name u) (hs : scope ∈ scopes) :
    u ∈ visibleTypes g scopes :=
  visible_of_values (List.ne_nil_of_mem h.name) (inScopes_iff.2 ⟨scope, hs, h.scope⟩)

/-- With one type changed, its name has only to be compared with those of the others. -/
theorem apart_of_others {x : Uid} (ha : Apart g) (ho : ∀ w, w ≠ x → Kept g g' w)
    (hx : ∀ scope m n v, v ≠ x → Named g' scope m x → Named g scope n v → sameLetters m n = false) : Apart g' := by
  intro scope m n u v hu hv hmn
  refine eq_of_odds (fun u v => ∃ m n, Named g' scope m u ∧ Named g' scope n v ∧ sameLetters m n = true) x ?_ ?_ ?_
    ⟨m, n, hu, hv, hmn⟩
  · rintro u v ⟨m, n, hu, hv, hmn⟩
    exact ⟨n, m, hv, hu, by rwa [sameLetters_comm]⟩
  · rintro u v hux hvx ⟨m, n, hu, hv, hmn⟩
    exact ha scope m n u v ((named_of_kept (ho u hux)).1 hu) ((named_of_kept (ho v hvx)).1 hv) hmn
  · rintro v hvx ⟨m, n, hm, hn, hmn⟩
    rw [hx scope m n v hvx hm ((named_of_kept (ho v hvx)).1 hn)] at hmn
    cases hmn

theorem keeps (hs : Coherent s.graph) (ha : Apart s.graph) (hn : ¬Collides r s c) : Apart (c.run r s).graph := by
  obtain ⟨hstep, -⟩ := c.step r hs
  rcases hstep.types hs with hk | ⟨k, t, x, w, parent, rfl, hc, hm⟩ |
    ⟨k, id, parentId, as, into, x, parent, rfl, hx, -, -, hm⟩
  · intro scope m n u v hu hv
    have hu' := (named_of_kept (hk u (List.ne_nil_of_mem hu.name))).1 hu
    have hv' := (named_of_kept (hk v (List.ne_nil_of_mem hv.name))).1 hv
    exact ha scope m n u v hu' hv'
  · refine apart_of_others ha hm.others fun scope m n v _ hnew hv => ?_
    have hname := hnew.name
    rw [hm.name, List.mem_singleton] at hname
    obtain rfl := Json.str.inj hname
    rw [sameLetters_comm]
    exact hc.names v (hv.visible ((hm.scopes scope).1 hnew.scope)) n hv.name
  · refine apart_of_others ha hm.others fun scope m n v hne hmoved hv => ?_
    have hname := hmoved.name
    rw [hm.values metaType (by decide) (by decide)] at hname
    refine Bool.eq_false_iff.2 fun hmn => ?_
    rcases (hm.scopes scope).1 hmoved.scope with hinto | hold
    · exact hn ⟨k, id, parentId, as, into, x, v, scope, m, n, rfl, hx, hinto, hmoved.scope, hname, hv, hne.symm, hmn⟩
    · exact hne (ha scope m n x v ⟨hname, hold⟩ hv hmn).symm

theorem breaks (hs : Coherent s.graph) (hb : Collides r s c) : ¬Apart (c.run r s).graph := by
  obtain ⟨k, id, parentId, as, into, u, v, scope, m, n, rfl, hu, -, hscope, hm, hv, hne, hmn⟩ := hb
  intro ha
  cases (Change.step r (.updateType k id parentId as into) hs).1 with
  | kept _ _ h =>
      rw [← (h.kept u metaType (by decide)).1] at hm
      exact hne (ha scope m n u v ⟨hm, hscope⟩ ((named_of_kept (h.kept v)).2 hv) hmn)
  | changed _ _ _ _ _ x _ _ hx _ _ h =>
      obtain rfl := Option.some.inj (hu.symm.trans hx)
      rw [← h.values metaType (by decide) (by decide)] at hm
      exact hne (ha scope m n u v ⟨hm, hscope⟩ ((named_of_kept (h.others v hne.symm)).2 hv) hmn)

/-- Names are apart all along a run exactly if no update brings a type into a scope that has its name. -/
theorem apart_iff (r : Repository) (refusals : Refusals) (cs : List Change) :
    (∀ pre, pre <+: cs → Apart (after r (bootstrapped refusals) pre).graph) ↔
      ∀ pre c, pre ++ [c] <+: cs → ¬Collides r (after r (bootstrapped refusals) pre) c := by
  have hs := coherent_bootstrapped refusals
  have start : Apart (bootstrapped refusals).graph := by
    intro scope m n u v hu
    have hm := hu.name
    rw [(idle_bootstrapped refusals u metaType (by decide)).1] at hm
    cases hm
  exact forall_prefix_iff hs start (fun s c hs ha hn => keeps hs ha hn) (fun s c hs _ hb => breaks hs hb) cs

/-- `server` and `Server` in scopes of their own, and an update that brings the one into the scope of the other. -/
def sharedScope : List Change :=
  [.upsertSource ((MetadataSource.equipment "a" "s1").withColumns ["id", "up"]),
    .upsertSource ((MetadataSource.equipment "b" "s2").withColumns ["id", "up"]),
    .createType ⟨0⟩ (((EquipmentType.new "server" "0x1").withScope "s1").withAttribute (.identifier "key" "id")),
    .createType ⟨0⟩ (((EquipmentType.new "Server" "0x2").withScope "s2").withAttribute (.identifier "key" "id")),
    .updateType ⟨0⟩ "0x3" none [] ["s1", "s2"]]

set_option maxRecDepth 100000 in
theorem names_sharedScope : ([⟨3⟩, ⟨5⟩] : List Uid).map (fun u =>
    ((after ⟨0, .standard⟩ (bootstrapped .none) sharedScope).graph.values u metaType,
      (after ⟨0, .standard⟩ (bootstrapped .none) sharedScope).graph.values u scopes)) =
    [([.str "server"], [.str "s1", .str "s2"]), ([.str "Server"], [.str "s2"])] := by
  decide +kernel

theorem not_apart_sharedScope : ¬Apart (after ⟨0, .standard⟩ (bootstrapped .none) sharedScope).graph := by
  have h := names_sharedScope
  generalize (after ⟨0, .standard⟩ (bootstrapped .none) sharedScope).graph = g at h ⊢
  simp only [List.map_cons, List.map_nil, List.cons.injEq, Prod.mk.injEq, and_true] at h
  obtain ⟨⟨hm, hms⟩, hn, hns⟩ := h
  intro ha
  have he := ha "s2" "server" "Server" ⟨3⟩ ⟨5⟩ ⟨by simp [hm], by simp [hms]⟩ ⟨by simp [hn], by simp [hns]⟩ (by decide)
  cases he

end Inventory.TypeNames
