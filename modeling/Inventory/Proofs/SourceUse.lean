import Inventory.Proofs.Repository.Runs

/-!
The sources of types. A source serves one type, until another is made whose source is given by the same node in other
letters or with other zeros.
-/

namespace Inventory.SourceUse

open Inventory.Graph Hierarchy Repository Vocabulary

variable {g g' : Graph} {u v w : Uid} {t : EquipmentType} {s : Store} {r : Repository} {c : Change}

/-- A type over a source. -/
structure Over (g : Graph) (w u : Uid) : Prop where
  type : g.values u metaType ≠ []
  source : w ∈ g.edges u metaSource

def Exclusive (g : Graph) : Prop := ∀ w u v, Over g w u → Over g w v → u = v

/-- A type has been made over a source that has one, under an id that reads as that of the source but is not the one
it is reported under. -/
def Respells (r : Repository) (s : Store) (c : Change) : Prop :=
  ∃ k t w u v, c = .createType k t ∧ Uid.parse? t.sourceId = some w ∧ t.sourceId ≠ w.text ∧ Over s.graph w v ∧
    ¬s.graph.contains u = true ∧ Over (c.run r s).graph w u

theorem over_of_kept (h : Kept g g' u) : Over g' w u ↔ Over g w u := by
  have htype := (h metaType (by decide)).1
  have hsource := (h metaSource (by decide)).2
  constructor
  · rintro ⟨ht, hw⟩
    rw [htype] at ht
    rw [hsource] at hw
    exact ⟨ht, hw⟩
  · rintro ⟨ht, hw⟩
    rw [← htype] at ht
    rw [← hsource] at hw
    exact ⟨ht, hw⟩

theorem Over.contains (h : Over g w u) : g.contains u = true := contains_of_mem_edges h.source

/-- A source is in one scope, and the types over it are in that scope too. -/
theorem Over.visible (hs : Coherent g) (h : Over g w u) {scopes : List String} (hw : isSourceIn g scopes w = true) :
    u ∈ visibleTypes g scopes := by
  obtain ⟨hm, x, hxw, hxu⟩ := (hs.regular u).backed w h.source
  obtain ⟨-, hin⟩ := Bool.and_eq_true_iff.1 hw
  obtain ⟨y, hy, hyw⟩ := inScopes_iff.1 hin
  rw [(hs.regular w).eq_of_scoped hm hxw, List.mem_singleton] at hyw
  obtain rfl := Json.str.inj hyw
  exact visible_of_values h.type (inScopes_iff.2 ⟨y, hy, hxu⟩)

theorem keeps (hs : Coherent s.graph) (he : Exclusive s.graph) (hn : ¬Respells r s c) :
    Exclusive (c.run r s).graph := by
  obtain ⟨hstep, -⟩ := c.step r hs
  rcases hstep.types hs with hk | ⟨k, t, x, y, parent, rfl, hc, hm⟩ |
    ⟨k, id, parentId, as, into, x, parent, rfl, -, -, -, hm⟩
  · exact fun w u v hu hv => he w u v ((over_of_kept (hk u hu.type)).1 hu) ((over_of_kept (hk v hv.type)).1 hv)
  · intro w u v hu hv
    refine eq_of_odds (fun u v => Over _ w u ∧ Over _ w v) x (fun u v h => ⟨h.2, h.1⟩) ?_ ?_ ⟨hu, hv⟩
    · rintro u v hux hvx ⟨hu, hv⟩
      exact he w u v ((over_of_kept (hm.others u hux)).1 hu) ((over_of_kept (hm.others v hvx)).1 hv)
    · rintro v hvx ⟨hnew, hv⟩
      have hold := (over_of_kept (hm.others v hvx)).1 hv
      obtain rfl := (hm.source w).1 hnew.source
      -- ids are compared as texts, and only the text of the node itself is known to differ
      have hid := hc.sources v (hold.visible hs hc.placed) w hold.source
      exact hn ⟨k, t, w, x, v, rfl, hc.source, hid.symm, hold, hm.new, hnew⟩
  · have hold : ∀ w u, Over ((Change.updateType k id parentId as into).run r s).graph w u → Over s.graph w u := by
      intro w u hu
      by_cases hux : u = x
      · subst hux
        obtain ⟨ht, hw⟩ := hu
        rw [hm.values metaType (by decide) (by decide)] at ht
        rw [hm.edges metaSource (by decide) (by decide)] at hw
        exact ⟨ht, hw⟩
      · exact (over_of_kept (hm.others u hux)).1 hu
    exact fun w u v hu hv => he w u v (hold w u hu) (hold w v hv)

theorem breaks (hs : Coherent s.graph) (hb : Respells r s c) : ¬Exclusive (c.run r s).graph := by
  obtain ⟨k, t, w, u, v, rfl, -, -, hv, hu, hwu⟩ := hb
  intro he
  have hne : u ≠ v := by
    rintro rfl
    exact hu hv.contains
  cases (Change.step r (.createType k t) hs).1 with
  | kept _ _ h => exact hu ((over_of_kept (h.kept u)).1 hwu).contains
  | made _ _ x _ _ _ _ h =>
      have hvx : v ≠ x := by
        rintro rfl
        exact h.new hv.contains
      exact hne (he w u v hwu ((over_of_kept (h.others v hvx)).2 hv))

/-- Sources serve one type each all along a run exactly if no type is made over a used source under another
spelling of its id. -/
theorem exclusive_iff (r : Repository) (refusals : Refusals) (cs : List Change) :
    (∀ pre, pre <+: cs → Exclusive (after r (bootstrapped refusals) pre).graph) ↔
      ∀ pre c, pre ++ [c] <+: cs → ¬Respells r (after r (bootstrapped refusals) pre) c := by
  have hs := coherent_bootstrapped refusals
  have start : Exclusive (bootstrapped refusals).graph :=
    fun w u v hu => absurd (idle_bootstrapped refusals u metaType (by decide)).1 hu.type
  exact forall_prefix_iff hs start (fun s c hs he hn => keeps hs he hn) (fun s c hs _ hb => breaks hs hb) cs

/-- One source, named `0x1` by the first type and `0x01` by the second. -/
def respelled : List Change :=
  [.upsertSource ((MetadataSource.equipment "a" "s1").withColumns ["id", "up"]),
    .createType ⟨0⟩ (((EquipmentType.new "server" "0x1").withScope "s1").withAttribute (.identifier "key" "id")),
    .createType ⟨0⟩ (((EquipmentType.new "cluster" "0x01").withScope "s1").withAttribute (.identifier "key" "id"))]

set_option maxRecDepth 100000 in
theorem sources_respelled : ([⟨2⟩, ⟨4⟩] : List Uid).map (fun u =>
    ((after ⟨0, .standard⟩ (bootstrapped .none) respelled).graph.values u metaType,
      ((after ⟨0, .standard⟩ (bootstrapped .none) respelled).graph.edges u metaSource).items)) =
    [([.str "server"], [⟨1⟩]), ([.str "cluster"], [⟨1⟩])] := by
  decide +kernel

theorem not_exclusive_respelled : ¬Exclusive (after ⟨0, .standard⟩ (bootstrapped .none) respelled).graph := by
  have h := sources_respelled
  generalize (after ⟨0, .standard⟩ (bootstrapped .none) respelled).graph = g at h ⊢
  simp only [List.map_cons, List.map_nil, List.cons.injEq, Prod.mk.injEq, and_true] at h
  obtain ⟨⟨hm, hs⟩, hn, ht⟩ := h
  intro he
  have h24 := he ⟨1⟩ ⟨2⟩ ⟨4⟩ ⟨by simp [hm], by simp [OrderedSet.mem_def, hs]⟩
    ⟨by simp [hn], by simp [OrderedSet.mem_def, ht]⟩
  cases h24

end Inventory.SourceUse
