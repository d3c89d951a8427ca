import Inventory.Proofs.Relinking
import Inventory.Proofs.Repository.Runs

/-!
The parents of types. A type has at most one, and it is above itself only once an update has put it below one of its
own descendants, out of sight of the search that should have found it.
-/

namespace Inventory.ParentForest

open Inventory.Graph Hierarchy Repository Vocabulary Relation Relinking

variable {g g' : Graph} {u v p : Uid} {scopes : List String} {s : Store} {r : Repository} {c : Change}

def Under (g : Graph) (u p : Uid) : Prop := p ∈ g.edges u metaParent

/-- A type that parent edges lead from to another. -/
abbrev Below (g : Graph) : Uid → Uid → Prop := TransGen (Under g)

/-- A type that parent edges lead from to another, by types that are in some of the scopes. -/
abbrev Shown (g : Graph) (scopes : List String) : Uid → Uid → Prop :=
  TransGen fun u p => g.inScopes scopes u = true ∧ Under g u p

structure Forest (g : Graph) : Prop where
  oneParent : ∀ u p q, Under g u p → Under g u q → p = q
  acyclic : ∀ u, ¬Below g u u

/-- A type has been put below one of its own descendants, which a search in the scopes given does not find: some type
on every way is in none of them, or there are too many types to count them. -/
def Hides (r : Repository) (s : Store) (c : Change) : Prop :=
  ∃ k id parentId attributes scopes u p, c = .updateType k id (some parentId) attributes scopes ∧
    Uid.parse? id = some u ∧ Uid.parse? parentId = some p ∧ Under (c.run r s).graph u p ∧ Below s.graph p u ∧
      (¬Shown s.graph scopes p u ∨ 1 <<< 32 ≤ (visibleTypes s.graph scopes).length)

/-- A search that no child leaves finds every descendant that is shown. -/
theorem mem_of_shown {below : List Uid} (hg : g.Intact) (hc : ClosedBelow g scopes u below) (h : Shown g scopes v u) :
    v = u ∨ v ∈ below := by
  have hstep : ∀ x y, g.inScopes scopes x = true ∧ Under g x y → y = u ∨ y ∈ below → x = u ∨ x ∈ below := by
    rintro x y ⟨hin, hx⟩ hy
    refine hc y hy x (List.mem_filter.2 ⟨?_, hin⟩)
    exact (hg.mirrored x metaParent y).1 hx
  induction h using TransGen.head_induction_on with
  | single hab => exact hstep _ _ hab (.inl rfl)
  | head hab _ ih => exact hstep _ _ hab ih

theorem acyclic_of_new (hin : ∀ w, ¬Under g' w u) (hout : ∀ w p, w ≠ u → Under g' w p → Under g w p)
    (hg : ∀ w, ¬Below g w w) (w : Uid) : ¬Below g' w w := by
  have hto : ∀ {a b}, Below g' a b → b ≠ u := by
    intro a b hab
    induction hab with
    | single h =>
        rintro rfl
        exact hin _ h
    | tail _ h _ =>
        rintro rfl
        exact hin _ h
  have hold : ∀ {a b}, a ≠ u → Below g' a b → Below g a b := by
    intro a b ha hab
    induction hab with
    | single h => exact .single (hout _ _ ha h)
    | tail hab h ih => exact ih.tail (hout _ _ (hto hab) h)
  exact fun hw => hg w (hold (hto hw) hw)

theorem under_of_kept (h : Kept g g' u) : Under g' u p ↔ Under g u p := by
  rw [Under, Under, (h metaParent (by decide)).2]

theorem oneParent_of_coherent (hs : Coherent g) : ∀ u p q, Under g u p → Under g u q → p = q :=
  fun u p q hp hq => (hs.regular u).oneParent p hp q hq

theorem acyclic_of_made {name : String} {w : Uid} {parent : Option Uid} (hg : g.Intact)
    (hm : TypeMade g g' u name w parent scopes) (hp : ∀ p, parent = some p → g.contains p = true)
    (ha : ∀ v, ¬Below g v v) (v : Uid) : ¬Below g' v v := by
  have hout : ∀ v p, v ≠ u → Under g' v p → Under g v p := fun v p hv h => (under_of_kept (hm.others v hv)).1 h
  refine acyclic_of_new (fun v h => ?_) hout ha v
  by_cases hv : v = u
  · subst hv
    exact hm.new (hp v ((hm.parent v).1 h))
  · exact hm.new (hg.closed _ _ _ (hout v u hv h))

/-- A new parent closes a cycle only if it was below its new child. -/
theorem acyclic_of_changed {parent : Option Uid} (hm : TypeChanged g g' u parent scopes)
    (hp : ∀ p, parent = some p → p ≠ u ∧ ¬Below g p u) (ha : ∀ v, ¬Below g v v) (v : Uid) : ¬Below g' v v := by
  have hout : ∀ v p, v ≠ u → Under g' v p → Under g v p := fun v p hv h => (under_of_kept (hm.others v hv)).1 h
  cases parent with
  | none =>
      refine acyclic_mono (fun v p h => ?_) ha v
      by_cases hv : v = u
      · subst hv
        rcases (hm.parent p).1 h with h | ⟨-, h⟩
        · cases h
        · exact h
      · exact hout v p hv h
  | some p =>
      obtain ⟨hne, hbelow⟩ := hp p rfl
      have hup : ∀ q, Under g' u q → q = p := by
        intro q h
        rcases (hm.parent q).1 h with h | ⟨h, -⟩
        · exact (Option.some.inj h).symm
        · cases h
      exact acyclic_of_moved hup hout hne hbelow ha v

theorem keeps (hs : Coherent s.graph) (hf : Forest s.graph) (hn : ¬Hides r s c) : Forest (c.run r s).graph := by
  obtain ⟨hstep, hs'⟩ := c.step r hs
  refine ⟨oneParent_of_coherent hs', ?_⟩
  rcases hstep.types hs with hk | ⟨k, t, u, w, parent, rfl, hc, hm⟩ |
    ⟨k, id, parentId, as, scopes, u, parent, rfl, hu, hv, hp, hm⟩
  · refine acyclic_mono (fun u p h => ?_) hf.acyclic
    exact (under_of_kept (hk u ((hs'.regular u).typed p h))).1 h
  · exact acyclic_of_made hs.intact hm (fun p hp => (mem_visibleTypes.1 (hc.parent p hp)).1) hf.acyclic
  · refine acyclic_of_changed hm (fun p hparent => ?_) hf.acyclic
    obtain ⟨hadmitted, text, rfl, hparse⟩ := hp p hparent
    refine ⟨hadmitted.ne, fun hbelow => hn ?_⟩
    -- a search with room enough finds what is shown, so the new parent is below by hidden types only
    refine ⟨k, id, text, as, scopes, u, p, rfl, hu, hparse, (hm.parent p).2 (.inl hparent), hbelow, ?_⟩
    by_cases hfew : (visibleTypes s.graph scopes).length < 1 <<< 32
    · obtain ⟨below, hclosed, hmem⟩ := hadmitted.apart hfew
      refine .inl fun hshown => ?_
      rcases mem_of_shown hs.intact hclosed hshown with h | h
      · exact hadmitted.ne h
      · exact hmem h
    · exact .inr (Nat.le_of_not_lt hfew)

theorem breaks (hs : Coherent s.graph) (hb : Hides r s c) : ¬Forest (c.run r s).graph := by
  obtain ⟨k, id, parentId, as, scopes, u, p, rfl, hu, hp, hup, hbelow, -⟩ := hb
  intro hf'
  have hout : ∀ w q, w ≠ u → Under s.graph w q →
      Under ((Change.updateType k id (some parentId) as scopes).run r s).graph w q := by
    intro w q hw h
    cases (Change.step r (.updateType k id (some parentId) as scopes) hs).1 with
    | kept _ _ h' => exact (under_of_kept (h'.kept w)).2 h
    | changed _ _ _ _ _ v _ _ hv _ _ hm =>
        obtain rfl := Option.some.inj (hu.symm.trans hv)
        exact (under_of_kept (hm.others w hw)).2 h
  rcases way_kept hout hbelow with rfl | h
  · exact hf'.acyclic _ (.single hup)
  · exact hf'.acyclic u (.head hup h)

/-- Every type has at most one parent all along a run. The parents form a forest all along it exactly if no update
puts a type below a descendant that its search does not find. -/
theorem forest_iff (r : Repository) (refusals : Refusals) (cs : List Change) :
    (∀ pre, pre <+: cs → ∀ u p q, Under (after r (bootstrapped refusals) pre).graph u p →
      Under (after r (bootstrapped refusals) pre).graph u q → p = q) ∧
    ((∀ pre, pre <+: cs → Forest (after r (bootstrapped refusals) pre).graph) ↔
      ∀ pre c, pre ++ [c] <+: cs → ¬Hides r (after r (bootstrapped refusals) pre) c) := by
  have hs := coherent_bootstrapped refusals
  have start : Forest (bootstrapped refusals).graph := by
    refine ⟨oneParent_of_coherent hs, fun u h => ?_⟩
    obtain ⟨p, hp, -⟩ := TransGen.head'_iff.1 h
    rw [Under, (idle_bootstrapped refusals u metaParent (by decide)).2] at hp
    exact OrderedSet.not_mem_empty hp
  refine ⟨fun pre _ => oneParent_of_coherent (coherent_after hs pre), ?_⟩
  exact forall_prefix_iff hs start (fun s c hs hf hn => keeps hs hf hn) (fun s c hs _ hb => breaks hs hb) cs

/-- Three types over one another in the scope `s2`. The first and the last are in `s1` too, the one between is not. -/
def hiddenTypes : List Change :=
  [.upsertSource ((MetadataSource.equipment "a" "s2").withColumns ["id", "up"]),
    .upsertSource ((MetadataSource.equipment "b" "s2").withColumns ["id", "up"]),
    .upsertSource ((MetadataSource.equipment "c" "s2").withColumns ["id", "up"]),
    .createType ⟨0⟩ ((((EquipmentType.new "a" "0x1").withScope "s1").withScope "s2").withAttribute
      (.identifier "key" "id")),
    .createType ⟨0⟩ ((((EquipmentType.new "b" "0x2").withScope "s2").withParent "0x4").withAttribute
      (.identifier "key" "id") |>.withAttribute (.parentIdentifier "up" "up"))]

/-- The first is put below the last by an update in `s1`. -/
def hiddenCycle : List Change :=
  hiddenTypes ++
    [.createType ⟨0⟩ (((((EquipmentType.new "c" "0x3").withScope "s1").withScope "s2").withParent "0x6").withAttribute
      (.identifier "key" "id") |>.withAttribute (.parentIdentifier "up" "up")),
    .updateType ⟨0⟩ "0x4" (some "0x9") [.parentIdentifier "up" "up"] ["s1"]]

set_option maxRecDepth 100000 in
theorem edges_hiddenCycle : ([⟨4⟩, ⟨9⟩, ⟨6⟩] : List Uid).map (fun u =>
    ((after ⟨0, .standard⟩ (bootstrapped .none) hiddenCycle).graph.edges u metaParent).items) =
      [[⟨9⟩], [⟨6⟩], [⟨4⟩]] := by
  unfold hiddenCycle
  simp only [after, List.foldl_append, List.foldl_cons, List.foldl_nil, Change.run]
  unfold createType updateType admitParent descendantIds typeChildren Repository.types loadTypes Repository.read step
    Store.query evaluate
  simp only [evalBlocks, evalBlock, blockNodes_eq_sortedPairs, typeTraversal, blocks]
  decide +kernel

theorem not_forest_hiddenCycle : ¬Forest (after ⟨0, .standard⟩ (bootstrapped .none) hiddenCycle).graph := by
  have h := edges_hiddenCycle
  generalize (after ⟨0, .standard⟩ (bootstrapped .none) hiddenCycle).graph = g at h ⊢
  simp only [List.map_cons, List.map_nil, List.cons.injEq, and_true] at h
  obtain ⟨h4, h9, h6⟩ := h
  have hu : ∀ {u p : Uid}, (g.edges u metaParent).items = [p] → Under g u p := fun he => by
    simp [Under, OrderedSet.mem_def, he]
  exact fun hf => hf.acyclic ⟨4⟩ (.head (hu h4) (.head (hu h9) (.single (hu h6))))

end Inventory.ParentForest
