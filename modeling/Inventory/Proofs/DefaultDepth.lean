import Inventory.Proofs.InstanceHierarchy
import Inventory.Proofs.InstanceLinks
import Inventory.Proofs.Repository.Definitions
import Inventory.Proofs.Repository.TypeReads

/-!
The hierarchy of an instance, if no depth is given. It is followed for as many hops as there are types in the scopes,
and a chain of instances is no longer than that, unless the names of types and of their parents lead round in a circle.
-/

namespace Inventory.DefaultDepth

open Inventory.Graph Hierarchy Store Repository Vocabulary TypeNames InstanceLinks
open BatchDeletion (single conflicts)
open InstanceHierarchy (Adjacent Qualifies Reached Reports)

variable {g g' : Graph} {u v x y : Uid} {scope name above : String} {scopes : List String} {direction : Direction}
  {n : Nat} {s s' : Store} {r : Repository} {c : Change} {cs : List Change} {refusals : Refusals}

/-- An instance whose parent is an instance of the type above its own, in its scope, or has been deleted. -/
def Hung (g : Graph) (x y : Uid) : Prop :=
  ∃ scope name above, Housed g scope name x ∧ Ranked g scope name above ∧ (Housed g scope above y ∨ Idle g y)

/-- No name of a type in a scope leads back to itself by the names of parents. -/
def Unlooped (g : Graph) (scope : String) : Prop := ∀ name, ¬Relation.TransGen (Ranked g scope) name name

/-- The hierarchy of an anchor is reported with all that any number of hops within the scopes lead to. -/
structure ReportsAll (g : Graph) (direction : Direction) (scopes : List String) (anchor : Uid)
    (r : Except Failure Page) : Prop where
  notFound : (∃ what, r = .error (.notFound what)) ↔ ¬Qualifies g scopes anchor
  noData : (∃ what, r = .error (.noData what)) ↔
    Qualifies g scopes anchor ∧ ∀ depth v, ¬Reached g direction scopes depth anchor v
  page : Qualifies g scopes anchor → (∃ depth v, Reached g direction scopes depth anchor v) →
    ∃ us : List Uid, us.Nodup ∧ (∀ v, v ∈ us ↔ ∃ depth, Reached g direction scopes depth anchor v) ∧
      us.Pairwise (Precedes g identifier) ∧ r = .ok ⟨us.length, us.map (InstanceHierarchy.reachedRow g)⟩

section Hung

theorem kept_or_idle_of_purged (h : InstancesPurged g g') (u : Uid) :
    Kept g g' u ∨ Idle g' u ∧ ∀ p, g'.edges u p = .empty := by
  induction h with
  | refl => exact .inl fun _ _ => ⟨rfl, rfl⟩
  | tail _ hstep ih =>
      obtain ⟨us, -, hc⟩ := hstep
      by_cases hu : u ∈ us
      · refine .inr ⟨idle_of_cleared hc hu, fun p => ?_⟩
        rw [hc.edges, if_pos hu]
      · have hk := kept_of_cleared hc hu
        refine ih.imp (fun ih => ih.trans hk) fun ⟨hidle, hedges⟩ => ⟨fun p hp => ?_, fun p => ?_⟩
        · rw [(hk p hp).1, (hk p hp).2]
          exact hidle p hp
        · rw [hc.edges, if_neg hu]
          exact hedges p

theorem idle_of_step (hs : Coherent s.graph) (h : Step r s c s') (hc : s.graph.contains u = true)
    (hu : Idle s.graph u) : Idle s'.graph u := by
  have hkept : Kept s.graph s'.graph u → Idle s'.graph u := by
    intro hk p hp
    rw [(hk p hp).1, (hk p hp).2]
    exact hu p hp
  rcases h.instance_kept_or_purged hs hc (.inr hu) with hk | ⟨-, -, -, -, hp⟩
  · exact hkept hk
  · exact (kept_or_idle_of_purged hp u).elim hkept And.left

theorem housed_or_idle_of_step (hs : Coherent s.graph) (h : Step r s c s') (hu : Housed s.graph scope name u) :
    Housed s'.graph scope name u ∨ Idle s'.graph u ∧ ∀ p, s'.graph.edges u p = .empty := by
  rcases h.instance_kept_or_purged hs (contains_of_mem_values hu.marked) (.inl hu.marked) with
    hk | ⟨-, -, -, -, hp⟩
  · exact .inl (hu.of_step h hk)
  · exact (kept_or_idle_of_purged hp u).imp_left (hu.of_step h)

/-- With nothing out of sight, every link is to the parent of an instance. -/
theorem hung_of_step (hs : Coherent s.graph) (hg : Sound s.graph) (hn : ¬Strays r s c)
    (hsize : s.graph.size < 1 <<< 64) (h : ∀ x y, y ∈ s.graph.edges x parent → Hung s.graph x y)
    (hy : y ∈ (c.run r s).graph.edges x parent) : Hung (c.run r s).graph x y := by
  have hstep := (c.step r hs).1
  have hg' := sound_of_step hs hg hn hsize
  rcases link_of_step hs hg hstep hy with hold | ⟨scope, name, above, hx, hrank, hy⟩
  · obtain ⟨scope, name, above, hx, hrank, hy'⟩ := h x y hold
    rcases housed_or_idle_of_step hs hstep hx with hx' | ⟨-, hnone⟩
    · refine ⟨scope, name, above, hx', ranked_of_step hs hn hsize hx.instanceIn hrank, ?_⟩
      rcases hy' with hy' | hidle
      · exact (housed_or_idle_of_step hs hstep hy').imp_right And.left
      · exact .inr (idle_of_step hs hstep (hs.intact.closed x parent y hold) hidle)
    · rw [hnone] at hy
      exact absurd hy OrderedSet.not_mem_empty
  · exact ⟨scope, name, above, housed_of_instanceIn hg' hx, hrank, .inl (housed_of_instanceIn hg' hy)⟩

theorem hung_after (hc : Coherent s.graph) (hg : Sound s.graph) (hlinks : ∀ x y, y ∉ s.graph.edges x parent)
    (hsize : ∀ pre, pre <+: cs → (after r s pre).graph.size < 1 <<< 64)
    (hn : ∀ pre c, pre ++ [c] <+: cs → ¬Strays r (after r s pre) c) :
    ∀ x y, y ∈ (after r s cs).graph.edges x parent → Hung (after r s cs).graph x y := by
  induction cs using List.reverseRecOn with
  | nil => exact fun x y hy => absurd hy (hlinks x y)
  | append_singleton cs c ih =>
      have hle := List.prefix_append cs [c]
      have hsize' := fun pre (hpre : pre <+: cs) => hsize pre (hpre.trans hle)
      have hn' := fun pre c (hpre : pre ++ [c] <+: cs) => hn pre c (hpre.trans hle)
      rw [after_concat]
      exact fun x y hy => hung_of_step (coherent_after hc cs) (sound_after hc hg hsize' hn')
        (hn cs c List.prefix_rfl) (hsize cs hle) (ih hsize' hn') hy

end Hung

section Chains

variable (hg : Coherent g) (hh : ∀ x y, y ∈ g.edges x parent → Hung g x y)

theorem not_inScope_of_idle (h : Idle g u) : ¬InScope g scopes u := by
  rintro ⟨scope, -, hs⟩
  rw [(h Vocabulary.scopes (by decide)).1] at hs
  cases hs

theorem Housed.unique {scope' name' : String} (h : Housed g scope name u) (h' : Housed g scope' name' u) :
    scope' = scope ∧ name' = name := by
  have hs := h.scope.symm.trans h'.scope
  have hn := h.type.symm.trans h'.type
  simp only [List.cons.injEq, Json.str.injEq, and_true] at hs hn
  exact ⟨hs.symm, hn.symm⟩

include hh

/-- One hop up from an instance leads to an instance of the type above, in the same scope. -/
theorem ranked_of_hop (hx : Housed g scope name x) (hy : Adjacent g .ancestors x y) (hs : InScope g scopes y) :
    ∃ above, Ranked g scope name above ∧ Housed g scope above y := by
  obtain ⟨scope', name', above, hx', hrank, hy⟩ := hh x y hy
  obtain ⟨rfl, rfl⟩ := Housed.unique hx hx'
  exact ⟨above, hrank, hy.resolve_right fun hidle => not_inScope_of_idle hidle hs⟩

theorem housed_of_hops (h : Hops (fun u w => Adjacent g .ancestors u w ∧ InScope g scopes w) n x y)
    (hx : Housed g scope name x) : ∃ above, Housed g scope above y := by
  induction h generalizing name with
  | none x => exact ⟨name, hx⟩
  | more h _ ih =>
      obtain ⟨above, -, hv⟩ := ranked_of_hop hh hx h.1 h.2
      exact ih hv

include hg

/-- The instances on a chain are of as many types, each above those before it. -/
theorem types_of_hops (hu : Unlooped g scope)
    (h : Hops (fun u w => Adjacent g .ancestors u w ∧ InScope g scopes w) n x y) (hx : Housed g scope name x) :
    ∃ ts : List Uid, ts.length = n ∧ ts.Nodup ∧
      ∀ t ∈ ts, ∃ m, Named g scope m t ∧ Relation.ReflTransGen (Ranked g scope) name m := by
  induction h generalizing name with
  | none x => exact ⟨[], rfl, .nil, by simp⟩
  | more h _ ih =>
      obtain ⟨above, hrank, hv⟩ := ranked_of_hop hh hx h.1 h.2
      obtain ⟨ts, hlength, hnodup, hts⟩ := ih hv
      obtain ⟨t, p, ht, hp, hname⟩ := hrank
      have hrank : Ranked g scope name above := ⟨t, p, ht, hp, hname⟩
      refine ⟨t :: ts, by simp [hlength], List.nodup_cons.2 ⟨fun hmem => ?_, hnodup⟩, ?_⟩
      -- were the type met again further up, its name would lead back to itself
      · obtain ⟨m, hm, hreach⟩ := hts t hmem
        obtain rfl := (hg.regular t).name_unique ht.name hm.name
        exact hu name (.head' hrank hreach)
      · refine List.forall_mem_cons.2 ⟨⟨name, ht, .refl⟩, fun t' ht' => ?_⟩
        obtain ⟨m, hm, hreach⟩ := hts t' ht'
        exact ⟨m, hm, .head hrank hreach⟩

/-- A chain of instances has no more hops than there are types in its scope. -/
theorem hops_le (hu : Unlooped g scope)
    (h : Hops (fun u w => Adjacent g .ancestors u w ∧ InScope g scopes w) n x y) (hx : Housed g scope name x)
    (hs : scope ∈ scopes) : n ≤ (visibleTypes g scopes).length := by
  obtain ⟨ts, rfl, hnodup, hts⟩ := types_of_hops hg hh hu h hx
  refine (hnodup.subperm fun t ht => ?_).length_le
  obtain ⟨m, hm, -⟩ := hts t ht
  exact visible_of_values (List.ne_nil_of_mem hm.name) (inScopes_iff.2 ⟨scope, hs, hm.scope⟩)

theorem hops_le_of_qualifies (hsound : Sound g) (hq : Qualifies g scopes x)
    (hu : ∀ scope, .str scope ∈ g.values x Vocabulary.scopes → Unlooped g scope)
    (h : Hops (fun u w => Adjacent g direction u w ∧ InScope g scopes w) n x y) :
    n ≤ (visibleTypes g scopes).length := by
  obtain ⟨-, hmark, hin⟩ := hq
  obtain ⟨scope, name, hx⟩ := hsound.housed x hmark
  obtain ⟨scope', hs, hmem⟩ := hin
  obtain rfl : scope' = scope := by
    rw [hx.scope, List.mem_singleton] at hmem
    exact Json.str.inj hmem
  have hu := hu scope' hmem
  cases direction with
  | ancestors => exact hops_le hg hh hu h hx hs
  | descendants =>
      have hback : Hops (fun u w => Adjacent g .ancestors u w ∧ InScope g scopes w) n y x :=
        h.reverse (p := InScope g scopes) (fun u v hu huv => ⟨huv.2, huv.1, hu⟩) ⟨scope', hs, hmem⟩
      -- whatever is below an instance is one itself, in the same scope
      cases hback with
      | none => exact Nat.zero_le _
      | more hfirst hrest =>
          obtain ⟨scope, name', above, hy, -⟩ := hh y _ hfirst.1
          obtain ⟨above, hx'⟩ := housed_of_hops hh (.more hfirst hrest) hy
          obtain ⟨rfl, -⟩ := Housed.unique hx hx'
          exact hops_le hg hh hu (.more hfirst hrest) hy hs

theorem reached_of_le {depth : Nat} (hsound : Sound g) (hq : Qualifies g scopes x)
    (hu : ∀ scope, .str scope ∈ g.values x Vocabulary.scopes → Unlooped g scope)
    (hd : (visibleTypes g scopes).length ≤ depth) :
    Reached g direction scopes depth x y ↔ ∃ depth, Reached g direction scopes depth x y := by
  refine ⟨fun h => ⟨depth, h⟩, ?_⟩
  rintro ⟨-, hne, n, hpos, -, h⟩
  exact ⟨hne, n, hpos, (hops_le_of_qualifies hg hh hsound hq hu h).trans hd, h⟩

end Chains

section Hierarchy

theorem reportsAll_of_reports {depth : Nat} {res : Except Failure Page}
    (h : Reports g direction scopes depth x res) (hall : Qualifies g scopes x → ∀ v,
      Reached g direction scopes depth x v ↔ ∃ depth, Reached g direction scopes depth x v) :
    ReportsAll g direction scopes x res := by
  refine ⟨h.notFound, ?_, fun hq hsome => ?_⟩
  · rw [h.noData]
    refine and_congr_right fun hq => ⟨fun hnone d v hv => ?_, fun hnone v => hnone depth v⟩
    exact hnone v ((hall hq v).2 ⟨d, hv⟩)
  · obtain ⟨d, v, hv⟩ := hsome
    obtain ⟨us, hnodup, hmem, hsorted, hres⟩ := h.page hq ⟨v, (hall hq v).2 ⟨d, hv⟩⟩
    exact ⟨us, hnodup, fun v => (hmem v).trans (hall hq v), hsorted, hres⟩

theorem perform_hierarchy_none (hr : s.refusals.query = none) (hs : Coherent s.graph) (hd : Described s.graph)
    (anchor : Uid) (direction : Direction) (scopes : List String) :
    perform (instanceHierarchy anchor direction none scopes) s =
      perform (instanceHierarchy anchor direction (some (defaultDepth (visibleTypes s.graph scopes).length)) scopes)
        s := by
  obtain ⟨us, ts, hp, hus, -, hts⟩ := perform_types hr hs hd scopes
  have hlength : ts.length = (visibleTypes s.graph scopes).length := by rw [← hts.length_eq, hus.length_eq]
  rw [instanceHierarchy, instanceHierarchy, perform_bind, perform_bind, depthOr, depthOr, map_eq_pure_bind,
    perform_bind, hp]
  simp only [perform_pure, hlength]

/-- All that is above or below an instance is reported where no depth is given, and the same where a depth is given
that is as large. -/
structure HidesNothing (s : Store) (direction : Direction) (scopes : List String) (anchor : Uid) : Prop where
  all : ReportsAll s.graph direction scopes anchor
    (perform (instanceHierarchy anchor direction none scopes) s).1
  deeper : ∀ depth, (visibleTypes s.graph scopes).length ≤ depth →
    (perform (instanceHierarchy anchor direction (some depth) scopes) s).1 =
      (perform (instanceHierarchy anchor direction none scopes) s).1

/-- After a run in which no type is moved or deleted with what depends on it out of sight, the hierarchy of an instance
is complete without a depth, unless the types in the scope of the instance go round in a circle by their names. -/
theorem hidesNothing_after (r : Repository) (hr : refusals.query = none) (cs : List Change)
    (hsize : ∀ pre, pre <+: cs → (after r (bootstrapped refusals) pre).graph.size < 1 <<< 64)
    (hn : ∀ pre c, pre ++ [c] <+: cs → ¬Strays r (after r (bootstrapped refusals) pre) c)
    (scopes : List String) (hfew : (visibleTypes (after r (bootstrapped refusals) cs).graph scopes).length < 1 <<< 32)
    (anchor : Uid) (hu : ∀ scope, .str scope ∈ (after r (bootstrapped refusals) cs).graph.values anchor
      Vocabulary.scopes → Unlooped (after r (bootstrapped refusals) cs).graph scope)
    (direction : Direction) : HidesNothing (after r (bootstrapped refusals) cs) direction scopes anchor := by
  have hc := coherent_bootstrapped refusals
  have hs := coherent_after (r := r) hc cs
  have hd := described_after (r := r) hc (described_bootstrapped refusals) cs
  have hsound := sound_after (r := r) hc (sound_bootstrapped refusals) hsize hn
  have hlinks : ∀ x y, y ∉ (bootstrapped refusals).graph.edges x parent := by
    intro x y hy
    rw [edges_bootstrapped] at hy
    exact OrderedSet.not_mem_empty hy
  have hh := hung_after hc (sound_bootstrapped refusals) hlinks hsize hn
  have hlast := hsize cs List.prefix_rfl
  have hquery : (after r (bootstrapped refusals) cs).refusals.query = none := by
    rw [refusals_after]
    exact hr
  generalize after r (bootstrapped refusals) cs = s at hs hd hsound hh hlast hquery hfew hu ⊢
  have hdefault := le_defaultDepth hfew
  have hall : ∀ depth, (visibleTypes s.graph scopes).length ≤ depth → Qualifies s.graph scopes anchor → ∀ v,
      Reached s.graph direction scopes depth anchor v ↔ ∃ depth, Reached s.graph direction scopes depth anchor v :=
    fun depth hle hq v => reached_of_le hs hh hsound hq hu hle
  have hnone := perform_hierarchy_none hquery hs hd anchor direction scopes
  refine ⟨?_, fun depth hle => ?_⟩
  · rw [hnone]
    exact reportsAll_of_reports (InstanceHierarchy.reports_of_intact hquery hs.intact hlast anchor direction _ scopes)
      (hall _ hdefault)
  · rw [hnone]
    exact InstanceHierarchy.hierarchy_congr hquery hs.intact hlast fun hq v =>
      (hall depth hle hq v).trans (hall _ hdefault hq v).symm

end Hierarchy

section Racks

/-- A blade in a rack. -/
def bladeInRack : Store := after single (bootstrapped (conflicts [5, 6])) (givenUp.take 5)

set_option maxRecDepth 100000 in
theorem cells_bladeInRack : bladeInRack.graph.contains ⟨8⟩ = true ∧
    .str equipmentMarker ∈ bladeInRack.graph.values ⟨8⟩ typeName ∧
      bladeInRack.graph.values ⟨8⟩ Vocabulary.scopes = [.str "s1"] ∧
        (visibleTypes bladeInRack.graph ["s1"]).length = 2 ∧
          ∀ t ∈ bladeInRack.graph.uids, ∀ p ∈ (bladeInRack.graph.edges t metaParent).items,
            bladeInRack.graph.values t metaType = [.str "blade"] ∧
              bladeInRack.graph.values p metaType = [.str "rack"] := by
  decide +kernel

theorem unlooped_bladeInRack : Unlooped bladeInRack.graph "s1" := by
  have hrank : ∀ name above, Ranked bladeInRack.graph "s1" name above → name = "blade" ∧ above = "rack" := by
    rintro name above ⟨t, p, ht, hp, hname⟩
    obtain ⟨-, -, -, -, htypes⟩ := cells_bladeInRack
    obtain ⟨hblade, hrack⟩ := htypes t (mem_uids.2 (contains_of_mem_values ht.name)) p hp
    have ht := ht.name
    rw [hblade] at ht
    rw [hrack] at hname
    exact ⟨Json.str.inj (List.mem_singleton.1 ht), Json.str.inj (List.mem_singleton.1 hname)⟩
  intro name h
  obtain ⟨_, hfirst, -⟩ := Relation.TransGen.head'_iff.1 h
  obtain ⟨_, -, hlast⟩ := Relation.TransGen.tail'_iff.1 h
  exact absurd ((hrank _ _ hfirst).1.symm.trans (hrank _ _ hlast).2) (by decide)

/-- The rack is found above the blade. -/
theorem hidesNothing_bladeInRack :
    (∀ pre, pre <+: givenUp.take 5 → (after single (bootstrapped (conflicts [5, 6])) pre).graph.size < 1 <<< 64) ∧
    (∀ pre c, pre ++ [c] <+: givenUp.take 5 →
      ¬Strays single (after single (bootstrapped (conflicts [5, 6])) pre) c) ∧
    (visibleTypes bladeInRack.graph ["s1"]).length < 1 <<< 32 ∧
    (∀ scope, .str scope ∈ bladeInRack.graph.values ⟨8⟩ Vocabulary.scopes →
      Unlooped bladeInRack.graph scope) ∧
    Qualifies bladeInRack.graph ["s1"] ⟨8⟩ ∧ HidesNothing bladeInRack .ancestors ["s1"] ⟨8⟩ := by
  have hle := List.take_prefix 5 givenUp
  have hsize := fun pre (hpre : pre <+: givenUp.take 5) => sizes_givenUp pre (hpre.trans hle)
  have hn := fun pre c (hpre : pre ++ [c] <+: givenUp.take 5) => not_strays_givenUp pre c (hpre.trans hle)
  obtain ⟨hcontains, hmark, hscopes, hcount, -⟩ := cells_bladeInRack
  have hfew : (visibleTypes bladeInRack.graph ["s1"]).length < 1 <<< 32 := by
    rw [hcount]
    decide
  have hunlooped : ∀ scope, .str scope ∈ bladeInRack.graph.values ⟨8⟩ Vocabulary.scopes →
      Unlooped bladeInRack.graph scope := by
    intro scope hscope
    rw [hscopes] at hscope
    obtain rfl := Json.str.inj (List.mem_singleton.1 hscope)
    exact unlooped_bladeInRack
  have hin : InScope bladeInRack.graph ["s1"] ⟨8⟩ := ⟨"s1", by simp, by simp [hscopes]⟩
  exact ⟨hsize, hn, hfew, hunlooped, ⟨hcontains, hmark, hin⟩,
    hidesNothing_after single rfl (givenUp.take 5) hsize hn ["s1"] hfew ⟨8⟩ hunlooped .ancestors⟩

end Racks

section Roundabout

/-- Boxes in folders of two kinds: one that is in sight of the other scope alone, and one that is itself in boxes. -/
def roundabout : List Change :=
  [.upsertSource ((MetadataSource.equipment "a" "s2").withColumns ["id"]),
    .upsertSource ((MetadataSource.equipment "b" "s1").withColumns ["id", "up"]),
    .upsertSource ((MetadataSource.equipment "c" "s1").withColumns ["id", "up"]),
    .createType ⟨0⟩ (((EquipmentType.new "folder" "0x1").withScope "s2").withAttribute (.identifier "key" "id")),
    .createType ⟨0⟩ ((((((EquipmentType.new "box" "0x2").withScope "s1").withScope "s2").withAttribute
      (.identifier "key" "id")).withAttribute (.parentIdentifier "up" "up")).withParent "0x4"),
    .createType ⟨0⟩ (((((EquipmentType.new "folder" "0x3").withScope "s1").withAttribute
      (.identifier "key" "id")).withAttribute (.parentIdentifier "up" "up")).withParent "0x6"),
    .upsertInstance ⟨0⟩ "s1" "box" [("id", .str "w"), ("up", .str "x")] 0,
    .upsertInstance ⟨0⟩ "s1" "folder" [("id", .str "x"), ("up", .str "y")] 0,
    .upsertInstance ⟨0⟩ "s1" "box" [("id", .str "y"), ("up", .str "z")] 0]

def boxes : Store := after single (bootstrapped .none) roundabout

set_option maxRecDepth 100000 in
theorem cells_boxes : boxes.graph.size < 1 <<< 64 ∧ (visibleTypes boxes.graph ["s1"]).length = 2 ∧
    boxes.graph.contains ⟨12⟩ = true ∧ .str equipmentMarker ∈ boxes.graph.values ⟨12⟩ typeName ∧
      (∀ u ∈ [12, 13, 14, 15], .str "s1" ∈ boxes.graph.values ⟨u⟩ Vocabulary.scopes) ∧
        ∀ u ∈ [12, 13, 14], boxes.graph.edges ⟨u⟩ parent = .ofList [⟨u + 1⟩] := by
  decide +kernel

theorem mem_ancestors_boxes {u : Nat} (hu : u ∈ [12, 13, 14]) :
    v ∈ boxes.graph.edges ⟨u⟩ parent ↔ v = ⟨u + 1⟩ := by
  obtain ⟨-, -, -, -, -, hedges⟩ := cells_boxes
  rw [hedges u hu, OrderedSet.mem_ofList, List.mem_singleton]

theorem reached_boxes (depth : Nat) : (∀ n ∈ [1, 2, 3], n ≤ depth →
      Reached boxes.graph .ancestors ["s1"] depth ⟨12⟩ ⟨12 + n⟩) ∧
    ∀ v, Reached boxes.graph .ancestors ["s1"] 2 ⟨12⟩ v → v ∈ [⟨13⟩, ⟨14⟩] := by
  obtain ⟨-, -, -, -, hscopes, -⟩ := cells_boxes
  have hhop : ∀ u ∈ [12, 13, 14], Adjacent boxes.graph .ancestors ⟨u⟩ ⟨u + 1⟩ ∧
      InScope boxes.graph ["s1"] ⟨u + 1⟩ := by
    intro u hu
    refine ⟨(mem_ancestors_boxes hu).2 rfl, "s1", by simp, hscopes (u + 1) ?_⟩
    simp only [List.mem_cons, List.not_mem_nil, or_false] at hu ⊢
    omega
  have h₁ : Hops (fun u w => Adjacent boxes.graph .ancestors u w ∧ InScope boxes.graph ["s1"] w) 1 ⟨12⟩
      ⟨13⟩ := .more (hhop 12 (by simp)) (.none _)
  have h₂ := h₁.snoc (hhop 13 (by simp))
  have h₃ := h₂.snoc (hhop 14 (by simp))
  constructor
  · simp only [List.forall_mem_cons, List.not_mem_nil, false_implies, implies_true, and_true]
    exact ⟨fun hle => ⟨by decide, 1, by decide, hle, h₁⟩, fun hle => ⟨by decide, 2, by decide, hle, h₂⟩,
      fun hle => ⟨by decide, 3, by decide, hle, h₃⟩⟩
  · rintro v ⟨-, n, hpos, hle, h⟩
    cases h with
    | none => exact absurd hpos (by decide)
    | more h₁ h =>
        obtain rfl := (mem_ancestors_boxes (by simp)).1 h₁.1
        cases h with
        | none => simp
        | more h₂ h =>
            obtain rfl := (mem_ancestors_boxes (by simp)).1 h₂.1
            cases h with
            | none => simp
            | more _ h => omega

/-- There are two types in the scope of the boxes, so that the third of them is hidden. -/
theorem not_hidesNothing_boxes :
    Qualifies boxes.graph ["s1"] ⟨12⟩ ∧ ¬HidesNothing boxes .ancestors ["s1"] ⟨12⟩ := by
  obtain ⟨hsize, hcount, hcontains, hmark, hscopes, -⟩ := cells_boxes
  have hq : Qualifies boxes.graph ["s1"] ⟨12⟩ := ⟨hcontains, hmark, "s1", by simp, hscopes 12 (by simp)⟩
  refine ⟨hq, fun h => ?_⟩
  have hs : Coherent boxes.graph := coherent_after (coherent_bootstrapped _) roundabout
  have hd : Described boxes.graph := described_after (coherent_bootstrapped _) (described_bootstrapped _) roundabout
  have hr : boxes.refusals.query = none := by
    rw [boxes, refusals_after]
    rfl
  obtain ⟨hthree, -⟩ := reached_boxes 3
  obtain ⟨htwo, hnear⟩ := reached_boxes 2
  obtain ⟨us, -, hmem, -, hall⟩ := h.all.page hq ⟨3, _, hthree 3 (by simp) le_rfl⟩
  obtain ⟨vs, hnodup, hmem', -, hdefault⟩ :=
    (InstanceHierarchy.reports_of_intact hr hs.intact hsize ⟨12⟩ .ancestors 2 ["s1"]).page hq
      ⟨_, htwo 2 (by simp) le_rfl⟩
  rw [perform_hierarchy_none hr hs hd, hcount, show defaultDepth 2 = 2 from rfl, hdefault] at hall
  have hlength : vs.length = us.length := congrArg Page.total (Except.ok.inj hall)
  have hle : vs.length ≤ 2 := (hnodup.subperm fun v hv => hnear v ((hmem' v).1 hv)).length_le
  have hge : 3 ≤ us.length := by
    have hsub : [⟨13⟩, ⟨14⟩, ⟨15⟩] ⊆ us := by
      simp only [List.cons_subset, List.nil_subset, and_true]
      exact ⟨(hmem _).2 ⟨3, hthree 1 (by simp) (by decide)⟩, (hmem _).2 ⟨3, hthree 2 (by simp) (by decide)⟩,
        (hmem _).2 ⟨3, hthree 3 (by simp) le_rfl⟩⟩
    exact (List.Nodup.subperm (by decide) hsub).length_le
  omega

end Roundabout

end Inventory.DefaultDepth
