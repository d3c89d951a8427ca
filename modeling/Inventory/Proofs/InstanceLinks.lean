import Inventory.Proofs.BatchDeletion
import Inventory.Proofs.TypeDeletion
import Mathlib.Data.List.Infix

/-!
The parents of instances. An instance hangs below an instance of the type above its own, in the same scope, for as long
as no type is moved or deleted while some of what depends on it is out of sight. Only a deletion of instances that does
not report to be complete leaves instances whose parents are gone.
-/

namespace Inventory.InstanceLinks

open Inventory.Graph Store Repository Vocabulary TypeNames TypeDeletion BatchDeletion

variable {g g' : Graph} {u x y p : Uid} {scope name above : String} {s s' : Store} {r : Repository} {c : Change}
  {cs : List Change}

/-- An instance of one type, in one scope, that has not been recycled. -/
structure Housed (g : Graph) (scope name : String) (u : Uid) : Prop where
  marked : .str equipmentMarker ∈ g.values u typeName
  scope : g.values u scopes = [.str scope]
  type : g.values u equipmentType = [.str name]
  live : g.values u recycle = []

/-- A type of a name in a scope is below a type of another name. -/
def Ranked (g : Graph) (scope name above : String) : Prop :=
  ∃ t p, Named g scope name t ∧ p ∈ g.edges t metaParent ∧ .str above ∈ g.values p metaType

/-- A type is deleted with children or instances out of sight, or a type is put below another parent with an instance
in one of its scopes that is in none of those given. -/
inductive Strays (r : Repository) (s : Store) : Change → Prop
  | deleted (k) (scope name) (u) (hu : Named s.graph scope name u)
      (he : (Change.run r s (.deleteType k name scope)).graph.values u metaType = [])
      (ho : Overlooks s.graph scope name u) : Strays r s (.deleteType k name scope)
  | moved (k) (id) (parentId) (attributes) (into) (u p w) (other name) (hu : Uid.parse? id = some u)
      (hp : p ∈ s.graph.edges u metaParent)
      (hm : p ∉ (Change.run r s (.updateType k id parentId attributes into)).graph.edges u metaParent)
      (hn : Named s.graph other name u) (hw : InstanceIn s.graph other name w)
      (ho : s.graph.inScopes into w = false) : Strays r s (.updateType k id parentId attributes into)

/-- An instance has been deleted by a deletion along a run that did not report to be complete. -/
def Lost (r : Repository) (s : Store) (cs : List Change) (scope name : String) (u : Uid) : Prop :=
  ∃ pre k elapsedMs report, pre ++ [.deleteInstances k elapsedMs scope] <+: cs ∧
    Housed (after r s pre).graph scope name u ∧
    (perform (r.deleteInstances k elapsedMs scope) (after r s pre)).1 = .ok report ∧ report.isComplete = false ∧
    (after r s (pre ++ [.deleteInstances k elapsedMs scope])).graph.values u recycle = [.str "true"]

/-- What holds of an instance and its parent. -/
def Consistent (r : Repository) (s : Store) (cs : List Change) (x y : Uid) : Prop :=
  ∃ scope name above, Housed (after r s cs).graph scope name x ∧ Ranked (after r s cs).graph scope name above ∧
    (Housed (after r s cs).graph scope above y ∨ Lost r s cs scope above y)

/-- Instances are of one type, in one scope and not recycled, and parents of types are types. -/
structure Sound (g : Graph) : Prop where
  housed : ∀ u, .str equipmentMarker ∈ g.values u typeName → ∃ scope name, Housed g scope name u
  typed : ∀ t p, p ∈ g.edges t metaParent → g.values p metaType ≠ []

section Housed

theorem Housed.instanceIn (h : Housed g scope name u) : InstanceIn g scope name u :=
  ⟨h.marked, by simp [h.scope], by simp [h.type]⟩

theorem housed_of_instanceIn (hg : Sound g) (h : InstanceIn g scope name u) : Housed g scope name u := by
  obtain ⟨hm, hs, ht⟩ := h
  obtain ⟨scope', name', h⟩ := hg.housed u hm
  rw [h.scope, List.mem_singleton, Json.str.injEq] at hs
  rw [h.type, List.mem_singleton, Json.str.injEq] at ht
  subst hs ht
  exact h

theorem housed_of_kept (hk : Kept g g' u) (hr : g'.values u recycle = g.values u recycle) (h : Housed g scope name u) :
    Housed g' scope name u :=
  ⟨(hk typeName (by decide)).1.symm ▸ h.marked, (hk scopes (by decide)).1.trans h.scope,
    (hk equipmentType (by decide)).1.trans h.type, hr.trans h.live⟩

/-- Nothing but a deletion recycles a node, and what it recycles is no instance any more. -/
theorem recycle_of_step (h : Step r s c s') (hu : .str equipmentMarker ∈ s'.graph.values u typeName) :
    s'.graph.values u recycle = s.graph.values u recycle := by
  cases h with
  | kept _ _ h =>
      obtain ⟨ps, ts, he⟩ := h
      rw [he]
      rfl
  | source m us _ h => exact h.recycled u
  | made k t v w q _ _ h => exact h.recycled u
  | changed k id parentId as into v q _ _ _ _ h => exact h.recycled u
  | deleted k name scope v _ _ h =>
      rw [h.values, if_neg (h.not_mem (by decide) (List.ne_nil_of_mem hu))]
  | written k scope name payload now t record q own stub _ _ _ _ h => exact h.recycled u
  | purged k elapsedMs scope _ h => exact h.recycled (by decide) (List.ne_nil_of_mem hu)

theorem Housed.of_step (h : Housed s.graph scope name u) (hstep : Step r s c s') (hk : Kept s.graph s'.graph u) :
    Housed s'.graph scope name u :=
  housed_of_kept hk (recycle_of_step hstep ((hk typeName (by decide)).1.symm ▸ h.marked)) h

theorem instance_of_step (hs : Coherent s.graph) (h : Step r s c s')
    (hu : .str equipmentMarker ∈ s'.graph.values u typeName) :
    Kept s.graph s'.graph u ∨ (¬s.graph.contains u = true ∧ ∃ scope name, Housed s'.graph scope name u) := by
  have hrecycle := recycle_of_step h hu
  refine (h.kept_or_stamped hs hu).imp_right ?_
  rintro ⟨hc, scope, name, id, hst⟩
  rw [values_of_not_contains _ _ hc] at hrecycle
  exact ⟨hc, scope, name, by simp [hst.marker], hst.scope, hst.type, hrecycle⟩

theorem instance_or_purged (hs : Coherent s.graph) (h : Step r s c s')
    (hu : .str equipmentMarker ∈ s.graph.values u typeName) :
    Kept s.graph s'.graph u ∨ ∃ k elapsedMs scope, c = .deleteInstances k elapsedMs scope := by
  refine (h.instance_kept_or_purged hs (contains_of_mem_values hu) (.inl hu)).imp_right ?_
  rintro ⟨k, elapsedMs, scope, rfl, -⟩
  exact ⟨k, elapsedMs, scope, rfl⟩

end Housed

section Types

theorem type_of_step (hs : Coherent s.graph) (h : Step r s c s') (hu : s.graph.values u metaType ≠ []) :
    Kept s.graph s'.graph u ∨
      (∃ k id parentId as into parent, c = .updateType k id parentId as into ∧ Uid.parse? id = some u ∧
        (∀ p, parent = some p → Movable s.graph into u parentId p) ∧ TypeChanged s.graph s'.graph u parent into) ∨
      ∃ k name scope, c = .deleteType k name scope ∧ Deletable s.graph scope name u ∧ Cleared [u] s.graph s'.graph := by
  rcases h.present (contains_of_values hu) ((hs.regular u).not_marked hu _) with
    hk | ⟨k, id, parentId, as, into, parent, rfl, hid, -, hp, hm⟩ | hd | ⟨k, elapsedMs, scope, rfl, hm⟩
  · exact .inl hk
  · exact .inr (.inl ⟨k, id, parentId, as, into, parent, rfl, hid, hp, hm⟩)
  · exact .inr (.inr hd)
  · exact .inl (hs.kept_of_named hm hu)

theorem name_of_step (hs : Coherent s.graph) (h : Step r s c s') (hu : s.graph.values u metaType ≠ []) :
    s'.graph.values u metaType = s.graph.values u metaType ∨
      ∃ k name scope, c = .deleteType k name scope ∧ Deletable s.graph scope name u ∧ Cleared [u] s.graph s'.graph := by
  rcases type_of_step hs h hu with hk | ⟨k, id, parentId, as, into, parent, rfl, -, -, hm⟩ | hd
  · exact .inl (hk metaType (by decide)).1
  · exact .inl (hm.values metaType (by decide) (by decide))
  · exact .inr hd

/-- With nothing out of sight, only types that nothing depends on are deleted. -/
theorem deserted_of_cleared {k : Guard} (hn : ¬Strays r s (.deleteType k name scope))
    (hu : Deletable s.graph scope name u)
    (hc : Cleared [u] s.graph (Change.run r s (.deleteType k name scope)).graph) (hsize : s.graph.size < 1 <<< 64) :
    Deserted s.graph name u := by
  refine (deserted_of_deletable hu hsize).2 fun ho => hn (.deleted k scope name u ⟨hu.named, hu.placed⟩ ?_ ho)
  rw [hc.values, if_pos (List.mem_singleton_self u), if_neg (by decide)]

/-- With nothing out of sight, a type of which there are instances stays below its parent. -/
theorem parent_of_changed {k : Guard} {id : String} {parentId : Option String} {as : List Attribute}
    {into : List String} {parent : Option Uid} (hn : ¬Strays r s (.updateType k id parentId as into))
    (hid : Uid.parse? id = some u) (hp : ∀ p, parent = some p → Movable s.graph into u parentId p)
    (hm : TypeChanged s.graph (Change.run r s (.updateType k id parentId as into)).graph u parent into)
    (hsize : s.graph.size < 1 <<< 64) (hu : Named s.graph scope name u) (hx : InstanceIn s.graph scope name x)
    (hpu : p ∈ s.graph.edges u metaParent) :
    p ∈ (Change.run r s (.updateType k id parentId as into)).graph.edges u metaParent := by
  cases parent with
  | none => exact (hm.parent p).2 (.inr ⟨rfl, hpu⟩)
  | some q =>
      have hne : s.graph.edges u metaParent ≠ .empty := fun he => OrderedSet.not_mem_empty (he ▸ hpu)
      have hfree := (hp q rfl).vacant hne hsize name x hu.name hx.2.2
      exact Classical.byContradiction fun hgone =>
        hn (.moved k id parentId as into u p x scope name hid hpu hgone hu hx hfree)

theorem ranked_of_kept (hk : ∀ u, g.values u metaType ≠ [] → Kept g g' u) (h : Ranked g scope name above) :
    Ranked g' scope name above := by
  obtain ⟨t, p, ht, hp, hname⟩ := h
  have hkt := hk t (List.ne_nil_of_mem ht.name)
  have hkp := hk p (List.ne_nil_of_mem hname)
  exact ⟨t, p, (named_of_kept hkt).2 ht, (hkt metaParent (by decide)).2.symm ▸ hp,
    (hkp metaType (by decide)).1.symm ▸ hname⟩

/-- With nothing out of sight, the type above that of an instance stays the type above. -/
theorem ranked_of_step (hs : Coherent s.graph) (hn : ¬Strays r s c) (hsize : s.graph.size < 1 <<< 64)
    (hx : InstanceIn s.graph scope name x) (h : Ranked s.graph scope name above) :
    Ranked (c.run r s).graph scope name above := by
  obtain ⟨t, p, ht, hp, hname⟩ := h
  have hstep := (c.step r hs).1
  have habove : .str above ∈ (c.run r s).graph.values p metaType := by
    rcases name_of_step hs hstep (List.ne_nil_of_mem hname) with he | ⟨k, other, scope', rfl, hu, hc⟩
    · rwa [he]
    · exact absurd hp ((deserted_of_cleared hn hu hc hsize).childless t)
  rcases type_of_step hs hstep (List.ne_nil_of_mem ht.name) with
    hk | ⟨k, id, parentId, as, into, parent, rfl, hid, hmovable, hm⟩ | ⟨k, other, scope', rfl, hu, hc⟩
  · exact ⟨t, p, (named_of_kept hk).2 ht, (hk metaParent (by decide)).2.symm ▸ hp, habove⟩
  · have hp := parent_of_changed hn hid hmovable hm hsize ht hx hp
    refine ⟨t, p, ⟨?_, (hm.scopes scope).2 (.inr ht.scope)⟩, hp, habove⟩
    rw [hm.values metaType (by decide) (by decide)]
    exact ht.name
  · obtain rfl := (hs.regular t).name_unique ht.name hu.named
    exact absurd hx ((deserted_of_cleared hn hu hc hsize).vacant scope x ht.scope)

theorem parent_or_type (hs : Coherent s.graph) (h : Step r s c s') (hp : p ∈ s'.graph.edges u metaParent)
    (hu : s'.graph.values u metaType ≠ []) : p ∈ s.graph.edges u metaParent ∨
      s.graph.values p metaType ≠ [] ∧ ∀ k name scope, c ≠ .deleteType k name scope := by
  rcases h.types hs with hk | ⟨k, t, v, w, parent, rfl, hc, hm⟩ |
    ⟨k, id, parentId, as, into, v, parent, rfl, -, -, hmovable, hm⟩
  · exact .inl ((hk u hu metaParent (by decide)).2 ▸ hp)
  · by_cases huv : u = v
    · subst huv
      have hvis := hc.parent p ((hm.parent p).1 hp)
      exact .inr ⟨mem_visibleTypes_values (hs.regular p) hvis, fun _ _ _ => by simp⟩
    · exact .inl ((hm.others u huv metaParent (by decide)).2 ▸ hp)
  · by_cases huv : u = v
    · subst huv
      rcases (hm.parent p).1 hp with hnew | ⟨-, hold⟩
      · exact .inr ⟨mem_visibleTypes_values (hs.regular p) (hmovable p hnew).known, fun _ _ _ => by simp⟩
      · exact .inl hold
    · exact .inl ((hm.others u huv metaParent (by decide)).2 ▸ hp)

theorem sound_of_step (hs : Coherent s.graph) (hg : Sound s.graph) (hn : ¬Strays r s c)
    (hsize : s.graph.size < 1 <<< 64) : Sound (c.run r s).graph := by
  obtain ⟨hstep, hs'⟩ := c.step r hs
  constructor
  · intro u hu
    rcases instance_of_step hs hstep hu with hk | ⟨-, h⟩
    · obtain ⟨scope, name, h⟩ := hg.housed u ((hk typeName (by decide)).1 ▸ hu)
      exact ⟨scope, name, h.of_step hstep hk⟩
    · exact h
  · intro t p hp
    rcases parent_or_type hs hstep hp ((hs'.regular t).typed p hp) with hold | ⟨hv, hc⟩
    · have hv := hg.typed t p hold
      rcases name_of_step hs hstep hv with he | ⟨k, name, scope, rfl, hu, hclear⟩
      · rwa [he]
      · exact absurd hold ((deserted_of_cleared hn hu hclear hsize).childless t)
    · rcases name_of_step hs hstep hv with he | ⟨k, name, scope, rfl, -⟩
      · rwa [he]
      · exact absurd rfl (hc k name scope)

end Types

section Links

theorem ranked_of_loaded {t : EquipmentType} (hs : Coherent g) (hg : Sound g) (hu : Named g scope name u)
    (hl : Loaded g u t) (ht : t.parentTypeName = some above) : Ranked g scope t.typeName above := by
  obtain ⟨p, hp, hname⟩ := hl.parentTypeName above ht
  have hlist := (lists_of_declared hs.declared).1
  obtain ⟨n, hn⟩ := ((hs.regular p).named).resolve_left (hg.typed u p hp)
  obtain rfl := hname n hlist hn
  obtain rfl := hl.typeName name hlist ((hs.regular u).eq_of_named hu.name)
  exact ⟨u, p, hu, hp, by simp [hn]⟩

theorem link_of_step (hs : Coherent s.graph) (hg : Sound s.graph) (h : Step r s c s')
    (hy : y ∈ s'.graph.edges x parent) : y ∈ s.graph.edges x parent ∨ ∃ scope name above,
      InstanceIn s'.graph scope name x ∧ Ranked s'.graph scope name above ∧ InstanceIn s'.graph scope above y := by
  rcases h.links with hold | ⟨k, scope, name, payload, now, t, record, parent, own, stub, -, ht, -, hp, hm⟩
  · exact .inl (hold x y hy)
  · refine (hm.links x y hy).imp_right ?_
    rintro ⟨⟨id, above⟩, rfl, hx, hy⟩
    obtain ⟨u, hu, hin, hl⟩ := (typeByName_yields name [scope]).gives t ht
    obtain ⟨scope', hmem, hscope⟩ := inScopes_iff.1 hin
    obtain rfl := List.mem_singleton.1 hmem
    -- the type is read before the record is written, and a record leaves types as they are
    have hrank := ranked_of_loaded hs hg ⟨hu, hscope⟩ hl (Record.parent?_eq_some.1 hp).2
    refine ⟨scope', t.typeName, above, hx.instanceIn, ?_, hy.instanceIn⟩
    exact ranked_of_kept (fun v hv => hm.kept (contains_of_values hv)) hrank

end Links

section Losses

theorem Lost.mono {cs' : List Change} (hle : cs <+: cs') (h : Lost r s cs scope name u) :
    Lost r s cs' scope name u := by
  obtain ⟨pre, k, elapsedMs, report, hpre, h⟩ := h
  exact ⟨pre, k, elapsedMs, report, hpre.trans hle, h⟩

/-- An instance that is gone after a deletion, while another of its scope is left, has been deleted without the deletion
being complete. -/
theorem incomplete_of_left {k : Guard} {elapsedMs : Nat → Nat} {other name' : String} (hs : Conflicting s.refusals)
    (hg : s.graph.Intact) (hfit : r.config.batchSize < 1 <<< 64) (hx : Housed s.graph scope name' x)
    (hy : Housed s.graph scope name y)
    (hleft : Kept s.graph (Change.run r s (.deleteInstances k elapsedMs other)).graph x)
    (hgone : ¬Housed (Change.run r s (.deleteInstances k elapsedMs other)).graph scope name y) :
    other = scope ∧ ∃ report, (perform (r.deleteInstances k elapsedMs other) s).1 = .ok report ∧
      report.isComplete = false ∧
        (Change.run r s (.deleteInstances k elapsedMs other)).graph.values y recycle = [.str "true"] := by
  have hrun : Change.run r s (.deleteInstances k elapsedMs other) =
      (perform (r.deleteInstances k elapsedMs other) s).2 := rfl
  rw [hrun] at hleft hgone ⊢
  rcases deleteInstances_cases hs hg r hfit k elapsedMs other with he | ⟨report, s', bs, hp, he⟩
  · rw [he] at hgone
    exact absurd hy hgone
  · rw [hp] at hleft hgone ⊢
    have hmem : y ∈ bs.flatMap Batch.emptied := Classical.byContradiction fun hmem =>
      hgone (housed_of_kept (fun p _ => he.others y hmem p) (he.others y hmem recycle).1 hy)
    have hvictim : y ∈ victims s.graph other := he.taken.subset ((perm_nodes bs).subset (List.mem_append_left _ hmem))
    have hscope := (mem_victims.1 hvictim).2
    rw [hy.scope, List.mem_singleton, Json.str.injEq] at hscope
    subst hscope
    refine ⟨rfl, report, rfl, Bool.eq_false_iff.2 fun hc => ?_, ?_⟩
    -- a complete deletion would have taken the instance that is left too
    · have hx' := he.complete hc x (mem_victims.2 ⟨hx.marked, by simp [hx.scope]⟩)
      have hempty := (he.emptied x hx').2 typeName
      rw [(hleft typeName (by decide)).1, if_neg (by decide)] at hempty
      exact absurd hx.marked (hempty ▸ List.not_mem_nil)
    · exact (he.emptied y hmem).2 recycle

end Losses

section Runs

theorem sound_after (hs : Coherent s.graph) (hg : Sound s.graph)
    (hsize : ∀ pre, pre <+: cs → (after r s pre).graph.size < 1 <<< 64)
    (hn : ∀ pre c, pre ++ [c] <+: cs → ¬Strays r (after r s pre) c) : Sound (after r s cs).graph := by
  induction cs using List.reverseRecOn with
  | nil => exact hg
  | append_singleton cs c ih =>
      have hle := List.prefix_append cs [c]
      rw [after_concat]
      exact sound_of_step (coherent_after hs cs) (ih (fun pre hpre => hsize pre (hpre.trans hle))
        fun pre c hpre => hn pre c (hpre.trans hle)) (hn cs c List.prefix_rfl) (hsize cs hle)

/-- What holds of an instance and its parent holds still after a change that leaves the instance and its link. -/
theorem Consistent.concat (hc : Coherent s.graph) (hr : Conflicting s.refusals) (hfit : r.config.batchSize < 1 <<< 64)
    (hsize : (after r s cs).graph.size < 1 <<< 64) (hn : ¬Strays r (after r s cs) c)
    (hk : Kept (after r s cs).graph (after r s (cs ++ [c])).graph x) (h : Consistent r s cs x y) :
    Consistent r s (cs ++ [c]) x y := by
  obtain ⟨scope, name, above, hx, hrank, hy⟩ := h
  have hs := coherent_after (r := r) hc cs
  have hstep := (c.step r hs).1
  rw [after_concat] at hk
  refine ⟨scope, name, above, ?_, ?_, ?_⟩
  · rw [after_concat]
    exact hx.of_step hstep hk
  · rw [after_concat]
    exact ranked_of_step hs hn hsize hx.instanceIn hrank
  · rcases hy with hy | hlost
    · refine or_iff_not_imp_left.2 fun hgone => ?_
      rw [after_concat] at hgone
      rcases instance_or_purged hs hstep hy.marked with hky | ⟨k, elapsedMs, other, rfl⟩
      · exact absurd (hy.of_step hstep hky) hgone
      · have hr' : Conflicting (after r s cs).refusals := by rwa [refusals_after]
        obtain ⟨rfl, report, hreport, hincomplete, hrecycled⟩ :=
          incomplete_of_left hr' hs.intact hfit hx hy hk hgone
        exact ⟨cs, k, elapsedMs, report, List.prefix_rfl, hy, hreport, hincomplete, by rwa [after_concat]⟩
    · exact .inr (hlost.mono (List.prefix_append cs [c]))

theorem consistent_after (hc : Coherent s.graph) (hg : Sound s.graph) (hlinks : ∀ x y, y ∉ s.graph.edges x parent)
    (hr : Conflicting s.refusals) (hfit : r.config.batchSize < 1 <<< 64)
    (hsize : ∀ pre, pre <+: cs → (after r s pre).graph.size < 1 <<< 64)
    (hn : ∀ pre c, pre ++ [c] <+: cs → ¬Strays r (after r s pre) c)
    (hx : .str equipmentMarker ∈ (after r s cs).graph.values x typeName)
    (hy : y ∈ (after r s cs).graph.edges x parent) : Consistent r s cs x y := by
  induction cs using List.reverseRecOn with
  | nil => exact absurd hy (hlinks x y)
  | append_singleton cs c ih =>
      have hle := List.prefix_append cs [c]
      have hsize' := fun pre (hpre : pre <+: cs) => hsize pre (hpre.trans hle)
      have hn' := fun pre c (hpre : pre ++ [c] <+: cs) => hn pre c (hpre.trans hle)
      have hs := coherent_after (r := r) hc cs
      have hsound := sound_after hc hg hsize' hn'
      have hsound' := sound_after hc hg hsize hn
      have hstep := (c.step r hs).1
      rw [← after_concat] at hstep
      rcases link_of_step hs hsound hstep hy with hold | ⟨scope, name, above, hx, hrank, hy⟩
      · rcases instance_of_step hs hstep hx with hk | ⟨hnew, -⟩
        · have hx' := (hk typeName (by decide)).1 ▸ hx
          exact (ih hsize' hn' hx' hold).concat hc hr hfit (hsize cs hle) (hn cs c List.prefix_rfl) hk
        · rw [edges_of_not_contains _ _ hnew] at hold
          exact absurd hold OrderedSet.not_mem_empty
      · exact ⟨scope, name, above, housed_of_instanceIn hsound' hx, hrank, .inl (housed_of_instanceIn hsound' hy)⟩

theorem sound_bootstrapped (refusals : Refusals) : Sound (bootstrapped refusals).graph := by
  have hidle := idle_bootstrapped refusals
  refine ⟨fun u hu => ?_, fun t p hp => ?_⟩
  · rw [(hidle u typeName (by decide)).1] at hu
    cases hu
  · rw [(hidle t metaParent (by decide)).2] at hp
    exact absurd hp OrderedSet.not_mem_empty

/-- Along a run in which requests are refused only because of conflicts, and no type is moved or deleted with what
depends on it out of sight, the parent of an instance is an instance of the type above in the same scope, or was one and
has been deleted by a deletion that was not complete. -/
theorem consistent_of_conflicting (r : Repository) (refusals : Refusals) (cs : List Change) (hr : Conflicting refusals)
    (hfit : r.config.batchSize < 1 <<< 64)
    (hsize : ∀ pre, pre <+: cs → (after r (bootstrapped refusals) pre).graph.size < 1 <<< 64)
    (hn : ∀ pre c, pre ++ [c] <+: cs → ¬Strays r (after r (bootstrapped refusals) pre) c) (x y : Uid)
    (hx : .str equipmentMarker ∈ (after r (bootstrapped refusals) cs).graph.values x typeName)
    (hy : y ∈ (after r (bootstrapped refusals) cs).graph.edges x parent) :
    Consistent r (bootstrapped refusals) cs x y := by
  refine consistent_after (coherent_bootstrapped refusals) (sound_bootstrapped refusals) (fun x y hy => ?_) hr hfit
    hsize hn hx hy
  rw [edges_bootstrapped] at hy
  exact OrderedSet.not_mem_empty hy

end Runs

section GivenUp

/-- A record below another, and a deletion of both one by one, in which the first is given up. -/
def givenUp : List Change :=
  [.upsertSource ((MetadataSource.equipment "a" "s1").withColumns ["id", "up"]),
    .upsertSource ((MetadataSource.equipment "b" "s1").withColumns ["id", "up"]),
    .createType ⟨0⟩ (((EquipmentType.new "rack" "0x1").withScope "s1").withAttribute (.identifier "key" "id")),
    .createType ⟨0⟩ (((((EquipmentType.new "blade" "0x2").withScope "s1").withAttribute (.identifier "key" "id")
      ).withAttribute (.parentIdentifier "up" "up")).withParent "0x3"),
    .upsertInstance ⟨0⟩ "s1" "blade" [("id", .str "x"), ("up", .str "y")] 0,
    .deleteInstances ⟨0⟩ id "s1"]

set_option maxRecDepth 100000 in
theorem cells_givenUp :
    .str equipmentMarker ∈ (after single (bootstrapped (conflicts [5, 6])) givenUp).graph.values ⟨8⟩ typeName ∧
      ⟨9⟩ ∈ (after single (bootstrapped (conflicts [5, 6])) givenUp).graph.edges ⟨8⟩ parent ∧
      (after single (bootstrapped (conflicts [5, 6])) givenUp).graph.values ⟨9⟩ typeName = [] ∧
      ∀ pre ∈ givenUp.inits, (after single (bootstrapped (conflicts [5, 6])) pre).graph.size < 1 <<< 64 := by
  decide +kernel

theorem sizes_givenUp : ∀ pre, pre <+: givenUp →
    (after single (bootstrapped (conflicts [5, 6])) pre).graph.size < 1 <<< 64 := by
  obtain ⟨-, -, -, h⟩ := cells_givenUp
  exact fun pre hpre => h pre ((List.mem_inits pre givenUp).2 hpre)

theorem not_strays_givenUp : ∀ pre c, pre ++ [c] <+: givenUp →
    ¬Strays single (after single (bootstrapped (conflicts [5, 6])) pre) c := by
  intro pre c hpre h
  have hmem : c ∈ givenUp := hpre.subset (by simp)
  cases h <;> simp [givenUp] at hmem

/-- The run of the two records: the parent of the one that is left is lost. -/
theorem consistent_givenUp : Conflicting (conflicts [5, 6]) ∧ single.config.batchSize < 1 <<< 64 ∧
    (∀ pre, pre <+: givenUp → (after single (bootstrapped (conflicts [5, 6])) pre).graph.size < 1 <<< 64) ∧
    (∀ pre c, pre ++ [c] <+: givenUp → ¬Strays single (after single (bootstrapped (conflicts [5, 6])) pre) c) ∧
    .str equipmentMarker ∈ (after single (bootstrapped (conflicts [5, 6])) givenUp).graph.values ⟨8⟩ typeName ∧
    ⟨9⟩ ∈ (after single (bootstrapped (conflicts [5, 6])) givenUp).graph.edges ⟨8⟩ parent ∧
    Consistent single (bootstrapped (conflicts [5, 6])) givenUp ⟨8⟩ ⟨9⟩ := by
  have hr := conflicting_conflicts [5, 6]
  have hfit : single.config.batchSize < 1 <<< 64 := by decide
  obtain ⟨hx, hy, -⟩ := cells_givenUp
  exact ⟨hr, hfit, sizes_givenUp, not_strays_givenUp, hx, hy,
    consistent_of_conflicting single (conflicts [5, 6]) givenUp hr hfit sizes_givenUp not_strays_givenUp ⟨8⟩ ⟨9⟩ hx hy⟩

/-- There the parent is no instance any more. -/
theorem not_housed_givenUp : Conflicting (conflicts [5, 6]) ∧
    ¬∀ x y, .str equipmentMarker ∈ (after single (bootstrapped (conflicts [5, 6])) givenUp).graph.values x typeName →
      y ∈ (after single (bootstrapped (conflicts [5, 6])) givenUp).graph.edges x parent →
        ∃ scope name above, Housed (after single (bootstrapped (conflicts [5, 6])) givenUp).graph scope name x ∧
          Ranked (after single (bootstrapped (conflicts [5, 6])) givenUp).graph scope name above ∧
          Housed (after single (bootstrapped (conflicts [5, 6])) givenUp).graph scope above y := by
  obtain ⟨hx, hy, hgone, -⟩ := cells_givenUp
  refine ⟨conflicting_conflicts _, ?_⟩
  generalize (after single (bootstrapped (conflicts [5, 6])) givenUp).graph = g at hx hy hgone ⊢
  intro hall
  obtain ⟨scope, name, above, -, -, hhoused⟩ := hall ⟨8⟩ ⟨9⟩ hx hy
  have hmarked := hhoused.marked
  rw [hgone] at hmarked
  cases hmarked

end GivenUp

end Inventory.InstanceLinks
