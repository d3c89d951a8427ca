import Inventory.Proofs.Repository.Runs
import Inventory.Proofs.Repository.SourceWrites
import Inventory.Proofs.Repository.TypeWrites
import Inventory.Proofs.WellFormed

/-!
What types and sources are never without, whatever is done: each is stored in full, and a type keeps the rules that
creations and updates check, over the columns that its source has by now.
-/

namespace Inventory.Repository

open Inventory.Graph Store Vocabulary Outcome Hierarchy Admission

variable {r : Repository} {k : Guard} {s s' : Store} {g g' g₁ : Graph} {u v w : Uid} {us vs : List Uid}
  {t t' : EquipmentType} {m : MetadataSource} {as : List Attribute} {scope name : String} {scopes : List String}

/-- A type that is stored in full, over a source that is, and keeps all rules. -/
structure Definition (g : Graph) (u : Uid) (t : EquipmentType) (w : Uid) (m : MetadataSource) : Prop where
  type : StoredType g u t
  backed : w ∈ g.edges u metaSource
  source : StoredSource g w m
  rules : WellFormed m.columns t

structure Described (g : Graph) : Prop where
  sources : ∀ w, .str metadataMarker ∈ g.values w typeName → ∃ m, StoredSource g w m
  types : ∀ u, g.values u metaType ≠ [] → ∃ t w m, Definition g u t w m

theorem StoredAttribute.contains {a : Attribute} (h : StoredAttribute g v a) : g.contains v = true :=
  contains_of_mem_values (p := attributeName) (by rw [h.name]; exact List.mem_singleton_self _)

theorem StoredType.live (h : StoredType g u t) : g.values u metaType ≠ [] := by
  rw [h.name]
  exact List.cons_ne_nil _ _

theorem StoredSource.contains (h : StoredSource g w m) : g.contains w = true :=
  contains_of_mem_values (h.marked ▸ List.mem_singleton_self _)

theorem StoredType.attribute (h : StoredType g u t) (hv : v ∈ g.edges u metaAttribute) :
    ∃ a, StoredAttribute g v a := by
  obtain ⟨a, -, ha⟩ := forall₂_right h.attributes hv
  exact ⟨a, ha⟩

/-- A type or a source is one after as before, and whatever is neither an instance nor deleted stays as it was. -/
structure Frame (g g' : Graph) : Prop where
  types : ∀ u, g'.values u metaType ≠ [] → g.values u metaType ≠ []
  sources : ∀ w, .str metadataMarker ∈ g'.values w typeName → .str metadataMarker ∈ g.values w typeName
  same : ∀ w, g.contains w = true → .str equipmentMarker ∉ g.values w typeName →
    Same g g' w ∨ g.values w metaType ≠ [] ∧ g'.values w metaType = []

namespace Frame

theorem same_of_unnamed (h : Frame g g') (hc : g.contains w = true) (hm : .str equipmentMarker ∉ g.values w typeName)
    (hn : g.values w metaType = []) : Same g g' w :=
  (h.same w hc hm).resolve_right fun hgone => hgone.1 hn

theorem source (h : Frame g g') (hg : Coherent g) (hw : StoredSource g w m) : StoredSource g' w m := by
  refine hw.same (h.same_of_unnamed hw.contains ?_ ?_)
  · rw [hw.marked, List.mem_singleton]
    decide
  · by_contra hn
    have hmark := (hg.regular w).apart hn
    rw [hw.marked] at hmark
    cases hmark

/-- A type that is still there keeps all but the name of its parent. -/
theorem type (h : Frame g g') (hg : Coherent g) (hu : g'.values u metaType ≠ []) (ht : StoredType g u t) :
    Same g g' u ∧ StoredType g' u { t with parentTypeName := (g.edges u metaParent).items.head?.map (nameOf g') } := by
  have hlive := h.types u hu
  have hsame : Same g g' u := by
    refine (h.same u (contains_of_values hlive) ?_).resolve_right fun hgone => hu hgone.2
    exact (hg.regular u).not_marked hlive _
  refine ⟨hsame, ht.same hsame (fun v hv => ?_) fun w hw => ?_⟩
  · obtain ⟨a, ha⟩ := ht.attribute hv
    exact h.same_of_unnamed ha.contains (by simp [ha.unmarked]) ha.unnamed
  · obtain ⟨hmark, -⟩ := (hg.regular u).backed w hw
    refine (h.same_of_unnamed (contains_of_mem_values hmark) (fun he => ?_) ?_ _).1
    · exact absurd ((hg.regular w).eq_of_marked hmark he) (by decide)
    · by_contra hn
      exact (hg.regular w).not_marked hn _ hmark

theorem described (h : Frame g g') (hg : Coherent g) (hd : Described g) : Described g' := by
  constructor
  · intro w hw
    obtain ⟨m, hm⟩ := hd.sources w (h.sources w hw)
    exact ⟨m, h.source hg hm⟩
  · intro u hu
    obtain ⟨t, w, m, hdef⟩ := hd.types u (h.types u hu)
    obtain ⟨hsame, ht⟩ := h.type hg hu hdef.type
    refine ⟨_, w, m, ht, ?_, h.source hg hdef.source, hdef.rules.congr rfl rfl⟩
    rw [(hsame _).2]
    exact hdef.backed

theorem of_redeclared (h : Redeclared g g') : Frame g g' := by
  obtain ⟨ps, ts, rfl⟩ := h
  exact ⟨fun _ hu => hu, fun _ hw => hw, fun w _ _ => .inl (.refl _ _)⟩

theorem of_cleared (h : Cleared us g g')
    (hus : ∀ u ∈ us, g.values u metaType ≠ [] ∨ .str equipmentMarker ∈ g.values u typeName) : Frame g g' := by
  have hkept : ∀ w, w ∉ us → Same g g' w := fun w => same_of_cleared h
  have hidle := fun u (hu : u ∈ us) => idle_of_cleared h hu
  refine ⟨fun u hu => ?_, fun w hw => ?_, fun w hc hm => ?_⟩
  · rwa [← (hkept u (h.not_mem (by decide) hu) _).1]
  · rwa [← (hkept w (h.not_mem (by decide) (List.ne_nil_of_mem hw)) _).1]
  · by_cases hw : w ∈ us
    · exact .inr ⟨(hus w hw).resolve_right hm, (hidle w hw _ (by decide)).1⟩
    · exact .inl (hkept w hw)

end Frame

theorem Frame.of_recorded (hg : Coherent g') (h : RecordStored g g' scope) : Frame g g' := by
  refine ⟨fun u hu => ?_, fun w hw => ?_, fun w hc hm => ?_⟩
  · rcases h u with hs | hr
    · rwa [← (hs metaType).1]
    · exact absurd hr.sited.1 ((hg.regular u).not_marked hu _)
  · rcases h w with hs | hr
    · rwa [← (hs typeName).1]
    · exact absurd ((hg.regular w).eq_of_marked hw hr.sited.1) (by decide)
  · rcases h w with hs | hr
    · exact .inl hs
    · exact absurd (hr.old hc).1.1 hm

theorem described_of_purged (hg : Coherent g) (hd : Described g) (h : InstancesPurged g g') : Described g' := by
  induction h with
  | refl => exact hd
  | tail hfirst hstep ih =>
      obtain ⟨us, hus, hc⟩ := hstep
      exact (Frame.of_cleared hc fun u hu => .inr (hus u hu)).described (hg.instancesPurged hfirst) ih

namespace SourceStored

variable (h : SourceStored g g' us m) (hg : Coherent g) (hg' : Coherent g') (hd : Described g)

include h hg hg' hd

theorem same_of_live (hu : g'.values u metaType ≠ []) : Same g g' u := by
  refine h.others u fun hmem => ?_
  obtain ⟨m', hm', -⟩ := h.stored hg.declared hd.sources hmem
  exact (hg'.regular u).not_marked hu metadataMarker (by simp [hm'.marked])

omit hg' in
/-- A source keeps its name, and has the columns it had, whatever is written to sources. -/
theorem source {m₀ : MetadataSource} (hm₀ : StoredSource g w m₀) : ∃ m', StoredSource g' w m' ∧
    m'.sourceName = m₀.sourceName ∧ ∀ c ∈ m₀.columns, c ∈ m'.columns := by
  by_cases hw : w ∈ us
  · obtain ⟨m', hm', hname, -, hcols⟩ := h.stored hg.declared hd.sources hw
    exact ⟨m', hm', hname.trans (h.same_key hw hm₀).1.symm, fun c hc => (hcols c).2 (.inr ⟨m₀, hm₀, hc⟩)⟩
  · exact ⟨m₀, hm₀.same (h.others w hw), rfl, fun c hc => hc⟩

theorem definition {m₀ : MetadataSource} (hu : g'.values u metaType ≠ []) (hdef : Definition g u t w m₀) :
    ∃ m', Definition g' u { t with parentTypeName := (g.edges u metaParent).items.head?.map (nameOf g') } w m' := by
  have hsame := h.same_of_live hg hg' hd hu
  obtain ⟨m', hm', hname, hcols⟩ := h.source hg hd hdef.source
  refine ⟨m', hdef.type.same hsame (fun v hv => h.others v fun hmem => ?_) (fun x hx => ?_), ?_, hm',
    (hdef.rules.mono hcols).congr rfl rfl⟩
  · obtain ⟨a, ha⟩ := hdef.type.attribute hv
    have hmark := (Bool.and_eq_true_iff.1 (h.known v hmem ha.contains).1).1
    rw [decide_eq_true_eq, ha.unmarked] at hmark
    cases hmark
  · obtain rfl := (hg.regular u).oneSource x hx w hdef.backed
    rw [hdef.source.name, hm'.name, hname]
  · rw [(hsame metaSource).2]
    exact hdef.backed

theorem described : Described g' := by
  constructor
  · intro w hw
    by_cases hmem : w ∈ us
    · obtain ⟨m', hm', -⟩ := h.stored hg.declared hd.sources hmem
      exact ⟨m', hm'⟩
    · rw [(h.others w hmem typeName).1] at hw
      obtain ⟨m', hm'⟩ := hd.sources w hw
      exact ⟨m', hm'.same (h.others w hmem)⟩
  · intro u hu
    have hlive := hu
    rw [(h.same_of_live hg hg' hd hu metaType).1] at hlive
    obtain ⟨t, w, m₀, hdef⟩ := hd.types u hlive
    obtain ⟨m', hdef'⟩ := h.definition hg hg' hd hu hdef
    exact ⟨_, w, m', hdef'⟩

end SourceStored

end Inventory.Repository
