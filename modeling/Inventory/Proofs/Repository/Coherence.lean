import Inventory.Proofs.Repository.DeletionEffects
import Inventory.Proofs.Repository.InstanceEffects
import Inventory.Proofs.Repository.TypeEffects

/-!
What types, sources and instances are never without, whatever is done to them: each is of one kind, a type has
one name, one source and at most one parent, and a source is in one scope, which its types are in too.
-/

namespace Inventory.Repository

open Inventory.Graph Vocabulary

variable {g g' : Graph} {u v w : Uid} {us : List Uid} {scope name id : String}

structure Regular (g : Graph) (u : Uid) : Prop where
  named : g.values u metaType = [] ∨ ∃ n, g.values u metaType = [.str n]
  untied : g.edges u metaType = .empty
  marked : g.values u typeName = [] ∨ ∃ m, g.values u typeName = [.str m]
  apart : g.values u metaType ≠ [] → g.values u typeName = []
  typed : ∀ v ∈ g.edges u metaParent, g.values u metaType ≠ []
  oneParent : ∀ v ∈ g.edges u metaParent, ∀ w ∈ g.edges u metaParent, v = w
  oneSource : ∀ v ∈ g.edges u metaSource, ∀ w ∈ g.edges u metaSource, v = w
  oneScope : .str metadataMarker ∈ g.values u typeName → ∃ s, g.values u scopes = [.str s]
  backed : ∀ v ∈ g.edges u metaSource, .str metadataMarker ∈ g.values v typeName ∧
    ∃ s, .str s ∈ g.values v scopes ∧ .str s ∈ g.values u scopes

structure Coherent (g : Graph) : Prop where
  intact : g.Intact
  declared : Declared g
  regular : ∀ u, Regular g u

/-- A node that is not a type, a source or an instance. -/
def Idle (g : Graph) (u : Uid) : Prop := ∀ p ∈ tracked, g.values u p = [] ∧ g.edges u p = .empty

theorem Idle.regular (h : Idle g u) : Regular g u := by
  obtain ⟨htype, htie⟩ := h metaType (by decide)
  obtain ⟨hmark, -⟩ := h typeName (by decide)
  obtain ⟨-, hparent⟩ := h metaParent (by decide)
  obtain ⟨-, hsource⟩ := h metaSource (by decide)
  constructor <;> simp [htype, htie, hmark, hparent, hsource]

theorem Idle.kept (h : Idle g u) (hk : Kept g g' u) : Idle g' u :=
  fun p hp => ⟨(hk p hp).1.trans (h p hp).1, (hk p hp).2.trans (h p hp).2⟩

/-- Sources that stay sources, in the scope they were in. -/
def KeepsSources (g g' : Graph) : Prop := ∀ w, .str metadataMarker ∈ g.values w typeName →
  .str metadataMarker ∈ g'.values w typeName ∧ ∀ s, .str s ∈ g.values w scopes → .str s ∈ g'.values w scopes

theorem Kept.trans {g'' : Graph} (h : Kept g g' u) (h' : Kept g' g'' u) : Kept g g'' u :=
  fun p hp => ⟨(h' p hp).1.trans (h p hp).1, (h' p hp).2.trans (h p hp).2⟩

theorem Kept.keepsSource (h : Kept g g' w) (hw : .str metadataMarker ∈ g.values w typeName) :
    .str metadataMarker ∈ g'.values w typeName ∧ ∀ s, .str s ∈ g.values w scopes → .str s ∈ g'.values w scopes := by
  rw [(h typeName (by decide)).1, (h scopes (by decide)).1]
  exact ⟨hw, fun _ hs => hs⟩

namespace Regular

/-- A node that is a type is no source and no instance. -/
theorem not_marked (h : Regular g u) (ht : g.values u metaType ≠ []) (m : String) :
    .str m ∉ g.values u typeName := by
  rw [h.apart ht]
  exact List.not_mem_nil

theorem eq_of_marked (h : Regular g u) {m n : String} (hm : .str m ∈ g.values u typeName)
    (hn : .str n ∈ g.values u typeName) : m = n := by
  rcases h.marked with he | ⟨k, he⟩
  · rw [he] at hm
    cases hm
  · rw [he, List.mem_singleton] at hm hn
    cases hm
    cases hn
    rfl

theorem eq_of_named (h : Regular g u) (hn : .str name ∈ g.values u metaType) : g.values u metaType = [.str name] := by
  rcases h.named with he | ⟨k, he⟩
  · rw [he] at hn
    cases hn
  · rw [he, List.mem_singleton] at hn
    rw [he, hn]

theorem name_unique (h : Regular g u) {m n : String} (hm : .str m ∈ g.values u metaType)
    (hn : .str n ∈ g.values u metaType) : m = n := by
  rw [h.eq_of_named hn, List.mem_singleton] at hm
  exact Json.str.inj hm

theorem eq_of_scoped (h : Regular g u) (hm : .str metadataMarker ∈ g.values u typeName)
    (hs : .str scope ∈ g.values u scopes) : g.values u scopes = [.str scope] := by
  obtain ⟨s, he⟩ := h.oneScope hm
  rw [he, List.mem_singleton] at hs
  rw [he, hs]

theorem backed_of_keepsSources (h : Regular g u) (hs : KeepsSources g g') (hv : v ∈ g.edges u metaSource) :
    .str metadataMarker ∈ g'.values v typeName ∧ ∃ s, .str s ∈ g'.values v scopes ∧ .str s ∈ g.values u scopes := by
  obtain ⟨hm, s, hsv, hsu⟩ := h.backed v hv
  obtain ⟨hm', hkeep⟩ := hs v hm
  exact ⟨hm', s, hkeep s hsv, hsu⟩

theorem kept (h : Regular g u) (hk : Kept g g' u) (hs : KeepsSources g g') : Regular g' u := by
  obtain ⟨htype, htie⟩ := hk metaType (by decide)
  obtain ⟨hmark, -⟩ := hk typeName (by decide)
  obtain ⟨-, hparent⟩ := hk metaParent (by decide)
  obtain ⟨-, hsource⟩ := hk metaSource (by decide)
  obtain ⟨hscopes, -⟩ := hk scopes (by decide)
  constructor
  · rw [htype]
    exact h.named
  · rw [htie]
    exact h.untied
  · rw [hmark]
    exact h.marked
  · rw [htype, hmark]
    exact h.apart
  · rw [hparent, htype]
    exact h.typed
  · rw [hparent]
    exact h.oneParent
  · rw [hsource]
    exact h.oneSource
  · rw [hmark, hscopes]
    exact h.oneScope
  · intro v hv
    rw [hsource] at hv
    rw [hscopes]
    exact h.backed_of_keepsSources hs hv

end Regular

theorem Stamped.regular {typeName : String} (h : Stamped g scope typeName id u) : Regular g u := by
  have hparent := h.edges metaParent (by decide)
  have hsource := h.edges metaSource (by decide)
  constructor
  · exact .inl h.plain
  · exact h.edges metaType (by decide)
  · exact .inr ⟨_, h.marker⟩
  · intro ht
    exact absurd h.plain ht
  · simp [hparent]
  · simp [hparent]
  · simp [hsource]
  · rw [h.marker]
    simp +decide
  · simp [hsource]

section Written

variable {parent : Option Uid}

theorem TypeMade.keepsSources {ss : List String} (hm : TypeMade g g' u name w parent ss) : KeepsSources g g' := by
  intro v hv
  refine (hm.others v ?_).keepsSource hv
  rintro rfl
  exact hm.new (contains_of_mem_values hv)

theorem TypeMade.regular {ss : List String} (hm : TypeMade g g' u name w parent ss) (hc : g.contains w = true)
    (hw : isSourceIn g ss w = true) : Regular g' u := by
  constructor
  · exact .inr ⟨_, hm.name⟩
  · exact hm.unmarked.2
  · exact .inl hm.unmarked.1
  · exact fun _ => hm.unmarked.1
  · simp [hm.name]
  · intro x hx y hy
    exact Option.some.inj (((hm.parent x).1 hx).symm.trans ((hm.parent y).1 hy))
  · intro x hx y hy
    exact ((hm.source x).1 hx).trans ((hm.source y).1 hy).symm
  · simp [hm.unmarked.1]
  · intro x hx
    obtain rfl := (hm.source x).1 hx
    obtain ⟨hmark, hin⟩ := Bool.and_eq_true_iff.1 hw
    obtain ⟨s, hmem, hsx⟩ := inScopes_iff.1 hin
    obtain ⟨hmark', hkeep⟩ := hm.keepsSources x (of_decide_eq_true hmark)
    exact ⟨hmark', s, hkeep s hsx, (hm.scopes s).2 hmem⟩

theorem TypeChanged.keepsSources {ss : List String} (hm : TypeChanged g g' u parent ss) (hu : Regular g u)
    (ht : g.values u metaType ≠ []) : KeepsSources g g' := by
  intro v hv
  refine (hm.others v ?_).keepsSource hv
  rintro rfl
  exact hu.not_marked ht _ hv

theorem TypeChanged.regular {ss : List String} (hm : TypeChanged g g' u parent ss) (hu : Regular g u)
    (ht : g.values u metaType ≠ []) : Regular g' u := by
  have htype := hm.values metaType (by decide) (by decide)
  have htie := hm.edges metaType (by decide) (by decide)
  have hmark := hm.values typeName (by decide) (by decide)
  have hsource := hm.edges metaSource (by decide) (by decide)
  constructor
  · rw [htype]
    exact hu.named
  · rw [htie]
    exact hu.untied
  · rw [hmark]
    exact hu.marked
  · rw [htype, hmark]
    exact hu.apart
  · rw [htype]
    exact fun _ _ => ht
  · intro x hx y hy
    cases hp : parent with
    | none =>
        rw [hm.parent, hp] at hx hy
        simp only [reduceCtorEq, true_and, false_or] at hx hy
        exact hu.oneParent x hx y hy
    | some z =>
        rw [hm.parent, hp] at hx hy
        simp only [Option.some.injEq, reduceCtorEq, false_and, or_false] at hx hy
        exact hx.symm.trans hy
  · rw [hsource]
    exact hu.oneSource
  · simp [hmark, hu.apart ht]
  · intro x hx
    rw [hsource] at hx
    obtain ⟨hmark', s, hsx, hsv⟩ := hu.backed_of_keepsSources (hm.keepsSources hu ht) hx
    exact ⟨hmark', s, hsx, (hm.scopes s).2 (.inr hsv)⟩

variable (hm : SourceWritten g g' us scope)

include hm

theorem SourceWritten.keepsSources : KeepsSources g g' := by
  intro v hv
  by_cases hmem : v ∈ us
  · rw [hm.marked v hmem, hm.scopes v hmem]
    exact ⟨by simp, fun s hs => mem_put_str.2 (.inr ⟨rfl, hs⟩)⟩
  · exact (hm.others v hmem).keepsSource hv

theorem SourceWritten.placed (hu : Regular g u) (hmem : u ∈ us) :
    g.values u metaType = [] ∧ g'.values u Vocabulary.scopes = [.str scope] := by
  rw [hm.scopes u hmem]
  by_cases hc : g.contains u = true
  · obtain ⟨hmark, hin⟩ := Bool.and_eq_true_iff.1 (hm.known u hmem hc)
    obtain ⟨s, hs, hsu⟩ := inScopes_iff.1 hin
    obtain rfl := List.mem_singleton.1 hs
    have hmark := of_decide_eq_true hmark
    refine ⟨Classical.byContradiction fun ht => hu.not_marked ht _ hmark, ?_⟩
    rw [hu.eq_of_scoped hmark hsu]
    simp [put, Json.same_refl]
  · rw [values_of_not_contains g _ hc, values_of_not_contains g _ hc]
    exact ⟨rfl, rfl⟩

theorem SourceWritten.regular (hu : Regular g u) (hmem : u ∈ us) : Regular g' u := by
  obtain ⟨hnil, hin⟩ := hm.placed hu hmem
  have htype := hm.values u hmem metaType (by decide) (by decide) (by decide)
  have hedges := fun p hp => hm.edges u hmem p hp
  constructor
  · rw [htype]
    exact hu.named
  · rw [hedges metaType (by decide)]
    exact hu.untied
  · exact .inr ⟨_, hm.marked u hmem⟩
  · rw [htype]
    exact fun ht => absurd hnil ht
  · rw [hedges metaParent (by decide), htype]
    exact hu.typed
  · rw [hedges metaParent (by decide)]
    exact hu.oneParent
  · rw [hedges metaSource (by decide)]
    exact hu.oneSource
  · exact fun _ => ⟨_, hin⟩
  · intro x hx
    rw [hedges metaSource (by decide)] at hx
    obtain ⟨hmark', s, hsx, hsu⟩ := hu.backed_of_keepsSources hm.keepsSources hx
    rw [hm.scopes u hmem]
    exact ⟨hmark', s, hsx, mem_put_str.2 (.inr ⟨rfl, hsu⟩)⟩

end Written

theorem mem_visibleTypes_values {scopes : List String} (h : Regular g u) (hu : u ∈ Hierarchy.visibleTypes g scopes) :
    g.values u metaType ≠ [] := by
  obtain ⟨-, hhas, -⟩ := Hierarchy.mem_visibleTypes.1 hu
  intro hnil
  simp [has, hnil, h.untied, OrderedSet.isEmpty, OrderedSet.empty] at hhas

theorem visible_of_values {scopes : List String} (hu : g.values u metaType ≠ []) (hs : g.inScopes scopes u = true) :
    u ∈ Hierarchy.visibleTypes g scopes := by
  refine Hierarchy.mem_visibleTypes.2 ⟨contains_of_values hu, ?_, hs⟩
  simp [has, hu]

theorem kept_of_cleared (h : Cleared us g g') (hu : u ∉ us) : Kept g g' u := by
  intro p _
  rw [h.values, h.edges, if_neg hu, if_neg hu]
  exact ⟨rfl, rfl⟩

theorem idle_of_cleared (h : Cleared us g g') (hu : u ∈ us) : Idle g' u := by
  intro p hp
  rw [h.values, h.edges, if_pos hu, if_pos hu, if_neg (Ne.symm (ne_of_tracked hp (by decide)))]
  exact ⟨rfl, rfl⟩

theorem kept_of_purged (h : InstancesPurged g g') {p : String} (hp : p ∈ tracked) (hv : g'.values u p ≠ []) :
    Kept g g' u := by
  induction h with
  | refl => exact fun _ _ => ⟨rfl, rfl⟩
  | tail _ hstep ih =>
      obtain ⟨us, -, hc⟩ := hstep
      have hk := kept_of_cleared hc fun hu => hv (idle_of_cleared hc hu p hp).1
      rw [(hk p hp).1] at hv
      exact (ih hv).trans hk

namespace Coherent

theorem redeclared (h : Coherent g) {ps : Table String Schema.PredicateStatement}
    {ts : Table String Schema.TypeStatement} (hd : Declared { g with predicates := ps, types := ts }) :
    Coherent { g with predicates := ps, types := ts } :=
  ⟨⟨h.intact.fresh, h.intact.mirrored, h.intact.closed⟩, hd, fun u => by
    have hk : Kept g { g with predicates := ps, types := ts } u := fun p _ => ⟨rfl, rfl⟩
    exact (h.regular u).kept hk fun w hw => ⟨hw, fun s hs => hs⟩⟩

theorem typeMade (h : Coherent g) (hi : g'.Intact) (hd : Declared g') {parent : Option Uid} {scopes : List String}
    (hm : TypeMade g g' u name w parent scopes) (hc : g.contains w = true) (hw : isSourceIn g scopes w = true) :
    Coherent g' := by
  refine ⟨hi, hd, fun v => ?_⟩
  by_cases hv : v = u
  · exact hv ▸ hm.regular hc hw
  · exact (h.regular v).kept (hm.others v hv) hm.keepsSources

theorem typeChanged (h : Coherent g) (hi : g'.Intact) (hd : Declared g') {parent : Option Uid} {scopes : List String}
    (ht : g.values u metaType ≠ []) (hm : TypeChanged g g' u parent scopes) : Coherent g' := by
  refine ⟨hi, hd, fun v => ?_⟩
  by_cases hv : v = u
  · exact hv ▸ hm.regular (h.regular u) ht
  · exact (h.regular v).kept (hm.others v hv) (hm.keepsSources (h.regular u) ht)

theorem sourceWritten (h : Coherent g) (hi : g'.Intact) (hd : Declared g') (hm : SourceWritten g g' us scope) :
    Coherent g' := by
  refine ⟨hi, hd, fun v => ?_⟩
  by_cases hv : v ∈ us
  · exact hm.regular (h.regular v) hv
  · exact (h.regular v).kept (hm.others v hv) hm.keepsSources

theorem of_placed (h : Coherent g) (hi : g'.Intact) (hd : Declared g')
    (hnew : ∀ w, Kept g g' w ∨ (¬g.contains w = true ∧ Regular g' w)) : Coherent g' := by
  have hs : KeepsSources g g' := by
    intro v hv
    rcases hnew v with hk | ⟨hn, -⟩
    · exact hk.keepsSource hv
    · exact absurd (contains_of_mem_values hv) hn
  refine ⟨hi, hd, fun v => ?_⟩
  rcases hnew v with hk | ⟨-, hr⟩
  · exact (h.regular v).kept hk hs
  · exact hr

theorem instanceWritten (h : Coherent g) (hi : g'.Intact) (hd : Declared g') {typeName : String}
    {parent : Option (String × String)} {own stub : Option Uid}
    (hm : InstanceWritten g g' scope typeName id parent own stub) : Coherent g' := by
  refine h.of_placed hi hd fun w => ?_
  by_cases hown : own = some w
  · have hp := hm.owned
    rw [hown] at hp
    exact .inr ⟨hp.1, hp.2.1.regular⟩
  · by_cases hstub : stub = some w
    · have hp := hm.stubbed
      rw [hstub] at hp
      cases parent with
      | none => cases hp
      | some k => exact .inr ⟨hp.1, hp.2.1.regular⟩
    · exact .inl (hm.others w hown hstub)

theorem cleared (h : Coherent g) (hus : ∀ u ∈ us, .str metadataMarker ∉ g.values u typeName)
    (hm : Cleared us g g') : Coherent g' := by
  have hs : KeepsSources g g' := fun v hv => (kept_of_cleared hm fun hmem => hus v hmem hv).keepsSource hv
  refine ⟨hm.intact, h.declared.of_predicates hm.schema.1, fun v => ?_⟩
  by_cases hv : v ∈ us
  · exact (idle_of_cleared hm hv).regular
  · exact (h.regular v).kept (kept_of_cleared hm hv) hs

theorem instancesPurged (h : Coherent g) (hm : InstancesPurged g g') : Coherent g' := by
  induction hm with
  | refl => exact h
  | tail _ hstep ih =>
      obtain ⟨us, hus, hc⟩ := hstep
      refine ih.cleared (fun u hu hsource => ?_) hc
      exact absurd ((ih.regular u).eq_of_marked hsource (hus u hu)) (by decide)

/-- Types outlast whatever is deleted of instances. -/
theorem kept_of_named (h : Coherent g) (hm : InstancesPurged g g') (hu : g.values u metaType ≠ []) : Kept g g' u := by
  induction hm with
  | refl => exact fun _ _ => ⟨rfl, rfl⟩
  | tail hfirst hstep ih =>
      obtain ⟨us, hus, hc⟩ := hstep
      refine ih.trans (kept_of_cleared hc fun hmem => ?_)
      rw [← (ih metaType (by decide)).1] at hu
      exact ((h.instancesPurged hfirst).regular u).not_marked hu _ (hus u hmem)

end Coherent

end Inventory.Repository
