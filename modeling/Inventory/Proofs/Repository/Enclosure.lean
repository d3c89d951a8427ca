import Inventory.Proofs.Repository.Alike
import Inventory.Proofs.Repository.Entities

/-!
Scopes keep instances apart. An instance is in one scope, and hangs only on instances of that scope or on what is left
of deleted ones, so that whatever is written to the instances of one scope cannot be seen from the others.
-/

namespace Inventory.Repository

open Inventory.Graph Store Vocabulary

variable {r : Repository} {s s' : Store} {c : Change} {g g' g'' : Graph} {u v w : Uid} {us : List Uid}
  {scope t : String}

structure Fenced (g : Graph) : Prop where
  single : ∀ u, .str equipmentMarker ∈ g.values u typeName → ∃ scope, g.values u scopes = [.str scope]
  linked : ∀ u v, v ∈ g.edges u parent → ∃ scope, Sited g scope u ∧ (Sited g scope v ∨ Idle g v)

section Invariant

theorem Sited.kept (h : Sited g scope u) (hk : Kept g g' u) : Sited g' scope u := by
  obtain ⟨hmark, hscope⟩ := h
  rw [← (hk typeName (by decide)).1] at hmark
  rw [← (hk scopes (by decide)).1] at hscope
  exact ⟨hmark, hscope⟩

theorem Sited.of_same (h : Sited g' scope u) (hs : Same g g' u) : Sited g scope u := by
  rwa [Sited, (hs _).1, (hs _).1] at h

theorem Idle.not_inScopes (h : Idle g u) (ss : List String) : g.inScopes ss u = false := by
  rw [Graph.inScopes, (h scopes (by decide)).1]
  exact Bool.eq_false_iff.2 fun hin => by
    obtain ⟨s, -, hs⟩ := Comparison.valuesMatch_ofStrings_iff.1 hin
    cases hs

theorem Fenced.sited_unique (h : Fenced g) {a b : String} (ha : Sited g a u) (hb : Sited g b u) : a = b := by
  obtain ⟨scope, hs⟩ := h.single u ha.1
  have ha := ha.2
  have hb := hb.2
  rw [hs, List.mem_singleton, Json.str.injEq] at ha hb
  exact ha.trans hb.symm

/-- Fences stand where instances and what they hang on are kept, and new ones are made in one scope. -/
theorem Fenced.of_kept (h : Fenced g) (hg : g.Intact)
    (hk : ∀ u, g.contains u = true → .str equipmentMarker ∈ g.values u typeName ∨ Idle g u → Kept g g' u)
    (hsingle : ∀ u, .str equipmentMarker ∈ g'.values u typeName →
      Kept g g' u ∨ ∃ scope, g'.values u scopes = [.str scope])
    (hlinks : ∀ u v, v ∈ g'.edges u parent → v ∈ g.edges u parent ∨ ∃ scope, Sited g' scope u ∧ Sited g' scope v) :
    Fenced g' := by
  refine ⟨fun u hu => ?_, fun u v hv => ?_⟩
  · rcases hsingle u hu with hku | hone
    · rw [(hku typeName (by decide)).1] at hu
      rw [(hku scopes (by decide)).1]
      exact h.single u hu
    · exact hone
  · rcases hlinks u v hv with hold | ⟨scope, hu, hv⟩
    · obtain ⟨scope, hu, hv⟩ := h.linked u v hold
      have hc := hg.closed u parent v hold
      refine ⟨scope, hu.kept (hk u (contains_of_mem_edges hold) (.inl hu.1)), ?_⟩
      exact hv.imp (fun hv => hv.kept (hk v hc (.inl hv.1))) fun hv => hv.kept (hk v hc (.inr hv))
    · exact ⟨scope, hu, .inl hv⟩

/-- What is emptied hangs on nothing, and what hangs on it is none the worse. -/
theorem Fenced.cleared (h : Fenced g) (hc : Cleared us g g') : Fenced g' := by
  have hkept : ∀ u, u ∉ us → Kept g g' u := fun u hu => kept_of_cleared hc hu
  refine ⟨fun u hu => ?_, fun u v hv => ?_⟩
  · have hk := hkept u (hc.not_mem (by decide) (List.ne_nil_of_mem hu))
    rw [(hk typeName (by decide)).1] at hu
    rw [(hk scopes (by decide)).1]
    exact h.single u hu
  · obtain ⟨scope, hsu, hsv⟩ := h.linked u v (hc.of_mem_edges hv)
    have hu : u ∉ us := by
      intro hmem
      rw [hc.edges, if_pos hmem] at hv
      exact OrderedSet.not_mem_empty hv
    refine ⟨scope, hsu.kept (hkept u hu), ?_⟩
    by_cases hmem : v ∈ us
    · exact .inr (idle_of_cleared hc hmem)
    · exact hsv.imp (·.kept (hkept v hmem)) (·.kept (hkept v hmem))

theorem Fenced.purged (h : Fenced g) (hp : InstancesPurged g g') : Fenced g' := by
  induction hp with
  | refl => exact h
  | tail _ hstep ih => exact ih.cleared hstep.choose_spec.2

theorem Fenced.extended (h : Fenced g) (hg : g.Intact) (he : Extended g g') : Fenced g' := by
  refine h.of_kept hg (fun u hc _ => (he.old u hc).kept) (fun u hu => ?_) fun u v hv => ?_
  · exact .inl (he.same_of_values (p := typeName) (by decide +kernel) (List.ne_nil_of_mem hu)).kept
  · rw [(he.same_of_mem_edges (by decide +kernel) hv parent).2] at hv
    exact .inl hv

theorem Fenced.step (h : Fenced s.graph) (hs : Coherent s.graph) (hstep : Step r s c s') : Fenced s'.graph := by
  by_cases hp : InstancesPurged s.graph s'.graph
  · exact h.purged hp
  · refine h.of_kept hs.intact (fun u hc hu => ?_) (fun u hu => ?_) fun u v hv => ?_
    · exact (hstep.instance_kept_or_purged hs hc hu).resolve_right fun ⟨_, _, _, _, hp'⟩ => hp hp'
    · refine (hstep.kept_or_stamped hs hu).imp_right ?_
      rintro ⟨-, scope, name, id, hst⟩
      exact ⟨scope, hst.scope⟩
    · rcases hstep.links with hold | ⟨k, scope, name, payload, now, t, record, parent, own, stub, -, -, -, -, hm⟩
      · exact .inl (hold u v hv)
      · refine (hm.links u v hv).imp_right ?_
        rintro ⟨key, -, hu, hv⟩
        exact ⟨scope, hu.sited, hv.sited⟩

end Invariant

section Writes

/-- What is written goes to instances of a scope only, be they there or new, and leaves them in that scope. -/
def ConfinedTo (t : String) (g g' : Graph) : Prop := ∀ w, Same g g' w ∨
  (g.contains w = true → Sited g t w) ∧ ∀ s, .str s ∈ g'.values w scopes → s = t

theorem ConfinedTo.refl (t : String) (g : Graph) : ConfinedTo t g g := fun w => .inl (.refl g w)

theorem confinedTo_of_recorded (hf : Fenced g) (h : RecordStored g g' t) : ConfinedTo t g g' := by
  intro w
  refine (h w).imp_right fun hw => ⟨fun hc => (hw.old hc).1, fun s hs => ?_⟩
  by_cases hc : g.contains w = true
  · obtain ⟨hsited, hk⟩ := hw.old hc
    rw [(hk scopes (by decide)).1] at hs
    exact hf.sited_unique ⟨hsited.1, hs⟩ hsited
  · rw [hw.fresh hc, List.mem_singleton, Json.str.injEq] at hs
    exact hs

theorem confinedTo_of_purged (h : PurgedIn t g g') : ConfinedTo t g g' := by
  have hemptied : ∀ w, Same g g' w ∨ Sited g t w ∧ g'.values w scopes = [] := by
    induction h with
    | refl => exact fun w => .inl (.refl g w)
    | tail _ hstep ih =>
        obtain ⟨us, hus, hc⟩ := hstep
        intro w
        by_cases hmem : w ∈ us
        · have hnil := (idle_of_cleared hc hmem scopes (by decide)).1
          rcases ih w with hsame | ⟨hs, -⟩
          · exact .inr ⟨(hus w hmem).of_same hsame, hnil⟩
          · exact .inr ⟨hs, hnil⟩
        · have hsame := same_of_cleared hc hmem
          exact (ih w).imp (·.trans hsame) fun h => ⟨h.1, (hsame scopes).1.trans h.2⟩
  intro w
  refine (hemptied w).imp_right fun h => ⟨fun _ => h.1, fun s hs => ?_⟩
  rw [h.2] at hs
  cases hs

end Writes

section Sight

variable {scopes : List String} (hf : Fenced g) (ht : t ∉ scopes)

include hf ht

theorem Fenced.not_inScopes (hw : Sited g t w) : g.inScopes scopes w = false := by
  refine Bool.eq_false_iff.2 fun hin => ?_
  obtain ⟨s, hs, hscope⟩ := inScopes_iff.1 hin
  exact ht (hf.sited_unique ⟨hw.1, hscope⟩ hw ▸ hs)

theorem ConfinedTo.same_of_inScopes (hc : ConfinedTo t g g') (hw : g.inScopes scopes w = true) : Same g g' w := by
  refine (hc w).resolve_right fun h => ?_
  rw [hf.not_inScopes ht (h.1 (contains_of_inScopes hw))] at hw
  cases hw

/-- What lies beside a node in some scopes, be it above or below, is an instance of none but these scopes. -/
theorem ConfinedTo.same_of_sited (hc : ConfinedTo t g g') (hin : g.inScopes scopes u = true) (hu : Sited g scope u)
    (hw : g.contains w = true) (hv : Sited g scope w ∨ Idle g w) : Same g g' w := by
  refine (hc w).resolve_right fun h => ?_
  have hst := h.1 hw
  rcases hv with hv | hv
  · obtain rfl := hf.sited_unique hv hst
    rw [hf.not_inScopes ht hu] at hin
    cases hin
  · have hmark := hst.1
    rw [(hv typeName (by decide)).1] at hmark
    cases hmark

/-- Scopes see nothing of what is written to the instances of another. -/
theorem alikeIn_of_confined (hf' : Fenced g') (hi : g.Intact) (hi' : g'.Intact) (hschema : SameSchema g g')
    (hc : ConfinedTo t g g') : AlikeIn scopes g g' := by
  have hsame : ∀ u, g.inScopes scopes u = true → Same g g' u := fun u => hc.same_of_inScopes hf ht
  have hbelow : ∀ u, g.inScopes scopes u = true → ∀ v, u ∈ g.edges v parent → Same g g' v := by
    intro u hu v hv
    obtain ⟨scope, hsv, hsu⟩ := hf.linked v u hv
    have hsu : Sited g scope u := hsu.resolve_right fun hvac => by
      rw [hvac.not_inScopes] at hu
      cases hu
    exact hc.same_of_sited hf ht hu hsu (contains_of_mem_edges hv) (.inl hsv)
  refine ⟨fun p => ?_, fun u => ?_, hsame, fun u hu v hv => ?_, fun u hu => ?_, fun u hu v hv => ?_⟩
  · rw [isList, isList, hschema.1]
  · rw [Bool.eq_iff_iff]
    refine ⟨fun hu => ?_, fun hu => ?_⟩
    · rcases hc u with hs | ⟨-, honly⟩
      · rwa [hs.inScopes] at hu
      · obtain ⟨s, hs, hscope⟩ := inScopes_iff.1 hu
        exact absurd (honly s hscope ▸ hs) ht
    · rwa [(hsame u hu).inScopes]
  · obtain ⟨scope, hsu, hsv⟩ := hf.linked u v hv
    exact hc.same_of_sited hf ht hu hsu (hi.closed u parent v hv) hsv
  · ext v
    rw [← hi'.mirrored, ← hi.mirrored]
    refine ⟨fun hv => ?_, fun hv => (hbelow u hu v hv parent).2 ▸ hv⟩
    rcases hc v with hs | ⟨-, honly⟩
    · rwa [(hs parent).2] at hv
    -- a link made to a node in these scopes would put that node in the other scope too
    · obtain ⟨scope, hsv, hsu⟩ := hf'.linked v u hv
      obtain rfl := honly scope hsv.2
      rcases hsu with hsu | hvac
      · rw [hf.not_inScopes ht (hsu.of_same (hsame u hu))] at hu
        cases hu
      · rw [← (hsame u hu).inScopes, hvac.not_inScopes] at hu
        cases hu
  · exact hbelow u hu v ((hi.mirrored v parent u).2 hv)

end Sight

end Inventory.Repository
