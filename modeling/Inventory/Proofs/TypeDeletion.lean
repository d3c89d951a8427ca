import Inventory.Proofs.TypeNames

/-!
The deletion of types. Children and instances are looked for in the scope of the deletion alone, though a type may be in
others, so that it is free to go exactly if none are out of sight there.
-/

namespace Inventory.TypeDeletion

open Inventory.Graph Repository Vocabulary TypeNames

variable {g : Graph} {scope name : String} {u : Uid} {s : Store} {r : Repository} {k : Guard}

/-- A type that no type is below, and of which there is no instance in any of its scopes. -/
structure Deserted (g : Graph) (name : String) (u : Uid) : Prop where
  childless : ∀ v, u ∉ g.edges v metaParent
  vacant : ∀ scope w, .str scope ∈ g.values u scopes → ¬InstanceIn g scope name w

/-- A type below, or an instance in one of the scopes of the type, is not in the scope given. -/
def Overlooks (g : Graph) (scope name : String) (u : Uid) : Prop :=
  (∃ v, u ∈ g.edges v metaParent ∧ .str scope ∉ g.values v scopes) ∨
    ∃ other w, .str other ∈ g.values u scopes ∧ InstanceIn g other name w ∧ .str scope ∉ g.values w scopes

/-- What is left of a type that may be deleted in a scope is out of sight there. -/
theorem deserted_of_deletable (hu : Deletable g scope name u) (hsize : g.size < 1 <<< 64) :
    Deserted g name u ↔ ¬Overlooks g scope name u := by
  constructor
  · rintro h (⟨v, hv, -⟩ | ⟨other, w, hother, hw, -⟩)
    · exact h.childless v hv
    · exact h.vacant other w hother hw
  · intro h
    refine ⟨fun v hv => h (.inl ⟨v, hv, hu.childless v hv⟩), fun other w hother hw => ?_⟩
    exact h (.inr ⟨other, w, hother, hw, hu.vacant hsize w hw.2.2⟩)

/-- A deletion that is carried out empties one type of the name in the scope. At that moment it has no children in any
scope and no instances in its own scopes exactly if none of them are out of sight. -/
theorem deserted_iff (r : Repository) (refusals : Refusals) (cs : List Change)
    (hsize : (after r (bootstrapped refusals) cs).graph.size < 1 <<< 64)
    (h : (perform (r.deleteType k name scope) (after r (bootstrapped refusals) cs)).1 = .ok ()) :
    ∃ u, Named (after r (bootstrapped refusals) cs).graph scope name u ∧
      Cleared [u] (after r (bootstrapped refusals) cs).graph
        (after r (bootstrapped refusals) (cs ++ [.deleteType k name scope])).graph ∧
      (Deserted (after r (bootstrapped refusals) cs).graph name u ↔
        ¬Overlooks (after r (bootstrapped refusals) cs).graph scope name u) := by
  have hs := coherent_after (r := r) (coherent_bootstrapped refusals) cs
  rw [after_concat]
  generalize after r (bootstrapped refusals) cs = s at hs hsize h ⊢
  have hrun : perform (r.deleteType k name scope) s =
    ((perform (r.deleteType k name scope) s).1, (Change.deleteType k name scope).run r s) := rfl
  rcases deleteType_cases hs hrun with ⟨-, e, he⟩ | ⟨u, hu, hc⟩
  · rw [he] at h
    cases h
  · exact ⟨u, ⟨hu.named, hu.placed⟩, hc, deserted_of_deletable hu hsize⟩

section OtherScope

/-- `rack` in two scopes, with a type below it and an instance of it in one of them. -/
def otherScope : List Change :=
  [.upsertSource ((MetadataSource.equipment "a" "s1").withColumns ["id", "up"]),
    .upsertSource ((MetadataSource.equipment "b" "s2").withColumns ["id", "up"]),
    .createType ⟨0⟩ ((((EquipmentType.new "rack" "0x1").withScope "s1").withScope "s2").withAttribute
      (.identifier "key" "id")),
    .createType ⟨0⟩ (((((EquipmentType.new "blade" "0x2").withScope "s2").withAttribute (.identifier "key" "id")
      ).withAttribute (.parentIdentifier "up" "up")).withParent "0x3"),
    .upsertInstance ⟨0⟩ "s2" "rack" [("id", .str "x")] 0]

set_option maxRecDepth 100000 in
theorem cells_otherScope : (after ⟨0, .standard⟩ (bootstrapped .none) otherScope).graph.size < 1 <<< 64 ∧
    (perform (Repository.deleteType ⟨0, .standard⟩ ⟨0⟩ "rack" "s1")
      (after ⟨0, .standard⟩ (bootstrapped .none) otherScope)).1 = .ok () ∧
    (after ⟨0, .standard⟩ (bootstrapped .none) (otherScope ++ [.deleteType ⟨0⟩ "rack" "s1"])).graph.values ⟨3⟩ recycle =
      [.str "true"] ∧
    (after ⟨0, .standard⟩ (bootstrapped .none) otherScope).graph.values ⟨3⟩ metaType = [.str "rack"] ∧
    (after ⟨0, .standard⟩ (bootstrapped .none) otherScope).graph.values ⟨3⟩ scopes = [.str "s1", .str "s2"] ∧
    ⟨3⟩ ∈ (after ⟨0, .standard⟩ (bootstrapped .none) otherScope).graph.edges ⟨5⟩ metaParent ∧
    InstanceIn (after ⟨0, .standard⟩ (bootstrapped .none) otherScope).graph "s2" "rack" ⟨8⟩ := by
  unfold InstanceIn
  decide +kernel

/-- The deletion in the one scope. -/
theorem deserted_iff_otherScope : ∃ u,
    Named (after ⟨0, .standard⟩ (bootstrapped .none) otherScope).graph "s1" "rack" u ∧
    Cleared [u] (after ⟨0, .standard⟩ (bootstrapped .none) otherScope).graph
      (after ⟨0, .standard⟩ (bootstrapped .none) (otherScope ++ [.deleteType ⟨0⟩ "rack" "s1"])).graph ∧
    (Deserted (after ⟨0, .standard⟩ (bootstrapped .none) otherScope).graph "rack" u ↔
      ¬Overlooks (after ⟨0, .standard⟩ (bootstrapped .none) otherScope).graph "s1" "rack" u) := by
  obtain ⟨hsize, hdeleted, -⟩ := cells_otherScope
  exact deserted_iff ⟨0, .standard⟩ .none otherScope hsize hdeleted

/-- It is carried out in spite of the child and the instance that the type has in the other scope. -/
theorem not_deserted_otherScope : (perform (Repository.deleteType ⟨0, .standard⟩ ⟨0⟩ "rack" "s1")
      (after ⟨0, .standard⟩ (bootstrapped .none) otherScope)).1 = .ok () ∧
    ∃ u, Named (after ⟨0, .standard⟩ (bootstrapped .none) otherScope).graph "s1" "rack" u ∧
      (after ⟨0, .standard⟩ (bootstrapped .none) (otherScope ++ [.deleteType ⟨0⟩ "rack" "s1"])).graph.values u recycle =
        [.str "true"] ∧
      (¬∀ v, u ∉ (after ⟨0, .standard⟩ (bootstrapped .none) otherScope).graph.edges v metaParent) ∧
      ¬∀ scope w, .str scope ∈ (after ⟨0, .standard⟩ (bootstrapped .none) otherScope).graph.values u scopes →
        ¬InstanceIn (after ⟨0, .standard⟩ (bootstrapped .none) otherScope).graph scope "rack" w := by
  obtain ⟨-, hdeleted, hrecycled, hname, hscopes, hchild, hinstance⟩ := cells_otherScope
  refine ⟨hdeleted, ⟨3⟩, ?_, hrecycled, fun hn => hn ⟨5⟩ hchild, fun hn => hn "s2" ⟨8⟩ ?_ hinstance⟩
  · exact ⟨by rw [hname]; exact List.mem_singleton_self _, by rw [hscopes]; exact List.mem_cons_self⟩
  · rw [hscopes]
    exact List.mem_cons_of_mem _ List.mem_cons_self

end OtherScope

end Inventory.TypeDeletion
