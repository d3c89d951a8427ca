import Mathlib.Logic.Relation

/-!
Links of which those out of one element are changed: which ways there are then, and when they close a cycle.
-/

namespace Inventory.Relinking

open Relation

variable {α : Type} {r r' : α → α → Prop} {u p a b : α}

/-- No way leads back to where it begins. -/
def Acyclic (r : α → α → Prop) : Prop := ∀ a, ¬TransGen r a a

theorem acyclic_mono (hr : ∀ a b, r' a b → r a b) (h : Acyclic r) : Acyclic r' :=
  fun a ha => h a (TransGen.mono hr a a ha)

/-- With a new link out of `u`, a way leads by old links only, or to `u` and on from where the new link leads. -/
theorem way_of_moved (hu : ∀ q, r' u q → q = p) (hout : ∀ w q, w ≠ u → r' w q → r w q) (h : TransGen r' a b) :
    TransGen r a b ∨ (ReflTransGen r a u ∧ ReflTransGen r p b) := by
  induction h with
  | @single b h =>
      by_cases ha : a = u
      · subst ha
        obtain rfl := hu b h
        exact .inr ⟨.refl, .refl⟩
      · exact .inl (.single (hout _ _ ha h))
  | @tail b d _ h ih =>
      by_cases hb : b = u
      · subst hb
        obtain rfl := hu d h
        rcases ih with hab | ⟨ha, -⟩
        · exact .inr ⟨hab.to_reflTransGen, .refl⟩
        · exact .inr ⟨ha, .refl⟩
      · have hd := hout _ _ hb h
        rcases ih with hab | ⟨ha, hp⟩
        · exact .inl (hab.tail hd)
        · exact .inr ⟨ha, hp.tail hd⟩

theorem way_kept (hout : ∀ w q, w ≠ u → r w q → r' w q) (h : TransGen r p u) : p = u ∨ TransGen r' p u := by
  induction h using TransGen.head_induction_on with
  | @single a h =>
      by_cases ha : a = u
      · exact .inl ha
      · exact .inr (.single (hout _ _ ha h))
  | @head a b h _ ih =>
      by_cases ha : a = u
      · exact .inl ha
      · have hab := hout _ _ ha h
        rcases ih with rfl | hb
        · exact .inr (.single hab)
        · exact .inr (hb.head hab)

/-- A new link closes a cycle only if a way led from its end to its beginning. -/
theorem acyclic_of_moved (hu : ∀ q, r' u q → q = p) (hout : ∀ w q, w ≠ u → r' w q → r w q) (hne : p ≠ u)
    (hway : ¬TransGen r p u) (h : Acyclic r) : Acyclic r' := by
  intro a ha
  rcases way_of_moved hu hout ha with hold | ⟨hau, hpa⟩
  · exact h a hold
  · rcases reflTransGen_iff_eq_or_transGen.1 (hpa.trans hau) with he | hpu
    · exact hne he.symm
    · exact hway hpu

end Inventory.Relinking
