import Inventory.Listing.Filter
import Inventory.Proofs.Admission
import Inventory.Proofs.Record

/-!
The names of an admitted type in queries: its predicates and labels have letters, digits, `_`, `.` and `-` only.
-/

namespace Inventory.SafeNames

open Admission Outcome Listing Query

variable {t : EquipmentType} {a : Attribute} {u : Unit} {name : String}

def Safe (s : String) : Prop := ∀ c ∈ s.toList, Vocabulary.isSafeChar c = true

instance (s : String) : Decidable (Safe s) := List.decidableBAll _ s.toList

/-- A type whose names can stand in predicates. -/
structure Named (t : EquipmentType) : Prop where
  type : Safe t.typeName
  labels : ∀ a ∈ t.attributes, Safe (Vocabulary.sanitize a.name)

theorem safe_of_isSafeName (h : Vocabulary.isSafeName name = true) : Safe name := by
  rw [Vocabulary.isSafeName, Bool.and_eq_true, List.all_eq_true] at h
  exact h.2

theorem named_of_checkNames (h : checkNames t = .ok u) : Named t := by
  obtain ⟨⟨⟩, htype, hattributes⟩ := bind_ok_iff.1 h
  refine ⟨safe_of_isSafeName (ensure_ok_iff.1 htype), fun a ha => safe_of_isSafeName ?_⟩
  exact ensure_ok_iff.1 (forM_ok_iff.1 hattributes a ha)

section Predicates

variable (h : Named t)
include h

theorem Named.attributePredicate (ha : a ∈ t.attributes) : Safe (Vocabulary.attributePredicate t.typeName a.name) := by
  have hhead : Safe "equipment." := by decide
  rw [Safe, Vocabulary.toList_attributePredicate]
  refine List.forall_mem_append.2 ⟨hhead, List.forall_mem_append.2 ⟨h.type, ?_⟩⟩
  exact List.forall_mem_cons.2 ⟨by decide, h.labels a ha⟩

theorem Named.predicateOf (ha : a ∈ t.attributes) : Safe (predicateOf t a) := by
  unfold Listing.predicateOf
  split
  · decide
  · split
    · decide
    · exact h.attributePredicate ha

theorem Named.sortPredicate (sortBy : String) : Safe (sortPredicate t sortBy) := by
  have hidentifier : Safe Vocabulary.identifier := by decide
  unfold Listing.sortPredicate
  split
  · exact hidentifier
  · split
    · rename_i a ha
      split
      · exact hidentifier
      · exact h.attributePredicate (List.mem_of_find?_eq_some ha)
    · exact hidentifier

theorem Named.attributeSelection {all : Bool} {s : Selection} (ha : a ∈ t.attributes)
    (hs : attributeSelection? t all a = some s) :
    (∃ p, s = .field (Vocabulary.sanitize a.name) p ∧ Safe p) ∨
      s = .edge (Vocabulary.sanitize a.name) ⟨Vocabulary.parent, false⟩
        [.field idLabel Vocabulary.uid, .field identifierLabel Vocabulary.identifier] := by
  have hidentifier : Safe Vocabulary.identifier := by decide
  unfold attributeSelection? at hs
  split at hs
  · cases hs
    exact .inl ⟨_, rfl, hidentifier⟩
  · split at hs
    · split at hs
      · cases hs
        exact .inr rfl
      · cases hs
    · split at hs
      · cases hs
        exact .inl ⟨_, rfl, h.attributePredicate ha⟩
      · cases hs

end Predicates

end Inventory.SafeNames
