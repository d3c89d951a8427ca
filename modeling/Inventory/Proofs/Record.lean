import Inventory.Proofs.Outcome
import Inventory.Record.Upsert
import Inventory.Schema.Declaration

/-!
Attributes of types are kept under predicates of their own, which no other part of an inventory uses.
-/

namespace Inventory

open Outcome

/-- A predicate of an attribute: `equipment.`, the name of a type, a point and a name. -/
def Vocabulary.isAttributePredicate (p : String) : Bool :=
  "equipment.".toList.isPrefixOf p.toList && (p.toList.drop 10).contains '.'

theorem Vocabulary.toList_attributePredicate (typeName name : String) : (attributePredicate typeName name).toList =
    "equipment.".toList ++ (typeName.toList ++ '.' :: (sanitize name).toList) := by
  simp [attributePredicate, toString]

theorem Vocabulary.isAttributePredicate_attributePredicate (typeName name : String) :
    isAttributePredicate (attributePredicate typeName name) = true := by
  rw [isAttributePredicate, toList_attributePredicate]
  simp

/-- Attributes of one type share a predicate when their names are the same once blanks are replaced. -/
theorem Vocabulary.attributePredicate_inj {typeName m n : String} :
    attributePredicate typeName m = attributePredicate typeName n ↔ sanitize m = sanitize n := by
  rw [← String.toList_inj, toList_attributePredicate, toList_attributePredicate, List.append_cancel_left_eq,
    List.append_cancel_left_eq, List.cons.injEq, String.toList_inj]
  exact and_iff_right rfl

theorem Schema.not_isAttributePredicate_base : ∀ p ∈ basePredicates,
    Vocabulary.isAttributePredicate p.predicate = false := by decide +kernel

namespace Record

variable {t : EquipmentType} {payload : List (String × Json)} {r : Record}

theorem fields_of_readAll {fs : List Field} {read : List Reading} (h : readAll payload fs = .ok read) :
    read.map (·.1) = fs := by
  induction fs generalizing read with
  | nil =>
      cases h
      rfl
  | cons f fs ih =>
      obtain ⟨v, -, h⟩ := bind_ok_iff.1 h
      obtain ⟨rest, hr, h⟩ := bind_ok_iff.1 h
      cases h
      rw [List.map_cons, ih hr]

theorem predicate_of_field {f : Field} (hf : f ∈ Field.ofType t) :
    (f.role = .identifier → f.predicate = Vocabulary.identifier) ∧
      (f.role = .plain → Vocabulary.isAttributePredicate f.predicate = true) := by
  obtain ⟨a, -, rfl⟩ := List.mem_map.1 hf
  simp only [Field.ofAttribute, FieldRole.ofAttribute, Listing.predicateOf]
  constructor
  · intro h
    by_cases hi : a.isIdentifier = true
    · rw [if_pos hi]
    · rw [if_neg hi] at h
      split at h <;> cases h
  · intro h
    by_cases hi : a.isIdentifier = true
    · rw [if_pos hi] at h
      cases h
    · rw [if_neg hi] at h ⊢
      by_cases hp : a.isParentIdentifier = true
      · rw [if_pos hp] at h
        cases h
      · rw [if_neg hp]
        exact Vocabulary.isAttributePredicate_attributePredicate _ _

theorem predicate_of_bind (h : bind t payload = .ok r) {f : BoundField} (hf : f ∈ r.values) :
    f.predicate = Vocabulary.identifier ∨ Vocabulary.isAttributePredicate f.predicate = true := by
  unfold bind at h
  split at h
  · cases h
  · rename_i key hkey
    obtain ⟨read, hread, h⟩ := bind_ok_iff.1 h
    split at h
    · cases h
    · cases h
      rcases List.mem_cons.1 hf with rfl | hf
      · refine .inl ((predicate_of_field (List.mem_of_find?_eq_some hkey)).1 ?_)
        simpa using List.find?_some hkey
      · obtain ⟨⟨field, v⟩, hmem, hf⟩ := List.mem_filterMap.1 hf
        by_cases hplain : field.role = .plain
        · simp only [hplain, if_true] at hf
          obtain ⟨x, -, rfl⟩ := Option.map_eq_some_iff.1 hf
          have hfield : field ∈ Field.ofType t := by
            rw [← fields_of_readAll hread]
            exact List.mem_map.2 ⟨_, hmem, rfl⟩
          exact .inr ((predicate_of_field hfield).2 hplain)
        · simp only [hplain, if_false] at hf
          cases hf

theorem parent?_eq_some {typeName id parent : String} {parentType : Option String} :
    r.parent? typeName parentType = .ok (some (id, parent)) ↔
      r.parentIdentifier = some id ∧ parentType = some parent := by
  unfold parent?
  cases r.parentIdentifier <;> cases parentType <;> simp

end Record

end Inventory
