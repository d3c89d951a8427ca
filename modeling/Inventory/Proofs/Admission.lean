import Inventory.Admission
import Inventory.Proofs.Outcome

/-!
What is known of definitions and changes that have been admitted. The attributes of a type that has been defined and
extended, however often, differ in their names and are not marked alike.
-/

namespace Inventory.Admission

open Text Outcome

variable {existing : List EquipmentType} {t : EquipmentType} {u : Unit} {columns : NameSet} {taken taken' : Taken}
  {a : Attribute} {as : List Attribute}

theorem ensure_ok_iff {ok : Bool} {v : Violation} : ensure ok v = .ok u ↔ ok = true := by
  cases ok <;> simp [ensure]

theorem names_of_checkTypeName {name : String} (h : checkTypeName existing name = .ok u) :
    ∀ t ∈ existing, LetterCase.sameLetters t.typeName name = false := by
  have hnone := ensure_ok_iff.1 h
  simpa using hnone

theorem sources_of_checkSource {id : String} (h : checkSource existing id = .ok u) :
    ∀ t ∈ existing, t.sourceId ≠ id := by
  unfold checkSource at h
  split at h
  · cases h
  · rename_i hnone
    intro t ht he
    simpa [he] using List.find?_eq_none.1 hnone t ht

theorem parent_of_checkCreation {columns : NameSet} (h : checkCreation columns existing t = .ok u) {p : String}
    (hp : t.parent? = some p) : ∃ e ∈ existing, e.id = p := by
  obtain ⟨⟨⟩, -, h⟩ := bind_ok_iff.1 h
  obtain ⟨⟨⟩, h, -⟩ := bind_ok_iff.1 h
  rw [hp] at h
  simpa using ensure_ok_iff.1 h

theorem parent_of_checkParentChange {p : String} {descendants : List String} {occupied : Bool}
    (h : checkParentChange t p existing descendants occupied = .ok u) :
    p ≠ t.id ∧ (∃ e ∈ existing, e.id = p) ∧ p ∉ descendants ∧ (t.parent?.isSome = true → occupied = false) := by
  obtain ⟨⟨⟩, hself, h⟩ := bind_ok_iff.1 h
  obtain ⟨⟨⟩, hfound, h⟩ := bind_ok_iff.1 h
  obtain ⟨⟨⟩, habove, h⟩ := bind_ok_iff.1 h
  rw [ensure_ok_iff] at hself hfound habove h
  refine ⟨by simpa using hself, by simpa using hfound, by simpa using habove, fun hp => ?_⟩
  simpa [hp] using h

theorem vacant_of_checkDeletion {hasChildren occupied : Bool} (h : checkDeletion t hasChildren occupied = .ok u) :
    hasChildren = false ∧ occupied = false := by
  obtain ⟨⟨⟩, hchildren, h⟩ := bind_ok_iff.1 h
  rw [ensure_ok_iff] at hchildren h
  simp_all

section Attributes

/-- An attribute that has been found fit to stand beside those that are taken. -/
structure Registered (columns : NameSet) (taken : Taken) (a : Attribute) : Prop where
  safe : isSafeAttributeName a.name = true
  name : LetterCase.capitalized a.name ∉ taken.names
  mapped : a.mappedTo ∈ columns
  column : taken.owners.lookup a.mappedTo = none

theorem register_ok_iff :
    taken.register columns a = .ok taken' ↔ Registered columns taken a ∧ taken' = taken.add a := by
  rw [Taken.register, check_bind_ok_iff, check_bind_ok_iff, check_bind_ok_iff, ensure_ok_iff, ensure_ok_iff,
    ensure_ok_iff]
  constructor
  · rintro ⟨hsafe, hnew, hmapped, h⟩
    split at h
    · cases h
    · rename_i hnone
      cases h
      exact ⟨⟨hsafe, by simpa using hnew, of_decide_eq_true hmapped, hnone⟩, rfl⟩
  · rintro ⟨⟨hsafe, hnew, hmapped, hnone⟩, rfl⟩
    refine ⟨hsafe, by simpa using hnew, decide_eq_true hmapped, ?_⟩
    rw [hnone]

/-- Names that differ, also in capitals, among themselves and from those taken. -/
def Apart (taken : Taken) (as : List Attribute) : Prop :=
  (as.Pairwise fun a b => LetterCase.capitalized a.name ≠ LetterCase.capitalized b.name) ∧
    ∀ a ∈ as, LetterCase.capitalized a.name ∉ taken.names

theorem apart_of_checkAttributes (h : checkAttributes columns taken as = .ok u) : Apart taken as := by
  induction as generalizing taken with
  | nil => exact ⟨.nil, by simp⟩
  | cons a as ih =>
      obtain ⟨taken', hr, h⟩ := bind_ok_iff.1 h
      obtain ⟨⟨⟩, -, h⟩ := bind_ok_iff.1 h
      obtain ⟨hreg, rfl⟩ := register_ok_iff.1 hr
      obtain ⟨hpairs, hfresh⟩ := ih h
      have hadd : ∀ b ∈ as, LetterCase.capitalized b.name ≠ LetterCase.capitalized a.name ∧
          LetterCase.capitalized b.name ∉ taken.names := by
        intro b hb
        simpa [Taken.add] using hfresh b hb
      refine ⟨List.pairwise_cons.2 ⟨fun b hb => (hadd b hb).1.symm, hpairs⟩, fun b hb => ?_⟩
      rcases List.mem_cons.1 hb with rfl | hb
      · exact hreg.name
      · exact (hadd b hb).2

theorem mem_names_foldl_add {name : List Char} : name ∈ (as.foldl Taken.add taken).names ↔
    name ∈ taken.names ∨ ∃ a ∈ as, LetterCase.capitalized a.name = name := by
  induction as generalizing taken with
  | nil => simp
  | cons a as ih =>
      rw [List.foldl_cons, ih]
      simp only [Taken.add, List.mem_cons, exists_eq_or_imp]
      rw [or_assoc, or_left_comm, eq_comm (a := name)]

theorem pairwise_of_countP {p : Attribute → Bool} (h : as.countP p ≤ 1) :
    as.Pairwise fun a b => ¬(p a = true ∧ p b = true) := by
  induction as with
  | nil => exact .nil
  | cons a as ih =>
      rw [List.countP_cons] at h
      refine List.pairwise_cons.2 ⟨fun b hb => ?_, ih (by omega)⟩
      rintro ⟨ha, hpb⟩
      have hpos : 0 < as.countP p := List.countP_pos_iff.2 ⟨b, hb, hpb⟩
      rw [if_pos ha] at h
      omega

theorem checkIdentifierCount_ok_iff : checkIdentifierCount as = .ok u ↔ as.countP (·.isIdentifier) = 1 := by
  unfold checkIdentifierCount
  generalize as.countP (·.isIdentifier) = n
  match n with
  | 0 | 1 | n + 2 => simp

theorem checkParentKeyCount_ok_iff {hasParent : Bool} : checkParentKeyCount hasParent as = .ok u ↔
    as.countP (·.isParentIdentifier) = if hasParent = true then 1 else 0 := by
  unfold checkParentKeyCount
  generalize as.countP (·.isParentIdentifier) = n
  match hasParent, n with
  | false, 0 | false, n + 1 | true, 0 | true, 1 | true, n + 2 => simp

theorem checkNewKeys_ok (h : checkNewKeys as = .ok u) : as.countP (·.isIdentifier) = 0 := by
  induction as with
  | nil => rfl
  | cons a as ih =>
      obtain ⟨⟨⟩, ha, h⟩ := bind_ok_iff.1 h
      obtain ⟨⟨⟩, ha, -⟩ := bind_ok_iff.1 ha
      rw [ensure_ok_iff] at ha
      rw [List.countP_cons, ih h, if_neg (by simpa using ha)]

/-- A parent identifier is only added to a type that has none. -/
theorem checkNewParentKey_ok {requested : Option String} (h : checkNewParentKey t requested as = .ok u)
    (ht : t.attributes.countP (·.isParentIdentifier) ≤ 1) :
    (t.attributes ++ as).countP (·.isParentIdentifier) ≤ 1 := by
  rw [List.countP_append]
  unfold checkNewParentKey at h
  split at h
  · omega
  · obtain ⟨⟨⟩, hnone, -⟩ := bind_ok_iff.1 h
    rw [ensure_ok_iff] at hnone
    have hnokey : t.parentIdentifier? = none := by simp_all
    have hzero : t.attributes.countP (·.isParentIdentifier) = 0 :=
      List.countP_eq_zero.2 fun a ha => List.find?_eq_none.1 hnokey a ha
    omega
  · cases h

end Attributes

/-- Definitions that have been admitted: a new type, and an admitted one with the attributes of an admitted update
after its own. -/
inductive Defined : EquipmentType → Prop
  | created {columns : NameSet} {existing : List EquipmentType} {t : EquipmentType}
      (h : checkCreation columns existing t = .ok ()) : Defined t
  | extended {columns : NameSet} {t t' : EquipmentType} {parent : Option String} {as : List Attribute}
      (ht : Defined t) (h : checkUpdate columns t parent as = .ok ()) (typeName : t'.typeName = t.typeName)
      (attributes : t'.attributes = t.attributes ++ as) : Defined t'

structure Marked (t : EquipmentType) : Prop where
  names : t.attributes.Pairwise fun a b => LetterCase.capitalized a.name ≠ LetterCase.capitalized b.name
  identifiers : t.attributes.countP (·.isIdentifier) ≤ 1
  parentKeys : t.attributes.countP (·.isParentIdentifier) ≤ 1

theorem marked_of_defined (h : Defined t) : Marked t := by
  induction h with
  | created h =>
      obtain ⟨⟨⟩, -, h⟩ := bind_ok_iff.1 h
      obtain ⟨⟨⟩, -, h⟩ := bind_ok_iff.1 h
      obtain ⟨⟨⟩, hid, h⟩ := bind_ok_iff.1 h
      obtain ⟨⟨⟩, hparent, h⟩ := bind_ok_iff.1 h
      refine ⟨(apart_of_checkAttributes h).1, Nat.le_of_eq (checkIdentifierCount_ok_iff.1 hid), ?_⟩
      rw [checkParentKeyCount_ok_iff.1 hparent]
      split <;> simp
  | @extended columns t t' parent as _ h _ hattributes ih =>
      obtain ⟨⟨⟩, hid, h⟩ := bind_ok_iff.1 h
      obtain ⟨⟨⟩, hparent, h⟩ := bind_ok_iff.1 h
      obtain ⟨hnew, hfresh⟩ := apart_of_checkAttributes h
      constructor
      · rw [hattributes]
        refine List.pairwise_append.2 ⟨ih.names, hnew, fun a ha b hb he => ?_⟩
        exact hfresh b hb (mem_names_foldl_add.2 (.inr ⟨a, ha, he⟩))
      · rw [hattributes, List.countP_append, checkNewKeys_ok hid]
        exact ih.identifiers
      · rw [hattributes]
        exact checkNewParentKey_ok hparent ih.parentKeys

end Inventory.Admission
