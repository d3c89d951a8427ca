import Inventory.Proofs.Admission

/-!
Well-formed definitions. A creation checks all attributes at once, an update only those that are new, beside the names
and columns of the old ones. Either way, what is admitted is well formed as a whole.
-/

namespace Inventory.Admission

open Text Outcome

variable {existing : List EquipmentType} {t t' : EquipmentType} {u : Unit} {columns columns' : NameSet} {taken : Taken}
  {a : Attribute} {as bs : List Attribute}

/-- An attribute whose marks agree with each other and with its type. -/
structure Sound (a : Attribute) : Prop where
  identifier : a.isIdentifier = true → a.dataType = .string ∧ a.isDisplayed = true
  parentIdentifier : a.isParentIdentifier = true → a.dataType = .string ∧ a.isIdentifier = false
  searchable : a.isSearchable = true → a.isDisplayed = true

/-- Attributes that can stand beside each other, over the columns of a source. -/
structure Consistent (columns : NameSet) (as : List Attribute) : Prop where
  names : as.Pairwise fun a b => LetterCase.capitalized a.name ≠ LetterCase.capitalized b.name
  apart : as.Pairwise fun a b => a.mappedTo ≠ b.mappedTo
  safe : ∀ a ∈ as, isSafeAttributeName a.name = true
  mapped : ∀ a ∈ as, a.mappedTo ∈ columns
  sound : ∀ a ∈ as, Sound a

structure WellFormed (columns : NameSet) (t : EquipmentType) : Prop extends Consistent columns t.attributes where
  identifier : t.attributes.countP (·.isIdentifier) = 1
  parentIdentifier : t.attributes.countP (·.isParentIdentifier) = if t.parent?.isSome = true then 1 else 0

theorem checkFlags_ok_iff : checkFlags a = .ok u ↔ Sound a := by
  rw [checkFlags, check_bind_ok_iff, check_bind_ok_iff, check_bind_ok_iff, check_bind_ok_iff]
  simp only [ensure_ok_iff]
  constructor
  · rintro ⟨hboth, htype, hdisplayed, hparent, hsearchable⟩
    constructor
    · intro hi
      simp_all
    · intro hp
      simp_all
    · intro hs
      simp_all
  · rintro ⟨hi, hp, hs⟩
    refine ⟨?_, ?_, ?_, ?_, ?_⟩
    · by_cases h : a.isParentIdentifier = true <;> simp_all
    · by_cases h : a.isIdentifier = true <;> simp_all
    · by_cases h : a.isIdentifier = true <;> simp_all
    · by_cases h : a.isParentIdentifier = true <;> simp_all
    · by_cases h : a.isSearchable = true <;> simp_all

theorem mem_owners_of_lookup {owners : List (String × String)} {c : String} (h : owners.lookup c = none) :
    ∀ o ∈ owners, o.1 ≠ c := by
  intro o ho he
  have hnone := List.lookup_eq_none_iff.1 h o ho
  simp [he] at hnone

theorem mem_owners_foldl_add {o : String × String} : o ∈ (as.foldl Taken.add taken).owners ↔
    o ∈ taken.owners ∨ ∃ a ∈ as, (a.mappedTo, a.name) = o := by
  induction as generalizing taken with
  | nil => simp
  | cons a as ih =>
      rw [List.foldl_cons, ih]
      simp only [Taken.add, List.mem_cons, exists_eq_or_imp]
      rw [or_assoc, or_left_comm, eq_comm (a := o)]

/-- Attributes that have been checked one after another, each beside those before it and those taken. -/
theorem consistent_of_checkAttributes (h : checkAttributes columns taken as = .ok u) :
    Consistent columns as ∧ ∀ a ∈ as, ∀ o ∈ taken.owners, o.1 ≠ a.mappedTo := by
  have hnames := (apart_of_checkAttributes h).1
  induction as generalizing taken with
  | nil => exact ⟨⟨.nil, .nil, by simp, by simp, by simp⟩, by simp⟩
  | cons a as ih =>
      obtain ⟨taken', hr, h⟩ := bind_ok_iff.1 h
      obtain ⟨⟨⟩, hflags, h⟩ := bind_ok_iff.1 h
      obtain ⟨hreg, rfl⟩ := register_ok_iff.1 hr
      obtain ⟨hrest, howners⟩ := ih h (List.pairwise_cons.1 hnames).2
      refine ⟨⟨hnames, ?_, ?_, ?_, ?_⟩, ?_⟩
      · exact List.pairwise_cons.2 ⟨fun b hb => howners b hb (a.mappedTo, a.name) List.mem_cons_self, hrest.apart⟩
      · exact List.forall_mem_cons.2 ⟨hreg.safe, hrest.safe⟩
      · exact List.forall_mem_cons.2 ⟨hreg.mapped, hrest.mapped⟩
      · exact List.forall_mem_cons.2 ⟨checkFlags_ok_iff.1 hflags, hrest.sound⟩
      · refine List.forall_mem_cons.2 ⟨mem_owners_of_lookup hreg.column, fun b hb o ho => ?_⟩
        exact howners b hb o (List.mem_cons_of_mem _ ho)

namespace Consistent

theorem append (ha : Consistent columns as) (hb : Consistent columns bs)
    (hnames : ∀ a ∈ as, ∀ b ∈ bs, LetterCase.capitalized a.name ≠ LetterCase.capitalized b.name)
    (hcolumns : ∀ a ∈ as, ∀ b ∈ bs, a.mappedTo ≠ b.mappedTo) : Consistent columns (as ++ bs) := by
  constructor
  · exact List.pairwise_append.2 ⟨ha.names, hb.names, hnames⟩
  · exact List.pairwise_append.2 ⟨ha.apart, hb.apart, hcolumns⟩
  · exact List.forall_mem_append.2 ⟨ha.safe, hb.safe⟩
  · exact List.forall_mem_append.2 ⟨ha.mapped, hb.mapped⟩
  · exact List.forall_mem_append.2 ⟨ha.sound, hb.sound⟩

theorem mono (h : Consistent columns as) (hc : ∀ c ∈ columns, c ∈ columns') : Consistent columns' as :=
  ⟨h.names, h.apart, h.safe, fun a ha => hc _ (h.mapped a ha), h.sound⟩

end Consistent

/-- Attributes without their ids. -/
def bare (as : List Attribute) : List Attribute := as.map (·.withId "")

theorem bare_append (as bs : List Attribute) : bare (as ++ bs) = bare as ++ bare bs := List.map_append

theorem consistent_bare : Consistent columns (bare as) ↔ Consistent columns as := by
  have hsound : ∀ a : Attribute, Sound (a.withId "") ↔ Sound a :=
    fun a => ⟨fun ⟨hi, hp, hs⟩ => ⟨hi, hp, hs⟩, fun ⟨hi, hp, hs⟩ => ⟨hi, hp, hs⟩⟩
  constructor
  · rintro ⟨hn, ha, hs, hm, hf⟩
    rw [bare, List.pairwise_map] at hn ha
    rw [bare, List.forall_mem_map] at hs hm hf
    exact ⟨hn, ha, hs, hm, fun a h => (hsound a).1 (hf a h)⟩
  · rintro ⟨hn, ha, hs, hm, hf⟩
    constructor
    · rwa [bare, List.pairwise_map]
    · rwa [bare, List.pairwise_map]
    · rwa [bare, List.forall_mem_map]
    · rwa [bare, List.forall_mem_map]
    · rw [bare, List.forall_mem_map]
      exact fun a h => (hsound a).2 (hf a h)

theorem countP_bare (p : Attribute → Bool) (hp : ∀ a : Attribute, p (a.withId "") = p a) :
    (bare as).countP p = as.countP p := by
  rw [bare, List.countP_map]
  exact congrArg (as.countP ·) (funext hp)

theorem countP_of_bare (h : bare as = bare bs) (p : Attribute → Bool)
    (hp : ∀ a : Attribute, p (a.withId "") = p a) : as.countP p = bs.countP p := by
  rw [← countP_bare p hp, h, countP_bare p hp]

namespace WellFormed

theorem mono (h : WellFormed columns t) (hc : ∀ c ∈ columns, c ∈ columns') : WellFormed columns' t :=
  ⟨h.toConsistent.mono hc, h.identifier, h.parentIdentifier⟩

theorem congr (h : WellFormed columns t) (ha : bare t'.attributes = bare t.attributes)
    (hp : t'.parent?.isSome = t.parent?.isSome) : WellFormed columns t' := by
  refine ⟨consistent_bare.1 ?_, ?_, ?_⟩
  · rw [ha]
    exact consistent_bare.2 h.toConsistent
  · rw [countP_of_bare ha _ fun _ => rfl]
    exact h.identifier
  · rw [countP_of_bare ha _ fun _ => rfl, hp]
    exact h.parentIdentifier

theorem of_creation (h : checkCreation columns existing t = .ok u) : WellFormed columns t := by
  obtain ⟨⟨⟩, -, h⟩ := bind_ok_iff.1 h
  obtain ⟨⟨⟩, -, h⟩ := bind_ok_iff.1 h
  obtain ⟨⟨⟩, hid, h⟩ := bind_ok_iff.1 h
  obtain ⟨⟨⟩, hparent, h⟩ := bind_ok_iff.1 h
  exact ⟨(consistent_of_checkAttributes h).1, checkIdentifierCount_ok_iff.1 hid,
    checkParentKeyCount_ok_iff.1 hparent⟩

/-- The new attributes bring a parent identifier just when the type gets its first parent. -/
theorem checkNewParentKey_ok_iff (h : WellFormed columns t) {requested : Option String} :
    checkNewParentKey t requested as = .ok u ↔ (t.attributes ++ as).countP (·.isParentIdentifier) =
      if (t.parent?.isSome || requested.isSome) = true then 1 else 0 := by
  have hkey : t.parentIdentifier?.isSome = t.parent?.isSome := by
    have hp := h.parentIdentifier
    rw [Bool.eq_iff_iff, EquipmentType.parentIdentifier?, List.find?_isSome, ← List.countP_pos_iff, hp]
    cases t.parent?.isSome <;> simp
  rw [List.countP_append, h.parentIdentifier]
  unfold checkNewParentKey
  simp only [hkey]
  generalize as.countP (·.isParentIdentifier) = n
  generalize t.parent?.isSome = hasParent
  split
  · rw [ensure_ok_iff]
    cases hasParent <;> cases requested <;> simp
  · rw [check_bind_ok_iff, ensure_ok_iff, ensure_ok_iff]
    cases hasParent <;> cases requested <;> simp
  · cases hasParent <;> cases requested <;> simp_all

/-- A type stays well formed when it is extended by what an update admits. -/
theorem of_update (h : WellFormed columns t) {parent : Option String} (hu : checkUpdate columns t parent as = .ok u)
    (ha : bare t'.attributes = bare (t.attributes ++ as))
    (hp : t'.parent?.isSome = (t.parent?.isSome || (parent.filter (· ≠ "")).isSome)) : WellFormed columns t' := by
  obtain ⟨⟨⟩, hids, hu⟩ := bind_ok_iff.1 hu
  obtain ⟨⟨⟩, hkey, hu⟩ := bind_ok_iff.1 hu
  obtain ⟨-, hfresh⟩ := apart_of_checkAttributes hu
  obtain ⟨hnew, howners⟩ := consistent_of_checkAttributes hu
  refine ⟨consistent_bare.1 ?_, ?_, ?_⟩
  · rw [ha]
    refine consistent_bare.2 (h.toConsistent.append hnew (fun a ha b hb he => ?_) fun a ha b hb => ?_)
    · exact hfresh b hb (mem_names_foldl_add.2 (.inr ⟨a, ha, he⟩))
    · exact howners b hb (a.mappedTo, a.name) (mem_owners_foldl_add.2 (.inr ⟨a, ha, rfl⟩))
  · rw [countP_of_bare ha _ fun _ => rfl, List.countP_append, checkNewKeys_ok hids]
    exact h.identifier
  · rw [countP_of_bare ha _ fun _ => rfl, hp]
    exact h.checkNewParentKey_ok_iff.1 hkey

end WellFormed

end Inventory.Admission
