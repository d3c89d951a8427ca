import Mathlib
import Inventory.Proofs.SafeNames
import Inventory.Proofs.WellFormed

/-!
The rules for definitions, each by itself. A new type is admitted exactly if its definition keeps to all of them, and
an update exactly if the type that it makes does.
-/

namespace Inventory.TypeRules

open Text Admission Outcome

variable {existing : List EquipmentType} {t : EquipmentType} {u : Unit} {columns : NameSet} {taken : Taken}
  {a : Attribute} {as bs : List Attribute} {c : Char} {name other : String} {parent : Option String}

/-- The rules for a definition over the columns of its source. -/
structure Lawful (columns : NameSet) (t : EquipmentType) : Prop where
  typeName : Vocabulary.isSafeName t.typeName = true
  attributeNames : ∀ a ∈ t.attributes, Vocabulary.isSafeName (Vocabulary.sanitize a.name) = true
  identifier : t.attributes.countP (·.isIdentifier) = 1
  parentIdentifier : t.attributes.countP (·.isParentIdentifier) = if t.parent?.isSome = true then 1 else 0
  distinct : t.attributes.Pairwise fun a b => LetterCase.sameLetters a.name b.name = false
  apart : t.attributes.Pairwise fun a b => a.mappedTo ≠ b.mappedTo
  mapped : ∀ a ∈ t.attributes, a.mappedTo ∈ columns
  flags : ∀ a ∈ t.attributes, Sound a

/-- The parent, if there is one, is a type there is. -/
def ParentKnown (existing : List EquipmentType) (t : EquipmentType) : Prop :=
  ∀ p, t.parentId = some p → p ≠ "" → ∃ e ∈ existing, e.id = p

/-- A type with more attributes after its own, and another parent if one is named. -/
def extended (t : EquipmentType) (parent : Option String) (as : List Attribute) : EquipmentType :=
  { t with parentId := (parent.filter (· ≠ "")).or t.parentId, attributes := t.attributes ++ as }

section Letters

theorem mem_dropWhile_or (p : Char → Bool) {cs : List Char} (h : c ∈ cs) : c ∈ cs.dropWhile p ∨ p c = true := by
  rw [← List.takeWhile_append_dropWhile (p := p) (l := cs), List.mem_append] at h
  rcases h with h | h
  · exact .inr (List.mem_takeWhile_imp h)
  · exact .inl h

theorem mem_trimChars_or {cs : List Char} (h : c ∈ cs) : c ∈ Blank.trimChars cs ∨ Blank.isBlank c = true := by
  rcases mem_dropWhile_or Blank.isBlank h with h | h
  · rcases mem_dropWhile_or Blank.isBlank (List.mem_reverse.2 h) with h | h
    · exact .inl (List.mem_reverse.2 h)
    · exact .inr h
  · exact .inr h

/-- A name that is safe once its blanks are replaced has no other characters. -/
theorem safe_or_blank (h : isSafeAttributeName name = true) (hc : c ∈ name.toList) :
    Vocabulary.isSafeChar c = true ∨ Blank.isBlank c = true := by
  rw [isSafeAttributeName, Vocabulary.isSafeName, Bool.and_eq_true, List.all_eq_true] at h
  rcases mem_trimChars_or hc with hc | hc
  · refine or_iff_not_imp_right.2 fun hb => h.2 c ?_
    rw [Vocabulary.sanitize, String.toList_ofList, List.mem_map]
    exact ⟨c, hc, if_neg hb⟩
  · exact .inr hc

theorem capitals_eq (h : Vocabulary.isSafeChar c = true ∨ Blank.isBlank c = true) :
    LetterCase.capitals c = [c.toUpper] := by
  unfold LetterCase.capitals
  split
  case h_11 => rfl
  all_goals exact absurd h (by decide)

theorem capitalized_eq (h : isSafeAttributeName name = true) :
    LetterCase.capitalized name = name.toList.map Char.toUpper := by
  rw [LetterCase.capitalized, ← List.flatMap_singleton' (name.toList.map _), List.flatMap_map]
  exact List.flatMap_congr fun c hc => capitals_eq (safe_or_blank h hc)

theorem capitalized_eq_iff (ha : isSafeAttributeName name = true) (hb : isSafeAttributeName other = true) :
    LetterCase.capitalized name = LetterCase.capitalized other ↔ LetterCase.sameLetters name other = true := by
  rw [capitalized_eq ha, capitalized_eq hb, LetterCase.sameLetters, beq_iff_eq]
  constructor
  · intro h
    simpa [Function.comp_def] using congrArg (List.map Char.toLower) h
  · intro h
    simpa [Function.comp_def] using congrArg (List.map Char.toUpper) h

end Letters

section Checks

theorem checkParentExists_ok_iff : checkParentExists existing t.parent? = .ok u ↔ ParentKnown existing t := by
  have hsome : ∀ p, t.parent? = some p ↔ t.parentId = some p ∧ p ≠ "" := by
    intro p
    rw [EquipmentType.parent?, Option.filter_eq_some_iff, decide_eq_true_eq]
  unfold ParentKnown
  cases hp : t.parent? with
  | none =>
      refine iff_of_true rfl fun p hid hne => ?_
      rw [(hsome p).2 ⟨hid, hne⟩] at hp
      cases hp
  | some p =>
      rw [checkParentExists, ensure_ok_iff, List.any_eq_true]
      obtain ⟨hid, hne⟩ := (hsome p).1 hp
      constructor
      · rintro ⟨e, he, hep⟩ q hq -
        rw [hid] at hq
        cases hq
        exact ⟨e, he, beq_iff_eq.1 hep⟩
      · intro h
        obtain ⟨e, he, hep⟩ := h p hid hne
        exact ⟨e, he, beq_iff_eq.2 hep⟩

/-- Attributes that can stand beside each other and beside what is taken pass the checks one after another. -/
theorem checkAttributes_of_consistent (h : Consistent columns as)
    (hnames : ∀ a ∈ as, LetterCase.capitalized a.name ∉ taken.names)
    (howners : ∀ a ∈ as, ∀ o ∈ taken.owners, o.1 ≠ a.mappedTo) : checkAttributes columns taken as = .ok u := by
  induction as generalizing taken with
  | nil => rfl
  | cons a as ih =>
      obtain ⟨hname, hnamesTail⟩ := List.pairwise_cons.1 h.names
      obtain ⟨hcolumn, hcolumnsTail⟩ := List.pairwise_cons.1 h.apart
      obtain ⟨hsafe, hsafeTail⟩ := List.forall_mem_cons.1 h.safe
      obtain ⟨hmapped, hmappedTail⟩ := List.forall_mem_cons.1 h.mapped
      obtain ⟨hsound, hsoundTail⟩ := List.forall_mem_cons.1 h.sound
      have hfree : taken.owners.lookup a.mappedTo = none := by
        refine List.lookup_eq_none_iff.2 fun o ho => ?_
        exact bne_iff_ne.2 (howners a List.mem_cons_self o ho).symm
      have hregistered : Registered columns taken a := ⟨hsafe, hnames a List.mem_cons_self, hmapped, hfree⟩
      rw [checkAttributes, bind_ok_iff]
      refine ⟨taken.add a, register_ok_iff.2 ⟨hregistered, rfl⟩, check_bind_ok_iff.2 ⟨checkFlags_ok_iff.2 hsound, ?_⟩⟩
      refine ih ⟨hnamesTail, hcolumnsTail, hsafeTail, hmappedTail, hsoundTail⟩ (fun b hb => ?_) fun b hb => ?_
      · exact List.not_mem_cons_of_ne_of_not_mem (hname b hb).symm (hnames b (List.mem_cons_of_mem _ hb))
      · exact List.forall_mem_cons.2 ⟨hcolumn b hb, howners b (List.mem_cons_of_mem _ hb)⟩

theorem checkCreation_ok_iff : checkCreation columns existing t = .ok u ↔
    Vocabulary.isSafeName t.typeName = true ∧ ParentKnown existing t ∧ WellFormed columns t := by
  rw [checkCreation, check_bind_ok_iff, check_bind_ok_iff, check_bind_ok_iff, check_bind_ok_iff,
    checkParentExists_ok_iff, checkIdentifierCount_ok_iff, checkParentKeyCount_ok_iff]
  constructor
  · rintro ⟨hnames, hparent, hid, hkey, h⟩
    obtain ⟨htype, -⟩ := check_bind_ok_iff.1 hnames
    exact ⟨ensure_ok_iff.1 htype, hparent, (consistent_of_checkAttributes h).1, hid, hkey⟩
  · rintro ⟨htype, hparent, hconsistent, hid, hkey⟩
    have hnames : checkNames t = .ok () :=
      check_bind_ok_iff.2 ⟨ensure_ok_iff.2 htype, forM_ok_iff.2 fun a ha => ensure_ok_iff.2 (hconsistent.safe a ha)⟩
    exact ⟨hnames, hparent, hid, hkey, checkAttributes_of_consistent hconsistent (by simp [Taken.empty])
      (by simp [Taken.empty])⟩

theorem checkNewKeys_ok_iff : checkNewKeys as = .ok u ↔
    ∀ a ∈ as, a.isIdentifier = false ∧ (a.isParentIdentifier = true → a.dataType = .string) := by
  rw [checkNewKeys, forM_ok_iff]
  refine forall₂_congr fun a _ => ?_
  rw [check_bind_ok_iff, ensure_ok_iff, ensure_ok_iff]
  cases a.isIdentifier <;> cases a.isParentIdentifier <;> simp

theorem parent?_extended : (extended t parent as).parent? = (parent.filter (· ≠ "")).or t.parent? := by
  change ((parent.filter (· ≠ "")).or t.parentId).filter (· ≠ "") = _
  cases hp : parent.filter (· ≠ "") with
  | none => rfl
  | some p => exact Option.filter_eq_some_iff.2 ⟨rfl, (Option.filter_eq_some_iff.1 hp).2⟩

theorem isSome_parent?_extended : (extended t parent as).parent?.isSome =
    (t.parent?.isSome || (parent.filter (· ≠ "")).isSome) := by
  rw [parent?_extended, Option.isSome_or, Bool.or_comm]

theorem checkUpdate_ok_iff (h : WellFormed columns t) :
    checkUpdate columns t parent as = .ok u ↔ WellFormed columns (extended t parent as) := by
  refine ⟨fun hu => h.of_update hu rfl isSome_parent?_extended, fun he => ?_⟩
  have hid := he.identifier
  have hkey := he.parentIdentifier
  rw [isSome_parent?_extended] at hkey
  have hnone : as.countP (·.isIdentifier) = 0 := by
    rw [extended, List.countP_append, h.identifier] at hid
    omega
  have hsound : ∀ a ∈ as, Sound a := fun a ha => he.sound a (List.mem_append_right _ ha)
  rw [checkUpdate, check_bind_ok_iff, check_bind_ok_iff, checkNewKeys_ok_iff, h.checkNewParentKey_ok_iff]
  refine ⟨fun a ha => ⟨?_, fun hp => ((hsound a ha).parentIdentifier hp).1⟩, hkey, ?_⟩
  · simpa using List.countP_eq_zero.1 hnone a ha
  · obtain ⟨-, hnames, hacross⟩ := List.pairwise_append.1 he.names
    obtain ⟨-, hcolumns, hapart⟩ := List.pairwise_append.1 he.apart
    have hconsistent : Consistent columns as := by
      refine ⟨hnames, hcolumns, fun a ha => ?_, fun a ha => ?_, hsound⟩
      · exact he.safe a (List.mem_append_right _ ha)
      · exact he.mapped a (List.mem_append_right _ ha)
    refine checkAttributes_of_consistent hconsistent (fun b hb hmem => ?_) fun b hb o ho => ?_
    · rcases mem_names_foldl_add.1 hmem with hmem | ⟨a, ha, hab⟩
      · cases hmem
      · exact hacross a ha b hb hab
    · rcases mem_owners_foldl_add.1 ho with ho | ⟨a, ha, rfl⟩
      · cases ho
      · exact hapart a ha b hb

end Checks

theorem lawful_iff : Lawful columns t ↔ Vocabulary.isSafeName t.typeName = true ∧ WellFormed columns t := by
  have hnames : (∀ a ∈ t.attributes, isSafeAttributeName a.name = true) →
      ((t.attributes.Pairwise fun a b => LetterCase.sameLetters a.name b.name = false) ↔
        t.attributes.Pairwise fun a b => LetterCase.capitalized a.name ≠ LetterCase.capitalized b.name) := by
    intro hsafe
    refine List.Pairwise.iff_of_mem fun ha hb => ?_
    rw [ne_eq, capitalized_eq_iff (hsafe _ ha) (hsafe _ hb), Bool.not_eq_true]
  constructor
  · rintro ⟨htype, hsafe, hid, hkey, hdistinct, hapart, hmapped, hflags⟩
    exact ⟨htype, ⟨(hnames hsafe).1 hdistinct, hapart, hsafe, hmapped, hflags⟩, hid, hkey⟩
  · rintro ⟨htype, ⟨hdistinct, hapart, hsafe, hmapped, hflags⟩, hid, hkey⟩
    exact ⟨htype, hsafe, hid, hkey, (hnames hsafe).2 hdistinct, hapart, hmapped, hflags⟩

/-- A new type is admitted exactly if it keeps to the rules and its parent is known, and an update of a type that keeps
to the rules exactly if the type with its new attributes and parent does. -/
theorem admitted_iff_lawful (columns : NameSet) (existing : List EquipmentType) (t : EquipmentType) :
    (checkCreation columns existing t = .ok () ↔ Lawful columns t ∧ ParentKnown existing t) ∧
      (Lawful columns t → ∀ (parent : Option String) (as : List Attribute),
        checkUpdate columns t parent as = .ok () ↔ Lawful columns (extended t parent as)) := by
  constructor
  · rw [checkCreation_ok_iff, lawful_iff, and_assoc, and_comm (a := ParentKnown existing t)]
  · intro h parent as
    obtain ⟨htype, hformed⟩ := lawful_iff.1 h
    rw [checkUpdate_ok_iff hformed, lawful_iff]
    exact (and_iff_right htype).symm

def rackColumns : NameSet := .ofList ["id", "size", "up"]

def rack : EquipmentType :=
  ((EquipmentType.new "rack" "0x1").withAttribute (.identifier "key" "id")).withAttribute (.new "rack units" .int "size")

/-- A rack is put below a row, for which it gets a parent identifier. -/
theorem admitted_rackBelowRow :
    checkCreation rackColumns [] rack = .ok () ∧
      checkUpdate rackColumns rack (some "0x3") [.parentIdentifier "row" "up"] = .ok () ∧
      Lawful rackColumns (extended rack (some "0x3") [.parentIdentifier "row" "up"]) := by
  have hcreated : checkCreation rackColumns [] rack = .ok () := by decide +kernel
  have hadded : checkUpdate rackColumns rack (some "0x3") [.parentIdentifier "row" "up"] = .ok () := by decide +kernel
  obtain ⟨hlawful, -⟩ := (admitted_iff_lawful rackColumns [] rack).1.1 hcreated
  exact ⟨hcreated, hadded, ((admitted_iff_lawful rackColumns [] rack).2 hlawful _ _).1 hadded⟩

end Inventory.TypeRules
