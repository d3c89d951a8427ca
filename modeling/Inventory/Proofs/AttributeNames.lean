import Mathlib.Data.List.Nodup
import Inventory.Proofs.Admission
import Inventory.Proofs.Record
import Inventory.Proofs.Repository.Rows

/-!
When the attributes of a type are kept and reported apart. Attributes are admitted under names that differ in
capitals, but predicates and labels are made of names in which blanks have been replaced, and the uid of a node has a
label among those of its attributes.
-/

namespace Inventory.AttributeNames

open Inventory.Graph Query Listing Entries Repository Admission Text

variable {t : EquipmentType} {g : Graph} {u : Uid} {a b : Attribute}

/-- Two attributes of a mark whose names differ, but not once blanks are replaced. -/
def Alike (mark : Attribute → Bool) (t : EquipmentType) : Prop :=
  ∃ a ∈ t.attributes, ∃ b ∈ t.attributes, mark a = true ∧ mark b = true ∧
    LetterCase.capitalized a.name ≠ LetterCase.capitalized b.name ∧
      Vocabulary.sanitize a.name = Vocabulary.sanitize b.name

instance (mark : Attribute → Bool) (t : EquipmentType) : Decidable (Alike mark t) :=
  inferInstanceAs (Decidable (∃ a ∈ t.attributes, ∃ b ∈ t.attributes, mark a = true ∧ mark b = true ∧
    LetterCase.capitalized a.name ≠ LetterCase.capitalized b.name ∧
      Vocabulary.sanitize a.name = Vocabulary.sanitize b.name))

/-- An attribute with the label of the uid. -/
def Shadowing (t : EquipmentType) : Prop := ∃ a ∈ t.attributes, Vocabulary.sanitize a.name = idLabel

instance (t : EquipmentType) : Decidable (Shadowing t) :=
  inferInstanceAs (Decidable (∃ a ∈ t.attributes, Vocabulary.sanitize a.name = idLabel))

/-- No two attributes share a predicate. -/
def Stored (t : EquipmentType) : Prop := (t.attributes.map (predicateOf t)).Nodup

/-- Labels differ, so that each row has the uid of its node under `ID`, and under each label what was selected. -/
structure Reported (t : EquipmentType) : Prop where
  labels : ((projection t true).map selectionLabel).Nodup
  uid : ∀ (g : Graph) (u : Uid), (g.row u (projection t true)).get? idLabel = some u.toJson
  values : ∀ (g : Graph) (u : Uid), ∀ s ∈ projection t true,
    (g.row u (projection t true)).get? (selectionLabel s) = selectedValue? g u s

section Predicates

theorem predicateOf_cases (t : EquipmentType) (a : Attribute) :
    (a.isIdentifier = true ∧ predicateOf t a = Vocabulary.identifier) ∨
      (a.isParentIdentifier = true ∧ predicateOf t a = Vocabulary.parent) ∨
      (a.isPlain = true ∧ predicateOf t a = Vocabulary.attributePredicate t.typeName a.name) := by
  unfold predicateOf Attribute.isPlain
  cases a.isIdentifier <;> cases a.isParentIdentifier <;> simp

theorem predicateOf_plain (h : a.isPlain = true) :
    predicateOf t a = Vocabulary.attributePredicate t.typeName a.name := by
  unfold Attribute.isPlain at h
  simp_all [predicateOf]

theorem attributePredicate_ne_shared (typeName name : String) :
    Vocabulary.attributePredicate typeName name ≠ Vocabulary.identifier ∧
      Vocabulary.attributePredicate typeName name ≠ Vocabulary.parent := by
  have h := Vocabulary.isAttributePredicate_attributePredicate typeName name
  have hid : Vocabulary.isAttributePredicate Vocabulary.identifier = false := by decide +kernel
  have hparent : Vocabulary.isAttributePredicate Vocabulary.parent = false := by decide +kernel
  constructor
  · intro he
    rw [he, hid] at h
    cases h
  · intro he
    rw [he, hparent] at h
    cases h

/-- Attributes that are not marked alike share a predicate only as plain attributes of one label. -/
theorem plain_of_predicateOf_eq (hid : ¬(a.isIdentifier = true ∧ b.isIdentifier = true))
    (hparent : ¬(a.isParentIdentifier = true ∧ b.isParentIdentifier = true))
    (h : predicateOf t a = predicateOf t b) :
    a.isPlain = true ∧ b.isPlain = true ∧ Vocabulary.sanitize a.name = Vocabulary.sanitize b.name := by
  have hne : Vocabulary.identifier ≠ Vocabulary.parent := by decide
  have hplain := attributePredicate_ne_shared t.typeName
  rcases predicateOf_cases t a with ⟨ha, hpa⟩ | ⟨ha, hpa⟩ | ⟨ha, hpa⟩ <;>
    rcases predicateOf_cases t b with ⟨hb, hpb⟩ | ⟨hb, hpb⟩ | ⟨hb, hpb⟩ <;> rw [hpa, hpb] at h
  · exact absurd ⟨ha, hb⟩ hid
  · exact absurd h hne
  · exact absurd h.symm (hplain b.name).1
  · exact absurd h.symm hne
  · exact absurd ⟨ha, hb⟩ hparent
  · exact absurd h.symm (hplain b.name).2
  · exact absurd h (hplain a.name).1
  · exact absurd h (hplain a.name).2
  · exact ⟨ha, hb, Vocabulary.attributePredicate_inj.1 h⟩

theorem stored_iff (h : Marked t) : Stored t ↔ ¬Alike (·.isPlain) t := by
  constructor
  · rintro hs ⟨a, ha, b, hb, hpa, hpb, hne, he⟩
    have hp : predicateOf t a = predicateOf t b := by
      rw [predicateOf_plain hpa, predicateOf_plain hpb]
      exact Vocabulary.attributePredicate_inj.2 he
    exact hne (by rw [List.inj_on_of_nodup_map hs ha hb hp])
  · intro hn
    have hpairs := (h.names.and (pairwise_of_countP h.identifiers)).and (pairwise_of_countP h.parentKeys)
    refine List.pairwise_map.2 (hpairs.imp_of_mem ?_)
    rintro a b ha hb ⟨⟨hne, hid⟩, hparent⟩ he
    obtain ⟨hpa, hpb, hs⟩ := plain_of_predicateOf_eq hid hparent he
    exact hn ⟨a, ha, b, hb, hpa, hpb, hne, hs⟩

end Predicates

section Labels

theorem label_of_attributeSelection (t : EquipmentType) (a : Attribute) :
    ∃ s, attributeSelection? t true a = some s ∧ selectionLabel s = Vocabulary.sanitize a.name := by
  unfold attributeSelection?
  cases a.isIdentifier <;> cases a.isParentIdentifier <;> exact ⟨_, rfl, rfl⟩

theorem labels_projection (t : EquipmentType) :
    (projection t true).map selectionLabel = idLabel :: t.attributes.map fun a => Vocabulary.sanitize a.name := by
  rw [projection, List.map_cons]
  refine congrArg (idLabel :: ·) ?_
  induction t.attributes with
  | nil => rfl
  | cons a as ih =>
      obtain ⟨s, hs, hl⟩ := label_of_attributeSelection t a
      rw [List.filterMap_cons_some hs, List.map_cons, List.map_cons, hl, ih]

theorem labels_nodup_iff (h : Marked t) :
    ((projection t true).map selectionLabel).Nodup ↔ ¬Alike (fun _ => true) t ∧ ¬Shadowing t := by
  rw [labels_projection, List.nodup_cons, and_comm]
  refine and_congr ⟨?_, fun hn => ?_⟩ (not_congr ?_)
  · rintro hnodup ⟨a, ha, b, hb, -, -, hne, he⟩
    exact hne (by rw [List.inj_on_of_nodup_map hnodup ha hb he])
  · refine List.pairwise_map.2 (h.names.imp_of_mem fun ha hb hne he => ?_)
    exact hn ⟨_, ha, _, hb, rfl, rfl, hne, he⟩
  · rw [List.mem_map]
    exact Iff.rfl

theorem lookup_selectedAll_of_not_mem {k : String} {ss : List Selection} (h : k ∉ ss.map selectionLabel) :
    lookup k (g.selectedAll u ss).reverse = none := by
  induction ss with
  | nil => rfl
  | cons s ss ih =>
      rw [List.map_cons, List.mem_cons, not_or] at h
      obtain ⟨hs, hss⟩ := h
      rw [lookup_selectedAll, ih hss, if_neg hs]
      rfl

/-- What stands under a label in a row is what its selection gives, if labels differ. -/
theorem lookup_selectedAll_of_mem {s : Selection} {ss : List Selection} (h : (ss.map selectionLabel).Nodup)
    (hs : s ∈ ss) : lookup (selectionLabel s) (g.selectedAll u ss).reverse = selectedValue? g u s := by
  induction ss with
  | nil => cases hs
  | cons x ss ih =>
      obtain ⟨hx, hss⟩ := List.nodup_cons.1 h
      rw [lookup_selectedAll]
      rcases List.mem_cons.1 hs with rfl | hs
      · rw [lookup_selectedAll_of_not_mem hx, if_pos rfl]
        rfl
      · have hne : selectionLabel s ≠ selectionLabel x := fun he => hx (he ▸ List.mem_map_of_mem hs)
        rw [ih hss hs, if_neg hne, Option.or_none]

theorem reported_iff : Reported t ↔ ((projection t true).map selectionLabel).Nodup := by
  refine ⟨Reported.labels, fun h => ?_⟩
  have hvalues : ∀ (g : Graph) (u : Uid), ∀ s ∈ projection t true,
      (g.row u (projection t true)).get? (selectionLabel s) = selectedValue? g u s := by
    intro g u s hs
    rw [row, Json.get?_ofFields]
    exact lookup_selectedAll_of_mem h hs
  exact ⟨h, fun g u => hvalues g u _ List.mem_cons_self, hvalues⟩

end Labels

/-- The attributes of a type that has been admitted, and extended by any admitted updates, are kept apart unless the
names of two plain ones differ in blanks only, and reported apart unless the names of any two do or one is `ID`. -/
theorem separate_iff (h : Defined t) :
    (Stored t ↔ ¬Alike (·.isPlain) t) ∧ (Reported t ↔ ¬Alike (fun _ => true) t ∧ ¬Shadowing t) := by
  have hm := marked_of_defined h
  exact ⟨stored_iff hm, reported_iff.trans (labels_nodup_iff hm)⟩

def columns : NameSet := .ofList ["id", "size", "tag", "units"]

def server : EquipmentType :=
  ((EquipmentType.new "server" "0x1").withAttribute (.identifier "key" "id")).withAttribute (.new "size" .int "size")

def extendedServer : EquipmentType := server.withAttribute (.new "rack units" .int "units")

theorem defined_extendedServer : Defined extendedServer := by
  have hcreated : checkCreation columns [] server = .ok () := by decide +kernel
  have hadded : checkUpdate columns server none [.new "rack units" .int "units"] = .ok () := by decide +kernel
  exact .extended (.created hcreated) hadded rfl rfl

theorem separate_extendedServer : Defined extendedServer ∧ Stored extendedServer ∧ Reported extendedServer := by
  have hd := defined_extendedServer
  refine ⟨hd, (separate_iff hd).1.2 ?_, (separate_iff hd).2.2 ⟨?_, ?_⟩⟩
  · decide +kernel
  · decide +kernel
  · decide +kernel

/-- Two attributes whose names differ in a blank only, and one with the label of the uid. -/
def rack : EquipmentType :=
  (((EquipmentType.new "rack" "0x1").withAttribute (.identifier "key" "id")).withAttribute
    (.new "u size" .int "size")).withAttribute (.new "u_size" .int "units") |>.withAttribute (.new "ID" .string "tag")

theorem not_separate_rack : checkCreation columns [] rack = .ok () ∧ ¬Stored rack ∧ ¬Reported rack := by
  refine ⟨by decide +kernel, by unfold Stored; decide +kernel, fun h => ?_⟩
  have hn : ¬((projection rack true).map selectionLabel).Nodup := by decide +kernel
  exact hn h.labels

end Inventory.AttributeNames
