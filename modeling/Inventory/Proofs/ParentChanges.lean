import Inventory.Proofs.Admission
import Inventory.Proofs.Relinking

/-!
New parents for types. A type that is admitted below another closes no cycle of parents and names no parent that is
missing, as long as the descendants that the check is told of are those that there are; and a parent that would close a
cycle is refused.
-/

namespace Inventory.ParentChanges

open Admission Relation Relinking

variable {types : List EquipmentType} {t : EquipmentType} {descendants : List String} {hasInstances : Bool}
  {a b p q : String}

/-- A type that names another as its parent, both by their ids. -/
def Under (types : List EquipmentType) (a b : String) : Prop := ∃ t ∈ types, t.id = a ∧ t.parent? = some b

/-- A type whose chain of parents passes through another. -/
abbrev Below (types : List EquipmentType) : String → String → Prop := TransGen (Under types)

/-- A type that names a parent which is none of the types. -/
def Dangling (types : List EquipmentType) (a b : String) : Prop := Under types a b ∧ ∀ t ∈ types, t.id ≠ b

/-- The types when one of them has been given a parent. -/
def reparented (types : List EquipmentType) (t : EquipmentType) (p : String) : List EquipmentType :=
  types.map fun s => if s.id = t.id then s.withParent p else s

theorem parent?_withParent (t : EquipmentType) (p : String) :
    (t.withParent p).parent? = some q ↔ q = p ∧ p ≠ "" := by
  rw [EquipmentType.withParent, EquipmentType.parent?, Option.filter_some]
  by_cases hp : p = "" <;> simp [hp, eq_comm]

theorem exists_of_below (h : Below types a b) : ∃ t ∈ types, t.id = a := by
  obtain ⟨_, ⟨t, ht, ha, -⟩, -⟩ := TransGen.head'_iff.1 h
  exact ⟨t, ht, ha⟩

section Reparented

theorem mem_ids_reparented : (∃ s ∈ reparented types t p, s.id = a) ↔ ∃ s ∈ types, s.id = a := by
  have hid : ∀ s : EquipmentType, (if s.id = t.id then s.withParent p else s).id = s.id := by
    intro s
    split <;> rfl
  simp [reparented, hid]

theorem under_reparented_self (ht : t ∈ types) : Under (reparented types t p) t.id q ↔ q = p ∧ p ≠ "" := by
  constructor
  · rintro ⟨s', hs', hid, hq⟩
    obtain ⟨s, hs, rfl⟩ := List.mem_map.1 hs'
    by_cases hst : s.id = t.id
    · rw [if_pos hst] at hq
      exact (parent?_withParent s p).1 hq
    · rw [if_neg hst] at hid
      exact absurd hid hst
  · intro hq
    refine ⟨t.withParent p, List.mem_map.2 ⟨t, ht, if_pos rfl⟩, rfl, ?_⟩
    exact (parent?_withParent t p).2 hq

theorem under_reparented_of_ne (ha : a ≠ t.id) : Under (reparented types t p) a q ↔ Under types a q := by
  constructor
  · rintro ⟨s', hs', hid, hq⟩
    obtain ⟨s, hs, rfl⟩ := List.mem_map.1 hs'
    by_cases hst : s.id = t.id
    · rw [if_pos hst] at hid
      exact absurd (hid.symm.trans hst) ha
    · rw [if_neg hst] at hid hq
      exact ⟨s, hs, hid, hq⟩
  · rintro ⟨s, hs, hid, hq⟩
    exact ⟨s, List.mem_map.2 ⟨s, hs, if_neg (hid ▸ ha)⟩, hid, hq⟩

/-- A new parent closes a cycle exactly if it is the type itself or below it. -/
theorem acyclic_reparented_iff (ht : t ∈ types) (h : Acyclic (Under types)) :
    Acyclic (Under (reparented types t p)) ↔ p = "" ∨ p ≠ t.id ∧ ¬Below types p t.id := by
  have hothers : ∀ w q, w ≠ t.id → (Under (reparented types t p) w q ↔ Under types w q) :=
    fun w q hw => under_reparented_of_ne hw
  constructor
  · intro hacyclic
    by_cases hp : p = ""
    · exact .inl hp
    · have hup : Under (reparented types t p) t.id p := (under_reparented_self ht).2 ⟨rfl, hp⟩
      refine .inr ⟨fun he => hacyclic t.id (.single (he ▸ hup)), fun hbelow => ?_⟩
      rcases way_kept (fun w q hw => (hothers w q hw).2) hbelow with he | hway
      · exact hacyclic t.id (.single (he ▸ hup))
      · exact hacyclic t.id (.head hup hway)
  · rintro (rfl | ⟨hne, hbelow⟩)
    · refine acyclic_mono (fun w q hw => ?_) h
      by_cases hwt : w = t.id
      · subst hwt
        exact absurd rfl ((under_reparented_self ht).1 hw).2
      · exact (hothers w q hwt).1 hw
    · have hup : ∀ q, Under (reparented types t p) t.id q → q = p := fun q hq => ((under_reparented_self ht).1 hq).1
      exact acyclic_of_moved hup (fun w q hw => (hothers w q hw).1) hne hbelow h

/-- Names of parents that are missing are not added by a parent that is there. -/
theorem dangling_of_reparented (ht : t ∈ types) (hp : ∃ s ∈ types, s.id = p)
    (h : Dangling (reparented types t p) a b) : Dangling types a b := by
  obtain ⟨hunder, hmissing⟩ := h
  have hnone : ∀ s ∈ types, s.id ≠ b := by
    intro s hs hid
    obtain ⟨s', hs', hid'⟩ := mem_ids_reparented.2 ⟨s, hs, hid⟩
    exact hmissing s' hs' hid'
  by_cases ha : a = t.id
  · subst ha
    obtain ⟨rfl, -⟩ := (under_reparented_self ht).1 hunder
    obtain ⟨s, hs, hid⟩ := hp
    exact absurd hid (hnone s hs)
  · exact ⟨(under_reparented_of_ne ha).1 hunder, hnone⟩

end Reparented

section Refusals

theorem refused_self : checkParentChange t t.id types descendants hasInstances = .error (.selfParent t.typeName) := by
  simp [checkParentChange, ensure]
  rfl

theorem refused_descendant (hne : p ≠ t.id) (hp : ∃ s ∈ types, s.id = p) (hd : p ∈ descendants) :
    checkParentChange t p types descendants hasInstances = .error (.parentIsDescendant p) := by
  simp [checkParentChange, ensure, hne, hp, hd]
  rfl

end Refusals

/-- Where the descendants of a type are known, a parent that is admitted for it closes no cycle and adds no name of a
parent that is missing, and one that would close a cycle is refused. -/
theorem guards_forest (ht : t ∈ types) (h : Acyclic (Under types))
    (hd : ∀ a, a ∈ descendants ↔ Below types a t.id) (p : String) (hasInstances : Bool) :
    (checkParentChange t p types descendants hasInstances = .ok () →
      Acyclic (Under (reparented types t p)) ∧ ∀ a b, Dangling (reparented types t p) a b → Dangling types a b) ∧
    (¬Acyclic (Under (reparented types t p)) → checkParentChange t p types descendants hasInstances =
      .error (if p = t.id then .selfParent t.typeName else .parentIsDescendant p)) := by
  constructor
  · intro hcheck
    obtain ⟨hne, hp, hdescendant, -⟩ := parent_of_checkParentChange hcheck
    refine ⟨(acyclic_reparented_iff ht h).2 (.inr ⟨hne, fun hb => hdescendant ((hd p).2 hb)⟩), fun a b hab => ?_⟩
    exact dangling_of_reparented ht hp hab
  · intro hcycle
    by_cases hne : p = t.id
    · rw [if_pos hne, hne]
      exact refused_self
    · have hbelow : Below types p t.id := by
        by_contra hb
        exact hcycle ((acyclic_reparented_iff ht h).2 (.inr ⟨hne, hb⟩))
      rw [if_neg hne]
      exact refused_descendant hne (exists_of_below hbelow) ((hd p).2 hbelow)

def server : EquipmentType := ((EquipmentType.new "server" "0xb").withId "0x2").withParent "0x1"

/-- A rack with servers, these with disks, and a shelf. -/
def racks : List EquipmentType :=
  [(EquipmentType.new "rack" "0xa").withId "0x1", server,
    ((EquipmentType.new "disk" "0xc").withId "0x3").withParent "0x2", (EquipmentType.new "shelf" "0xd").withId "0x4"]

theorem under_racks_iff : Under racks a b ↔ a = "0x2" ∧ b = "0x1" ∨ a = "0x3" ∧ b = "0x2" := by
  have hparents : racks.map (fun t => (t.id, t.parent?)) =
      [("0x1", none), ("0x2", some "0x1"), ("0x3", some "0x2"), ("0x4", none)] := by decide
  have hmem : Under racks a b ↔ (a, some b) ∈ racks.map fun t => (t.id, t.parent?) := by
    simp [Under]
  rw [hmem, hparents]
  simp

theorem below_racks (h : Below racks a b) : a = "0x2" ∧ b = "0x1" ∨ a = "0x3" ∧ (b = "0x2" ∨ b = "0x1") := by
  induction h with
  | single h => rcases under_racks_iff.1 h with h | h <;> simp [h]
  | tail _ h ih => rcases under_racks_iff.1 h with h | h <;> simp_all

theorem guards_forest_racks : server ∈ racks ∧ Acyclic (Under racks) ∧
    (∀ a, a ∈ ["0x3"] ↔ Below racks a server.id) ∧ checkParentChange server "0x4" racks ["0x3"] false = .ok () ∧
    Acyclic (Under (reparented racks server "0x4")) ∧ ¬Acyclic (Under (reparented racks server "0x3")) ∧
    checkParentChange server "0x3" racks ["0x3"] false = .error (.parentIsDescendant "0x3") := by
  have hserver : server ∈ racks := by simp [racks]
  have hacyclic : Acyclic (Under racks) := by
    intro a h
    rcases below_racks h with ⟨rfl, h⟩ | ⟨rfl, h | h⟩ <;> simp at h
  have hbelow : ∀ a, a ∈ ["0x3"] ↔ Below racks a server.id := by
    intro a
    rw [List.mem_singleton]
    constructor
    · rintro rfl
      exact .single (under_racks_iff.2 (.inr ⟨rfl, rfl⟩))
    · intro h
      rcases below_racks h with ⟨-, hid⟩ | ⟨rfl, -⟩
      · exact absurd hid (by decide)
      · rfl
  have hadmitted : checkParentChange server "0x4" racks ["0x3"] false = .ok () := rfl
  have hcycle : ¬Acyclic (Under (reparented racks server "0x3")) := by
    rw [acyclic_reparented_iff hserver hacyclic]
    rintro (h | ⟨-, h⟩)
    · simp at h
    · exact h ((hbelow "0x3").1 (by simp))
  refine ⟨hserver, hacyclic, hbelow, hadmitted, ?_, hcycle, ?_⟩
  · exact ((guards_forest hserver hacyclic hbelow "0x4" false).1 hadmitted).1
  · exact (guards_forest hserver hacyclic hbelow "0x3" false).2 hcycle

end Inventory.ParentChanges
