/-!
Finite sets as increasing lists, so that equal sets are written alike.
-/

namespace Inventory

structure OrderedSet (α : Type) [LT α] where
  items : List α
  increasing : items.Pairwise (· < ·)

namespace OrderedSet

variable {α : Type} [LT α]

def empty : OrderedSet α := ⟨[], .nil⟩

instance : Inhabited (OrderedSet α) := ⟨empty⟩

instance [DecidableEq α] : DecidableEq (OrderedSet α) := fun s t =>
  decidable_of_iff (s.items = t.items) (by cases s; cases t; simp)

instance : Membership α (OrderedSet α) := ⟨fun s a => a ∈ s.items⟩

instance [DecidableEq α] (a : α) (s : OrderedSet α) : Decidable (a ∈ s) :=
  inferInstanceAs (Decidable (a ∈ s.items))

theorem mem_def {s : OrderedSet α} {a : α} : a ∈ s ↔ a ∈ s.items := Iff.rfl

@[simp]
theorem not_mem_empty {a : α} : a ∉ (empty : OrderedSet α) := by simp [empty, mem_def]

def isEmpty (s : OrderedSet α) : Bool := s.items.isEmpty

def size (s : OrderedSet α) : Nat := s.items.length

def filter (s : OrderedSet α) (p : α → Bool) : OrderedSet α := ⟨s.items.filter p, s.increasing.filter p⟩

theorem mem_filter {s : OrderedSet α} {p : α → Bool} {a : α} : a ∈ s.filter p ↔ a ∈ s ∧ p a :=
  List.mem_filter

section Extensional

variable [LE α] [Std.IsLinearOrder α] [Std.LawfulOrderLT α]

theorem items_eq_of_mem_iff {l m : List α} (hl : l.Pairwise (· < ·)) (hm : m.Pairwise (· < ·))
    (h : ∀ a, a ∈ l ↔ a ∈ m) : l = m := by
  induction l generalizing m with
  | nil => exact (List.eq_nil_iff_forall_not_mem.2 fun a ha => by simpa using (h a).2 ha).symm
  | cons a l ih =>
    cases m with
    | nil => simpa using (h a).1 (by simp)
    | cons b m =>
      obtain ⟨ha, hl'⟩ := List.pairwise_cons.1 hl
      obtain ⟨hb, hm'⟩ := List.pairwise_cons.1 hm
      have hab : a = b := by
        rcases List.mem_cons.1 ((h a).1 (by simp)) with rfl | ham
        · rfl
        · rcases List.mem_cons.1 ((h b).2 (by simp)) with rfl | hbl
          · rfl
          · exact absurd (Std.lt_trans (ha b hbl) (hb a ham)) Std.lt_irrefl
      subst hab
      refine congrArg (a :: ·) (ih hl' hm' fun c => ?_)
      constructor
      · intro hc
        rcases List.mem_cons.1 ((h c).1 (List.mem_cons_of_mem _ hc)) with rfl | hcm
        · exact absurd (ha c hc) Std.lt_irrefl
        · exact hcm
      · intro hc
        rcases List.mem_cons.1 ((h c).2 (List.mem_cons_of_mem _ hc)) with rfl | hcl
        · exact absurd (hb c hc) Std.lt_irrefl
        · exact hcl

@[ext]
theorem ext {s t : OrderedSet α} (h : ∀ a, a ∈ s ↔ a ∈ t) : s = t := by
  have := items_eq_of_mem_iff s.increasing t.increasing h
  cases s; cases t; simp_all

end Extensional

variable [DecidableEq α]

def contains (s : OrderedSet α) (a : α) : Bool := decide (a ∈ s.items)

def erase (s : OrderedSet α) (a : α) : OrderedSet α := s.filter (· ≠ a)

theorem mem_erase {s : OrderedSet α} {a b : α} : b ∈ s.erase a ↔ b ∈ s ∧ b ≠ a := by
  simp [erase, mem_filter]

variable [DecidableLT α]

def place (a : α) : List α → List α
  | [] => [a]
  | b :: rest => if a < b then a :: b :: rest else if a = b then b :: rest else b :: place a rest

theorem mem_place {a b : α} {l : List α} : b ∈ place a l ↔ b = a ∨ b ∈ l := by
  induction l with
  | nil => simp [place]
  | cons x l ih => grind [place]

variable [LE α] [Std.IsLinearOrder α] [Std.LawfulOrderLT α]

theorem place_increasing (a : α) {l : List α} (h : l.Pairwise (· < ·)) : (place a l).Pairwise (· < ·) := by
  induction l with
  | nil => simp [place]
  | cons b l ih =>
    obtain ⟨hb, hl⟩ := List.pairwise_cons.1 h
    simp only [place]
    split
    · rename_i hab
      refine List.pairwise_cons.2 ⟨fun c hc => ?_, h⟩
      rcases List.mem_cons.1 hc with rfl | hc
      · exact hab
      · exact Std.lt_trans hab (hb c hc)
    · split
      · exact h
      · rename_i hab hne
        refine List.pairwise_cons.2 ⟨fun c hc => ?_, ih hl⟩
        rcases mem_place.1 hc with rfl | hc
        · exact (Std.lt_trichotomy b c).resolve_right (by grind)
        · exact hb c hc

def insert (s : OrderedSet α) (a : α) : OrderedSet α := ⟨place a s.items, place_increasing a s.increasing⟩

def insertAll (s : OrderedSet α) (as : List α) : OrderedSet α := as.foldl insert s

def ofList (as : List α) : OrderedSet α := empty.insertAll as

def union (s t : OrderedSet α) : OrderedSet α := s.insertAll t.items

@[simp]
theorem mem_insert {s : OrderedSet α} {a b : α} : b ∈ s.insert a ↔ b = a ∨ b ∈ s := mem_place

@[simp]
theorem mem_insertAll {s : OrderedSet α} {as : List α} {b : α} : b ∈ s.insertAll as ↔ b ∈ as ∨ b ∈ s := by
  induction as generalizing s with
  | nil => simp [insertAll]
  | cons a as ih =>
    have := ih (s := s.insert a)
    simp only [insertAll, List.foldl_cons] at this ⊢
    rw [this]
    grind [mem_insert]

theorem mem_ofList {as : List α} {b : α} : b ∈ ofList as ↔ b ∈ as := by
  simp [ofList]

theorem mem_union {s t : OrderedSet α} {b : α} : b ∈ s.union t ↔ b ∈ t ∨ b ∈ s := mem_insertAll

end OrderedSet

/-- A set of names in the order of their characters' code points. -/
abbrev NameSet := OrderedSet String

end Inventory
