import Inventory.Proofs.Documents

/-!
Values inside documents. A reader admits them only up to a depth, and what it makes of a text that was written for a
value is the value exactly if that is no deeper and each of its numbers is read as it is.
-/

namespace Inventory

namespace Entries

variable {κ ν : Type} [DecidableEq κ] [LT κ] [DecidableLT κ]

theorem mem_of_mem_foldl_place {e : κ × ν} {es acc : List (κ × ν)}
    (h : e ∈ es.foldl (fun acc e => place e.1 e.2 acc) acc) : e ∈ acc ∨ e ∈ es := by
  induction es generalizing acc with
  | nil => exact .inl h
  | cons d es ih =>
      rcases ih h with hacc | hes
      · rcases mem_place hacc with rfl | hacc
        · exact .inr List.mem_cons_self
        · exact .inl hacc
      · exact .inr (List.mem_cons_of_mem _ hes)

variable [LE κ] [Std.LawfulOrderLT κ] [Std.IsLinearOrder κ]

theorem place_of_forall_lt {k : κ} {v : ν} {es : List (κ × ν)} (h : ∀ e ∈ es, e.1 < k) :
    place k v es = es ++ [(k, v)] := by
  induction es with
  | nil => rfl
  | cons e es ih =>
      obtain ⟨hlt, hes⟩ := List.forall_mem_cons.1 h
      have hnot : ¬k < e.1 := fun hgt => Std.lt_irrefl (Std.lt_trans hlt hgt)
      have hne : k ≠ e.1 := by
        rintro rfl
        exact Std.lt_irrefl hlt
      rw [place, if_neg hnot, if_neg hne, ih hes, List.cons_append]

theorem foldl_place_of_increasing {es acc : List (κ × ν)} (h : (acc ++ es).Pairwise fun a b => a.1 < b.1) :
    es.foldl (fun acc e => place e.1 e.2 acc) acc = acc ++ es := by
  induction es generalizing acc with
  | nil => rw [List.foldl_nil, List.append_nil]
  | cons e es ih =>
      have hlt : ∀ a ∈ acc, a.1 < e.1 := fun a ha => (List.pairwise_append.1 h).2.2 a ha e List.mem_cons_self
      rw [List.foldl_cons, place_of_forall_lt hlt, ih (by rwa [List.append_assoc]), List.append_assoc,
        List.singleton_append]

end Entries

namespace Json

mutual

/-- How deep arrays and objects nest in a value. -/
def depth : Json → Nat
  | arr items => depthItems items + 1
  | obj fields => depthFields fields + 1
  | _ => 0

def depthItems : List Json → Nat
  | [] => 0
  | j :: js => max (depth j) (depthItems js)

def depthFields : List (String × Json) → Nat
  | [] => 0
  | (_, j) :: js => max (depth j) (depthFields js)

end

mutual

/-- The numbers that a value holds. -/
def numbers : Json → List Number
  | num n => [n]
  | arr items => numbersItems items
  | obj fields => numbersFields fields
  | _ => []

def numbersItems : List Json → List Number
  | [] => []
  | j :: js => numbers j ++ numbersItems js

def numbersFields : List (String × Json) → List Number
  | [] => []
  | (_, j) :: js => numbers j ++ numbersFields js

end

mutual

/-- The fields of each object stand in the order of their keys, so that equal values are written alike. -/
def Ordered : Json → Prop
  | arr items => OrderedItems items
  | obj fields => (fields.Pairwise fun a b => a.1 < b.1) ∧ OrderedFields fields
  | _ => True

def OrderedItems : List Json → Prop
  | [] => True
  | j :: js => Ordered j ∧ OrderedItems js

def OrderedFields : List (String × Json) → Prop
  | [] => True
  | (_, j) :: js => Ordered j ∧ OrderedFields js

end

theorem ofFields_eq {es : List (String × Json)} (h : es.Pairwise fun a b => a.1 < b.1) : ofFields es = obj es := by
  rw [ofFields, Entries.foldl_place_of_increasing (by rwa [List.nil_append]), List.nil_append]

end Json

namespace Document

open Json

variable {f : Number → Option Number}

theorem keys_fieldsToJson? {d : Nat} : ∀ {es gs : List (String × Json)},
    fieldsToJson? d (readingFields f es) = some gs → gs.map (·.1) = es.map (·.1)
  | [], gs, h => by
      obtain rfl := Option.some.inj h
      rfl
  | (k, j) :: es, gs, h => by
      simp only [readingFields, fieldsToJson?, Option.bind_eq_bind, Option.bind_some, Option.bind_eq_some_iff] at h
      obtain ⟨v, -, rest, hrest, hgs⟩ := h
      obtain rfl := Option.some.inj hgs
      rw [List.map_cons, List.map_cons, keys_fieldsToJson? hrest]

theorem map_ofFields_eq_some_iff {d : Nat} {es : List (String × Json)} (h : es.Pairwise fun a b => a.1 < b.1) :
    (fieldsToJson? d (readingFields f es)).map Json.ofFields = some (Json.obj es) ↔
      fieldsToJson? d (readingFields f es) = some es := by
  rw [Option.map_eq_some_iff]
  constructor
  · rintro ⟨gs, hgs, he⟩
    have hkeys : (gs.map (·.1)).Pairwise (· < ·) := by
      rw [keys_fieldsToJson? hgs]
      exact List.pairwise_map.2 h
    rw [ofFields_eq (List.pairwise_map.1 hkeys)] at he
    obtain rfl := Json.obj.inj he
    exact hgs
  · exact fun hes => ⟨es, hes, ofFields_eq h⟩

mutual

/-- A value is read back, to a depth, if it is no deeper and its numbers are. -/
theorem toJson?_reading_eq_some_iff : ∀ (j : Json) {d : Nat}, Ordered j →
    (toJson? d (reading f j) = some j ↔ j.depth ≤ d ∧ ∀ n ∈ j.numbers, f n = some n)
  | .null, d, _ | .bool _, d, _ | .str _, d, _ => by simp [reading, toJson?, depth, numbers]
  | .num n, d, _ => by simp [reading, toJson?, depth, numbers]
  | .arr items, 0, _ => by simp [reading, toJson?, depth]
  | .obj fields, 0, _ => by simp [reading, toJson?, depth]
  | .arr items, d + 1, h => by
      rw [Ordered] at h
      rw [depth, numbers, Nat.add_le_add_iff_right, ← itemsToJson?_reading_eq_some_iff items h]
      simp [reading, toJson?]
  | .obj fields, d + 1, h => by
      rw [Ordered] at h
      rw [depth, numbers, Nat.add_le_add_iff_right, ← fieldsToJson?_reading_eq_some_iff fields h.2, reading, toJson?]
      exact map_ofFields_eq_some_iff h.1

theorem itemsToJson?_reading_eq_some_iff : ∀ (js : List Json) {d : Nat}, OrderedItems js →
    (itemsToJson? d (readingItems f js) = some js ↔ depthItems js ≤ d ∧ ∀ n ∈ numbersItems js, f n = some n)
  | [], d, _ => by simp [readingItems, itemsToJson?, depthItems, numbersItems]
  | j :: js, d, h => by
      rw [OrderedItems] at h
      have hhead := toJson?_reading_eq_some_iff (d := d) j h.1
      have htail := itemsToJson?_reading_eq_some_iff (d := d) js h.2
      rw [depthItems, numbersItems, Nat.max_le, List.forall_mem_append, and_and_and_comm, ← hhead, ← htail]
      simp [readingItems, itemsToJson?, Option.bind_eq_some_iff]

theorem fieldsToJson?_reading_eq_some_iff : ∀ (js : List (String × Json)) {d : Nat}, OrderedFields js →
    (fieldsToJson? d (readingFields f js) = some js ↔ depthFields js ≤ d ∧ ∀ n ∈ numbersFields js, f n = some n)
  | [], d, _ => by simp [readingFields, fieldsToJson?, depthFields, numbersFields]
  | (k, j) :: js, d, h => by
      rw [OrderedFields] at h
      have hhead := toJson?_reading_eq_some_iff (d := d) j h.1
      have htail := fieldsToJson?_reading_eq_some_iff (d := d) js h.2
      rw [depthFields, numbersFields, Nat.max_le, List.forall_mem_append, and_and_and_comm, ← hhead, ← htail]
      simp [readingFields, fieldsToJson?, Option.bind_eq_some_iff]

end

section Admission

variable {d : Nat}

theorem isSome_itemsToJson? : ∀ {js : List Json}, (∀ j ∈ js, (toJson? d (reading f j)).isSome = true) →
    (itemsToJson? d (readingItems f js)).isSome = true
  | [], _ => rfl
  | j :: js, h => by
      obtain ⟨hj, hjs⟩ := List.forall_mem_cons.1 h
      obtain ⟨v, hv⟩ := Option.isSome_iff_exists.1 hj
      obtain ⟨vs, hvs⟩ := Option.isSome_iff_exists.1 (isSome_itemsToJson? hjs)
      simp [readingItems, itemsToJson?, hv, hvs]

theorem isSome_fieldsToJson? : ∀ {es : List (String × Json)},
    (∀ e ∈ es, (toJson? d (reading f e.2)).isSome = true) → (fieldsToJson? d (readingFields f es)).isSome = true
  | [], _ => rfl
  | e :: es, h => by
      obtain ⟨he, hes⟩ := List.forall_mem_cons.1 h
      obtain ⟨v, hv⟩ := Option.isSome_iff_exists.1 he
      obtain ⟨vs, hvs⟩ := Option.isSome_iff_exists.1 (isSome_fieldsToJson? hes)
      simp [readingFields, fieldsToJson?, hv, hvs]

theorem isSome_toJson?_arr {js : List Json} (h : ∀ j ∈ js, (toJson? d (reading f j)).isSome = true) :
    (toJson? (d + 1) (reading f (.arr js))).isSome = true := by
  rw [reading, toJson?, Option.isSome_map]
  exact isSome_itemsToJson? h

theorem isSome_toJson?_ofFields {es : List (String × Json)}
    (h : ∀ e ∈ es, (toJson? d (reading f e.2)).isSome = true) :
    (toJson? (d + 1) (reading f (.ofFields es))).isSome = true := by
  rw [Json.ofFields, reading, toJson?, Option.isSome_map]
  refine isSome_fieldsToJson? fun e he => h e ?_
  exact (Entries.mem_of_mem_foldl_place he).resolve_left (List.not_mem_nil)

end Admission

end Document

end Inventory
