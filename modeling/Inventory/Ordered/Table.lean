/-!
Finite tables in the order of their keys. `get?` is the view of a table: tables that answer alike are equal.
-/

namespace Inventory

namespace Entries

variable {κ ν : Type} [DecidableEq κ]

def lookup (k : κ) : List (κ × ν) → Option ν
  | [] => none
  | (l, v) :: rest => if k = l then some v else lookup k rest

/-- Entries without the one of a key. -/
def without (k : κ) : List (κ × ν) → List (κ × ν)
  | [] => []
  | (l, v) :: rest => if k = l then rest else (l, v) :: without k rest

theorem without_sublist (k : κ) (es : List (κ × ν)) : (without k es).Sublist es := by
  induction es with
  | nil => exact .slnil
  | cons e es ih =>
    simp only [without]
    split
    · exact .cons _ (List.Sublist.refl _)
    · exact .cons_cons _ ih

theorem lookup_without_of_ne {k l : κ} (es : List (κ × ν)) (h : l ≠ k) :
    lookup l (without k es) = lookup l es := by
  induction es with
  | nil => rfl
  | cons e es ih => grind [without, lookup]

theorem lookup_isSome_iff {k : κ} {es : List (κ × ν)} : (lookup k es).isSome ↔ k ∈ es.map (·.1) := by
  induction es with
  | nil => simp [lookup]
  | cons e es ih => grind [lookup]

/-- Entries with one put before the first of a larger key, where it replaces one of the same key. -/
def place [LT κ] [DecidableLT κ] (k : κ) (v : ν) : List (κ × ν) → List (κ × ν)
  | [] => [(k, v)]
  | (l, w) :: rest =>
    if k < l then (k, v) :: (l, w) :: rest
    else if k = l then (k, v) :: rest
    else (l, w) :: place k v rest

section Place

variable [LT κ] [DecidableLT κ]

theorem mem_place {k : κ} {v : ν} {es : List (κ × ν)} {e : κ × ν} (h : e ∈ place k v es) :
    e = (k, v) ∨ e ∈ es := by
  induction es with
  | nil => simpa [place] using h
  | cons x es ih => grind [place]

theorem lookup_place_self (k : κ) (v : ν) (es : List (κ × ν)) : lookup k (place k v es) = some v := by
  induction es with
  | nil => simp [place, lookup]
  | cons e es ih => grind [place, lookup]

theorem lookup_place_of_ne {k l : κ} (v : ν) (es : List (κ × ν)) (h : l ≠ k) :
    lookup l (place k v es) = lookup l es := by
  induction es with
  | nil => simp [place, lookup, h]
  | cons e es ih => grind [place, lookup]

end Place

section Order

variable [LT κ] [LE κ] [Std.LawfulOrderLT κ]

theorem lookup_eq_none_of_lt {k : κ} {es : List (κ × ν)} (h : ∀ e ∈ es, k < e.1) : lookup k es = none := by
  cases hk : lookup k es with
  | none => rfl
  | some v =>
    have hmem : k ∈ es.map (·.1) := lookup_isSome_iff.1 (by simp [hk])
    obtain ⟨e, he, rfl⟩ := List.mem_map.1 hmem
    exact absurd (h e he) Std.lt_irrefl

theorem lookup_without_self {k : κ} {es : List (κ × ν)} (h : es.Pairwise fun a b => a.1 < b.1) :
    lookup k (without k es) = none := by
  induction es with
  | nil => rfl
  | cons e es ih =>
    obtain ⟨hl, ht⟩ := List.pairwise_cons.1 h
    by_cases hk : k = e.1
    · simpa [without, hk] using lookup_eq_none_of_lt hl
    · simp [without, lookup, hk, ih ht]

variable [Std.IsLinearOrder κ]

theorem place_increasing [DecidableLT κ] (k : κ) (v : ν) {es : List (κ × ν)}
    (h : es.Pairwise fun a b => a.1 < b.1) : (place k v es).Pairwise fun a b => a.1 < b.1 := by
  induction es with
  | nil => simp [place]
  | cons e es ih =>
    obtain ⟨l, w⟩ := e
    obtain ⟨hl, ht⟩ := List.pairwise_cons.1 h
    simp only [place]
    split
    · rename_i hk
      refine List.pairwise_cons.2 ⟨fun b hb => ?_, h⟩
      rcases List.mem_cons.1 hb with rfl | hb
      · exact hk
      · exact Std.lt_trans hk (hl b hb)
    · split
      · rename_i hk
        subst hk
        exact List.pairwise_cons.2 ⟨fun b hb => hl b hb, ht⟩
      · rename_i hk hne
        refine List.pairwise_cons.2 ⟨fun b hb => ?_, ih ht⟩
        rcases mem_place hb with rfl | hb
        · exact (Std.lt_trichotomy l k).resolve_right (by grind)
        · exact hl b hb

theorem not_lt_of_lookup_eq {e : κ × ν} {es fs : List (κ × ν)} {f : κ × ν} (hf : ∀ x ∈ fs, f.1 < x.1)
    (h : lookup e.1 (e :: es) = lookup e.1 (f :: fs)) : ¬e.1 < f.1 := by
  intro hlt
  have hlow : ∀ x ∈ f :: fs, e.1 < x.1 := by
    intro x hx
    rcases List.mem_cons.1 hx with rfl | hx
    · exact hlt
    · exact Std.lt_trans hlt (hf x hx)
  rw [lookup_eq_none_of_lt hlow] at h
  simp [lookup] at h

theorem eq_of_lookup_eq {es fs : List (κ × ν)} (he : es.Pairwise fun a b => a.1 < b.1)
    (hf : fs.Pairwise fun a b => a.1 < b.1) (h : ∀ k, lookup k es = lookup k fs) : es = fs := by
  induction es generalizing fs with
  | nil =>
    cases fs with
    | nil => rfl
    | cons f fs => simpa [lookup] using h f.1
  | cons e es ih =>
    obtain ⟨hle, hte⟩ := List.pairwise_cons.1 he
    cases fs with
    | nil => simpa [lookup] using h e.1
    | cons f fs =>
      obtain ⟨hlf, htf⟩ := List.pairwise_cons.1 hf
      have hkey : e.1 = f.1 :=
        ((Std.lt_trichotomy e.1 f.1).resolve_left (not_lt_of_lookup_eq hlf (h e.1))).resolve_right
          (not_lt_of_lookup_eq hle (h f.1).symm)
      obtain ⟨k, v⟩ := e
      obtain ⟨l, w⟩ := f
      simp only at hkey
      subst hkey
      obtain rfl : v = w := by simpa [lookup] using h k
      rw [ih hte htf fun l => ?_]
      by_cases hl : l = k
      · subst hl
        rw [lookup_eq_none_of_lt hle, lookup_eq_none_of_lt hlf]
      · simpa [lookup, hl] using h l

end Order

end Entries

/-- Entries with strictly increasing keys. -/
structure Table (κ ν : Type) [LT κ] where
  entries : List (κ × ν)
  increasing : entries.Pairwise fun a b => a.1 < b.1

namespace Table

open Entries

variable {κ ν : Type} [LT κ]

def empty : Table κ ν := ⟨[], .nil⟩

instance : Inhabited (Table κ ν) := ⟨empty⟩

instance [DecidableEq κ] [DecidableEq ν] : DecidableEq (Table κ ν) := fun t u =>
  decidable_of_iff (t.entries = u.entries) (by cases t; cases u; simp)

def keys (t : Table κ ν) : List κ := t.entries.map (·.1)

def values (t : Table κ ν) : List ν := t.entries.map (·.2)

def size (t : Table κ ν) : Nat := t.entries.length

def isEmpty (t : Table κ ν) : Bool := t.entries.isEmpty

section View

variable [DecidableEq κ]

def get? (t : Table κ ν) (k : κ) : Option ν := lookup k t.entries

def contains (t : Table κ ν) (k : κ) : Bool := (t.get? k).isSome

def erase (t : Table κ ν) (k : κ) : Table κ ν :=
  ⟨without k t.entries, t.increasing.sublist (without_sublist k t.entries)⟩

@[simp]
theorem get?_empty (k : κ) : (empty : Table κ ν).get? k = none := rfl

theorem get?_isSome_iff {t : Table κ ν} {k : κ} : (t.get? k).isSome ↔ k ∈ t.keys := lookup_isSome_iff

end View

variable [LE κ] [Std.LawfulOrderLT κ] [DecidableEq κ]

@[simp]
theorem get?_erase (t : Table κ ν) (k l : κ) : (t.erase k).get? l = if l = k then none else t.get? l := by
  split
  · subst l
    exact lookup_without_self t.increasing
  · exact lookup_without_of_ne t.entries (by assumption)

variable [Std.IsLinearOrder κ]

@[ext]
theorem ext {t u : Table κ ν} (h : ∀ k, t.get? k = u.get? k) : t = u := by
  have := eq_of_lookup_eq t.increasing u.increasing h
  cases t; cases u; simp_all

variable [DecidableLT κ]

def insert (t : Table κ ν) (k : κ) (v : ν) : Table κ ν :=
  ⟨place k v t.entries, place_increasing k v t.increasing⟩

/-- The table of some entries, the last of several with one key kept. -/
def ofList (es : List (κ × ν)) : Table κ ν := es.foldl (fun t e => t.insert e.1 e.2) empty

/-- Replaces the value of a key by what `f` makes of it, `none` standing for no entry. -/
def alter (t : Table κ ν) (k : κ) (f : Option ν → Option ν) : Table κ ν :=
  match f (t.get? k) with
  | some v => t.insert k v
  | none => t.erase k

@[simp]
theorem get?_insert (t : Table κ ν) (k l : κ) (v : ν) :
    (t.insert k v).get? l = if l = k then some v else t.get? l := by
  split
  · subst l
    exact lookup_place_self k v t.entries
  · exact lookup_place_of_ne v t.entries (by assumption)

@[simp]
theorem get?_alter (t : Table κ ν) (k l : κ) (f : Option ν → Option ν) :
    (t.alter k f).get? l = if l = k then f (t.get? k) else t.get? l := by
  simp only [alter]
  split <;> simp_all

/-- What a table holds once values have been put under their keys, the last of several with one key. -/
theorem get?_foldl_insert (key : ν → κ) (t : Table κ ν) (vs : List ν) (k : κ) :
    (vs.foldl (fun t v => t.insert (key v) v) t).get? k = (vs.reverse.find? (key · == k)).or (t.get? k) := by
  induction vs generalizing t with
  | nil => rfl
  | cons v vs ih =>
    rw [List.foldl_cons, ih, get?_insert, List.reverse_cons, List.find?_append, Option.or_assoc]
    refine congrArg _ ?_
    by_cases hk : key v = k
    · simp [hk]
    · simp [hk, Ne.symm hk]

end Table

end Inventory
