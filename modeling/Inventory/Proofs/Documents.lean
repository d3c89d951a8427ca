import Inventory.Json.Decoder

/-!
Parts of documents that are written and read back. Of several fields with one key the last one stands.
-/

namespace Inventory

namespace Entries

variable {κ ν : Type} [DecidableEq κ]

theorem lookup_append (k : κ) (es fs : List (κ × ν)) : lookup k (es ++ fs) = (lookup k es).or (lookup k fs) := by
  induction es with
  | nil => rfl
  | cons e es ih =>
      rw [List.cons_append, lookup, lookup, ih]
      split <;> rfl

theorem lookup_foldl_place [LT κ] [DecidableLT κ] (k : κ) (fs acc : List (κ × ν)) :
    lookup k (fs.foldl (fun acc f => place f.1 f.2 acc) acc) = (lookup k fs.reverse).or (lookup k acc) := by
  induction fs generalizing acc with
  | nil => rfl
  | cons f fs ih =>
      rw [List.foldl_cons, ih, List.reverse_cons, lookup_append, Option.or_assoc]
      congr 1
      by_cases h : k = f.1
      · subst h
        simp [lookup_place_self, lookup]
      · simp [lookup_place_of_ne _ _ h, lookup, h]

theorem lookup_foldl_place_nil [LT κ] [DecidableLT κ] (k : κ) (fs : List (κ × ν)) :
    lookup k (fs.foldl (fun acc f => place f.1 f.2 acc) []) = lookup k fs.reverse := by
  rw [lookup_foldl_place]
  exact Option.or_none

end Entries

open Entries

namespace Json

theorem get?_ofFields (key : String) (fields : List (String × Json)) :
    (ofFields fields).get? key = lookup key fields.reverse := by
  rw [ofFields, get?, lookup_foldl_place_nil]

theorem fields_increasing (fields : List (String × Json)) :
    (fields.foldl (fun acc f => place f.1 f.2 acc) []).Pairwise fun a b => a.1 < b.1 := by
  have step : ∀ acc : List (String × Json), (acc.Pairwise fun a b => a.1 < b.1) →
      (fields.foldl (fun acc f => place f.1 f.2 acc) acc).Pairwise fun a b => a.1 < b.1 := by
    induction fields with
    | nil => exact fun _ h => h
    | cons f fields ih => exact fun acc h => ih _ (place_increasing f.1 f.2 h)
  exact step [] .nil

end Json

namespace Document

mutual

/-- The document that a value is read as from its text, where `f` says what its numbers are read as. -/
def reading (f : Number → Option Number) : Json → Document
  | .null => null
  | .bool b => bool b
  | .num n => num (f n)
  | .str s => str (some s)
  | .arr items => arr (readingItems f items)
  | .obj fields => obj (readingFields f fields)

def readingItems (f : Number → Option Number) : List Json → List Document
  | [] => []
  | j :: js => reading f j :: readingItems f js

def readingFields (f : Number → Option Number) : List (String × Json) → List (Option String × Document)
  | [] => []
  | (k, j) :: js => (some k, reading f j) :: readingFields f js

end

mutual

theorem reading_some : ∀ j, reading some j = ofJson j
  | .null | .bool _ | .num _ | .str _ => rfl
  | .arr items => congrArg arr (readingItems_some items)
  | .obj fields => congrArg obj (readingFields_some fields)

theorem readingItems_some : ∀ js, readingItems some js = ofItems js
  | [] => rfl
  | j :: js => by rw [readingItems, ofItems, reading_some j, readingItems_some js]

theorem readingFields_some : ∀ js, readingFields some js = ofFields js
  | [] => rfl
  | (k, j) :: js => by rw [readingFields, ofFields, reading_some j, readingFields_some js]

end

variable {f : Number → Option Number}

theorem filter_readingFields (name : String) (es : List (String × Json)) (h : es.Pairwise fun a b => a.1 < b.1) :
    (readingFields f es).filter (·.1 == some name) =
      ((lookup name es).map fun j => (some name, reading f j)).toList := by
  induction es with
  | nil => rfl
  | cons e es ih =>
      obtain ⟨k, j⟩ := e
      obtain ⟨hlt, hes⟩ := List.pairwise_cons.1 h
      rw [readingFields, List.filter_cons, ih hes, lookup]
      by_cases hk : name = k
      · subst hk
        rw [lookup_eq_none_of_lt hlt]
        simp
      · have hk' : ¬k = name := fun h => hk h.symm
        simp [hk, hk']

theorem field?_readingFields (name : String) {es : List (String × Json)} (h : es.Pairwise fun a b => a.1 < b.1) :
    field? name (readingFields f es) = some ((lookup name es).map (reading f)) := by
  rw [field?, filter_readingFields name es h]
  cases lookup name es <;> rfl

theorem named_readingFields (es : List (String × Json)) : (readingFields f es).all (·.1.isSome) = true := by
  induction es with
  | nil => rfl
  | cons e es ih =>
      rw [readingFields, List.all_cons, ih]
      rfl

theorem record?_readingFields (names : List String) {es : List (String × Json)}
    (h : es.Pairwise fun a b => a.1 < b.1) :
    record? names (obj (readingFields f es)) = some (names.map fun n => (lookup n es).map (reading f)) := by
  rw [record?, if_pos (named_readingFields _)]
  induction names with
  | nil => rfl
  | cons n names ih =>
      rw [List.mapM_cons, field?_readingFields n h, ih]
      rfl

theorem record?_reading (f : Number → Option Number) (names : List String) (fields : List (String × Json)) :
    record? names (reading f (.ofFields fields)) =
      some (names.map fun n => (lookup n fields.reverse).map (reading f)) := by
  rw [Json.ofFields, reading, record?_readingFields names (Json.fields_increasing fields)]
  simp only [lookup_foldl_place_nil]

theorem lookup_filter_ne {name tag : String} (h : name ≠ tag) (es : List (String × Json)) :
    lookup name (es.filter (·.1 != tag)) = lookup name es := by
  induction es with
  | nil => rfl
  | cons e es ih =>
      rw [List.filter_cons, lookup]
      split
      · rw [lookup, ih]
      · rename_i he
        rw [ih, if_neg]
        rintro rfl
        exact he (by simpa using h)

theorem filter_readingFields_ne (tag : String) (es : List (String × Json)) :
    (readingFields f es).filter (·.1 != some tag) = readingFields f (es.filter (·.1 != tag)) := by
  induction es with
  | nil => rfl
  | cons e es ih =>
      rw [readingFields, List.filter_cons, List.filter_cons, ih]
      by_cases he : e.1 = tag
      · simp [he]
      · simp [he, readingFields]

theorem record?_reading_untagged (f : Number → Option Number) {tag : String} {names : List String} (h : tag ∉ names)
    (j : Json) (fields : List (String × Json)) :
    record? names (obj ((readingFields f (((tag, j) :: fields).foldl (fun acc e => place e.1 e.2 acc) [])).filter
      (·.1 != some tag))) = some (names.map fun n => (lookup n fields.reverse).map (reading f)) := by
  rw [filter_readingFields_ne, record?_readingFields names ((Json.fields_increasing _).filter _)]
  refine congrArg some (List.map_congr_left fun n hn => ?_)
  have hne : n ≠ tag := by
    rintro rfl
    exact h hn
  rw [lookup_filter_ne hne, lookup_foldl_place_nil, List.reverse_cons, lookup_append, lookup, if_neg hne]
  simp [lookup]

theorem record?_ofJson (names : List String) (fields : List (String × Json)) :
    record? names (ofJson (.ofFields fields)) = some (names.map fun n => (lookup n fields.reverse).map ofJson) := by
  rw [← reading_some, record?_reading, funext reading_some]

section Decoders

variable {α : Type} {read : Document → Option α} {write : α → Json}

theorem text?_reading (s : String) : text? (reading f (.str s)) = some s := rfl

theorem bool?_reading (b : Bool) : bool? (reading f (.bool b)) = some b := rfl

theorem word?_reading (words : List (String × α)) (w : String) :
    word? words (reading f (.str w)) = words.lookup w := rfl

theorem openWord?_reading (words : List (String × α)) (w : String) :
    openWord? words (reading f (.str w)) = words.lookup w := rfl

theorem nullable_text?_reading (o : Option String) : nullable text? (reading f (.ofOption .str o)) = some o := by
  cases o <;> rfl

theorem list?_reading_eq_some_iff (as : List α) : list? read (reading f (.arr (as.map write))) = some as ↔
    ∀ a ∈ as, read (reading f (write a)) = some a := by
  rw [reading, list?]
  induction as with
  | nil => exact iff_of_true rfl (by simp)
  | cons a as ih =>
      rw [List.map_cons, readingItems, List.mapM_cons, List.forall_mem_cons, ← ih]
      simp [Option.bind_eq_some_iff]

theorem list?_reading (h : ∀ a, read (reading f (write a)) = some a) (as : List α) :
    list? read (reading f (.arr (as.map write))) = some as := (list?_reading_eq_some_iff as).2 fun a _ => h a

theorem list?_text?_reading (ss : List String) : list? text? (reading f (.ofStrings ss)) = some ss :=
  list?_reading text?_reading ss

theorem names?_reading (s : NameSet) : names? (reading f (.ofStrings s.items)) = some s := by
  rw [names?, list?_text?_reading, Option.map_some]
  exact congrArg some (OrderedSet.ext fun _ => OrderedSet.mem_ofList)

end Decoders

end Document

end Inventory
