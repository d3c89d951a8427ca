import Inventory.Proofs.IntegerComparison

/-!
The two filters of a specification: that of a listing, and that of related instances. Whatever of a type passes the
first passes the second, which asks by fewer attributes and takes numbers as lower bounds.
-/

namespace Inventory.RelatedSearches

open Query Listing Inventory.Graph

variable {g : Graph} {vars : Vars} {u : Uid} {t : EquipmentType} {a : Attribute} {q : Search} {f : SearchFilter}
  {v : FieldValue} {stored : List Json}

section Values

/-- Numbers that are equal as such are equal as floating-point numbers. -/
theorem not_lt_of_numberEq {m n : Number} (h : Comparison.numberEq m n = true) :
    m.toBinary64.lt n.toBinary64 = false := by
  have hunits : m.toBinary64.units = n.toBinary64.units := by
    cases m with
    | int i =>
        cases n with
        | int j =>
            rw [Comparison.numberEq] at h
            split at h
            · rw [beq_iff_eq.1 h]
            · exact beq_iff_eq.1 h
        | float y => exact beq_iff_eq.1 h
    | float x => cases n <;> exact beq_iff_eq.1 h
  rw [Binary64.lt, hunits]
  exact decide_eq_false (Int.lt_irrefl _)

theorem atLeast_of_equal {n : Number} (h : ∃ m, .num m ∈ stored ∧ Comparison.numberEq m n = true) :
    AtLeast stored n := by
  obtain ⟨m, hm, he⟩ := h
  exact ⟨m, hm, not_lt_of_numberEq he⟩

/-- What meets a value in a listing meets it among related instances. -/
theorem meetsOn_related {c : Inventory.Comparison} (h : MeetsOn .listed stored c v) : MeetsOn .related stored c v := by
  cases v with
  | string s => exact h
  | int i => cases c <;> exact atLeast_of_equal h
  | float x => cases c <;> exact atLeast_of_equal h

end Values

section Searches

theorem searched?_listed_of_related {key : String} (h : searched? .related t key = some a) :
    searched? .listed t key = some a := by
  simp only [searched?, Option.filter_eq_some_iff, Bool.and_eq_true, Bool.or_eq_true] at h ⊢
  exact ⟨h.1, h.2.1, .inl rfl⟩

/-- Texts are searched for alike on both paths. -/
theorem searchFilter?_string (hstring : a.dataType = .string) :
    searchFilter? .related t a q = searchFilter? .listed t a q := by
  have halike : alternative .related (predicateOf t a) .string q.comparison =
      alternative .listed (predicateOf t a) .string q.comparison := by
    funext v
    cases q.comparison <;> rfl
  rw [searchFilter?, searchFilter?, hstring, halike]

/-- A search for numbers does not fail, as only patterns do. -/
theorem settles_numbers {path : Path} {test : Filter} (hnumber : a.dataType ≠ .string)
    (h : searchFilter? path t a q = some test) : Settles (fun _ => False) (holds g vars u test)
      (∃ v ∈ offers q a, MeetsOn path (g.values u (predicateOf t a)) q.comparison v) := by
  refine settles_searchFilter? h ?_
  rintro s - ⟨raw, -, hc⟩ -
  exact hnumber (Conversions.dataType_of_convert hc).symm

theorem passes_searchFilter? (h : passes g vars (searchFilter? .listed t a q) u = .ok true) :
    passes g vars (searchFilter? .related t a q) u = .ok true := by
  by_cases hstring : a.dataType = .string
  · rw [searchFilter?_string hstring]
    exact h
  · cases hrelated : searchFilter? .related t a q with
    | none => rfl
    | some test =>
        obtain ⟨v, hv⟩ := offers_of_searchFilter? hrelated
        obtain ⟨test', hlisted⟩ := exists_searchFilter? .listed t hv
        rw [hlisted, passes] at h
        obtain ⟨w, hw, hm⟩ := ((settles_numbers hstring hlisted).decides true h).1 rfl
        exact (settles_numbers hstring hrelated).eq_true (fun _ => id) ⟨w, hw, meetsOn_related hm⟩

theorem passes_searchTest? (h : passes g vars (searchTest? .listed t q) u = .ok true) :
    passes g vars (searchTest? .related t q) u = .ok true := by
  cases hs : searched? .related t q.key with
  | none => rw [searchTest?, hs]; rfl
  | some a =>
      rw [searchTest?, searched?_listed_of_related hs] at h
      rw [searchTest?, hs]
      exact passes_searchFilter? h

theorem holdsAll_filterMap_iff {ι : Type} {part : ι → Option Filter} {is : List ι} :
    holdsAll g vars u (is.filterMap part) = .ok true ↔ ∀ i ∈ is, passes g vars (part i) u = .ok true := by
  induction is with
  | nil => simp [holdsAll]
  | cons i is ih =>
      rw [List.forall_mem_cons, ← ih]
      cases hp : part i with
      | none =>
          rw [List.filterMap_cons_none hp]
          simp [passes]
      | some f =>
          rw [List.filterMap_cons_some hp, holdsAll, passes]
          cases holds g vars u f with
          | error e => simp [bind, Except.bind]
          | ok b => cases b <;> simp [bind, Except.bind]

theorem passes_attributeFilter? (h : passes g vars (attributeFilter? .listed t f) u = .ok true) :
    passes g vars (attributeFilter? .related t f) u = .ok true := by
  have hparts : ∀ path, passes g vars (attributeFilter? path t f) u = .ok true ↔
      ∀ q ∈ f.ordered, passes g vars (searchTest? path t q) u = .ok true := by
    intro path
    rw [attributeFilter?, passes_allOf]
    exact holdsAll_filterMap_iff
  rw [hparts] at h ⊢
  exact fun q hq => passes_searchTest? (h q hq)

end Searches

/-- A node of a type that passes the filter of a listing, if there is one, passes that of related instances. -/
theorem holds_related_of_listed (hpasses : passes g vars (instanceFilter? t f) u = .ok true)
    (htype : .str t.typeName ∈ g.values u Vocabulary.equipmentType) :
    holds g vars u (relationshipFilter t f) = .ok true := by
  have htyped : holds g vars u (.eq Vocabulary.equipmentType (.str t.typeName)) = .ok true := by
    rw [holds_eq_str, decide_eq_true htype]
  have hattributes := passes_attributeFilter? hpasses
  unfold relationshipFilter
  cases hf : attributeFilter? .related t f with
  | none => exact htyped
  | some attributes =>
      rw [hf] at hattributes
      rw [holds]
      exact holdsAll_cons htyped (holdsAll_singleton hattributes)

section Servers

open IntegerComparison (machine servers stocked_few)

/-- The server with this key, and those with eight or sixteen cores, one of which is not written as an integer. -/
def keyAndCores : SearchFilter :=
  ⟨[.eq "key" (.str "x"), .anyOf "cores" .eq [.str "many", .num (.float (.ofInt 8)), .str "16"]]⟩

/-- A server that is found in a listing is found among related instances, where its key is not asked for. -/
theorem holds_related_servers :
    passes (servers 8 16).graph .empty (instanceFilter? machine keyAndCores) ⟨1⟩ = .ok true ∧
    holds (servers 8 16).graph .empty ⟨1⟩ (relationshipFilter machine keyAndCores) = .ok true := by
  have hordered : keyAndCores.ordered = keyAndCores.searches := List.mergeSort_of_pairwise (by decide +kernel)
  have hpasses : passes (servers 8 16).graph .empty (instanceFilter? machine keyAndCores) ⟨1⟩ = .ok true := by
    rw [instanceFilter?, attributeFilter?, hordered]
    decide +kernel
  exact ⟨hpasses, holds_related_of_listed hpasses (stocked_few.typed _ (by simp))⟩

end Servers

end Inventory.RelatedSearches
