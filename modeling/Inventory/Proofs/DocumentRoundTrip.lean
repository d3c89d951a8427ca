import Inventory.Config
import Inventory.EquipmentType
import Inventory.Hierarchy.Topology
import Inventory.Listing.Spec
import Inventory.MetadataSource
import Inventory.Proofs.DocumentDepth
import Inventory.Proofs.NumberReading
import Inventory.Schema.Statement

/-!
Documents that are written and read back. Definitions, sources, statements, settings and topologies come back as they
were. A listing comes back just when the values that it searches for do: a reader admits them only to a depth, and it
reads some floating-point numbers as their neighbours.
-/

namespace Inventory.DocumentRoundTrip

open Text Json Document Entries DocumentTexts NumberReading Schema

variable {α : Type} {f : Number → Option Number}

/-- What is read from the text that is written for a value. -/
def reread (read : Document → Option α) (j : Json) : Option α := (Reader.read? j.render).bind read

theorem reread_eq (read : Document → Option α) (j : Json) : reread read j = read (reading readBack j) := by
  rw [reread, read?_render, Option.bind_some]

section Integers

theorem nat?_reading {bits n : Nat} (hbits : bits ≤ 64) (h : n < 1 <<< bits) :
    nat? bits (reading readBack (.ofNat n)) = some n := by
  have hlt : n < 1 <<< 64 := by
    rw [Nat.shiftLeft_eq] at h ⊢
    exact Nat.lt_of_lt_of_le h (Nat.mul_le_mul_left 1 (Nat.pow_le_pow_right (by decide) hbits))
  have hread : readBack (.int n) = some (.int n) := readBack_int (by omega) (by omega)
  rw [ofNat, reading, hread, Document.nat?, if_pos (by simpa [Bits.isUnsigned] using h), Int.toNat_natCast]

theorem int?_reading {i : Int} (h : Bits.isSigned 32 i = true) :
    int? 32 (reading readBack (.num (.int i))) = some i := by
  have hbounds : -2147483648 ≤ i ∧ i < 2147483648 := by
    simp only [Bits.isSigned] at h
    split at h <;> simp only [decide_eq_true_eq] at h <;> omega
  have hread : readBack (.int i) = some (.int i) := readBack_int (by omega) (by omega)
  rw [reading, hread, Document.int?, if_pos h]

end Integers

section Definitions

theorem attribute_reading (a : Attribute) : Attribute.ofDocument? (reading f a.toJson) = some a := by
  rw [Attribute.ofDocument?, Attribute.toJson, record?_reading]
  simp [Attribute.fieldNames, lookup, required, defaulted, text?_reading, bool?_reading, word?_reading,
    DataType.lookup_name]

theorem equipmentType_reading (t : EquipmentType) : EquipmentType.ofDocument? (reading f t.toJson) = some t := by
  rw [EquipmentType.ofDocument?, EquipmentType.toJson, record?_reading]
  simp [EquipmentType.fieldNames, lookup, required, defaulted, text?_reading, nullable_text?_reading, names?_reading,
    list?_reading attribute_reading]

theorem source_reading (s : MetadataSource) : MetadataSource.ofDocument? (reading f s.toJson) = some s := by
  obtain ⟨id, sourceName, kind, scope, columns⟩ := s
  cases kind
  rw [MetadataSource.ofDocument?, MetadataSource.toJson, record?_reading]
  simp [MetadataSource.fieldNames, MetadataKind.name, lookup, required, defaulted, text?_reading, word?_reading,
    names?_reading]

theorem topology_reading (t : Topology) : Topology.ofDocument? (reading f t.toJson) = some t := by
  have hword : Direction.words.lookup t.direction.name = some t.direction := by cases t.direction <;> rfl
  have htable : Topology.table? (reading f t.toJson) = some (t.name, t.levels, t.direction) := by
    rw [Topology.table?, Topology.toJson, record?_reading]
    simp [Topology.fieldNames, lookup, required, text?_reading, list?_text?_reading, word?_reading, hword]
  have hnew : Topology.new t.name t.levels t.direction = .ok t := by
    rw [Topology.new, dif_pos t.two_le, dif_pos t.not_blank]
  rw [Topology.ofDocument?, htable, Option.bind_some]
  simp only [hnew, Except.toOption]

end Definitions

section Statements

theorem predicateStatement_reading (p : PredicateStatement) {d : Document}
    (h : d.record? PredicateStatement.fieldNames =
      some (PredicateStatement.fieldNames.map fun n => (lookup n p.fields.reverse).map (reading f))) :
    PredicateStatement.ofDocument? d = some p := by
  have hkind : ScalarKind.words.lookup p.kind.name = some p.kind := by cases p.kind <;> rfl
  have hindex : ∀ k : IndexKind, openWord? IndexKind.words (reading f (.str k.name)) = some k := by
    intro k
    cases k <;> rfl
  have hindexes : list? (openWord? IndexKind.words) (reading f (.ofStrings (p.indexes.map IndexKind.name))) =
      some p.indexes := by
    rw [ofStrings, List.map_map]
    exact list?_reading hindex p.indexes
  rw [PredicateStatement.ofDocument?, h]
  simp [PredicateStatement.fieldNames, PredicateStatement.fields, lookup, required, text?_reading, bool?_reading,
    openWord?_reading, hkind, hindexes]

theorem typeStatement_reading (t : TypeStatement) {d : Document}
    (h : d.record? TypeStatement.fieldNames =
      some (TypeStatement.fieldNames.map fun n => (lookup n t.jsonFields.reverse).map (reading f))) :
    TypeStatement.ofDocument? d = some t := by
  rw [TypeStatement.ofDocument?, h]
  simp [TypeStatement.fieldNames, TypeStatement.jsonFields, lookup, required, text?_reading, list?_text?_reading]

theorem isSome_statement (d : Nat) (s : Statement) : (toJson? (d + 2) (reading f s.toJson)).isSome = true := by
  have htexts : ∀ ss, (toJson? (d + 1) (reading f (.ofStrings ss))).isSome = true := by
    intro ss
    refine isSome_toJson?_arr fun j hj => ?_
    obtain ⟨s, -, rfl⟩ := List.mem_map.1 hj
    rfl
  cases s with
  | predicate p =>
      refine isSome_toJson?_ofFields ?_
      simp [PredicateStatement.fields, htexts, reading, toJson?]
  | type t =>
      refine isSome_toJson?_ofFields ?_
      simp [TypeStatement.jsonFields, htexts, reading, toJson?]

theorem ofDocument?_tagged {d : Nat} {tag : String} {es : List (String × Json)}
    (hes : lookup "statement" es.reverse = none)
    (h : (toJson? d (reading f (.ofFields (("statement", .str tag) :: es)))).isSome = true) :
    Statement.ofDocument? d (reading f (.ofFields (("statement", .str tag) :: es))) =
      Statement.ofTagged? (.str (some tag))
        (.obj ((readingFields f ((("statement", .str tag) :: es).foldl (fun acc e => place e.1 e.2 acc) [])).filter
          (·.1 != some "statement"))) := by
  have htag := field?_readingFields (f := f) "statement" (Json.fields_increasing (("statement", .str tag) :: es))
  rw [lookup_foldl_place_nil, List.reverse_cons, lookup_append, hes, Option.none_or, lookup, if_pos rfl] at htag
  rw [Json.ofFields, reading] at h ⊢
  unfold Statement.ofDocument?
  rw [if_neg (by rw [← Option.not_isSome, h]; decide)]
  simp only [htag]
  rfl

theorem statement_reading (d : Nat) (s : Statement) : Statement.ofDocument? (d + 2) (reading f s.toJson) = some s := by
  have hadmitted := isSome_statement (f := f) d s
  cases s with
  | predicate p =>
      rw [Statement.toJson] at hadmitted ⊢
      rw [ofDocument?_tagged (by simp [PredicateStatement.fields, lookup]) hadmitted, Statement.ofTagged?,
        predicateStatement_reading p (record?_reading_untagged f (by decide) _ _), Option.map_some]
  | type t =>
      rw [Statement.toJson] at hadmitted ⊢
      rw [ofDocument?_tagged (by simp [TypeStatement.jsonFields, lookup]) hadmitted, Statement.ofTagged?,
        typeStatement_reading t (record?_reading_untagged f (by decide) _ _), Option.map_some]

theorem statements_reading (ss : List Statement) : statements? (reading f (.arr (ss.map Statement.toJson))) = some ss :=
  list?_reading (statement_reading (maxDepth - 3)) ss

end Statements

section Settings

/-- Settings that fit their words. -/
structure FitsConfig (c : DeletionConfig) : Prop where
  batchSize : c.batchSize < 1 <<< 64
  deadlineSecs : c.deadlineSecs < 1 <<< 64
  maxRetries : c.maxRetries < 1 <<< 32
  retryBackoffMs : c.retryBackoffMs < 1 <<< 64

theorem config_reading {c : DeletionConfig} (h : FitsConfig c) :
    DeletionConfig.ofDocument? (reading readBack c.toJson) = some c := by
  rw [DeletionConfig.ofDocument?, DeletionConfig.toJson, record?_reading]
  simp [DeletionConfig.fieldNames, lookup, defaulted, nat?_reading (Nat.le_refl 64) h.batchSize,
    nat?_reading (Nat.le_refl 64) h.deadlineSecs, nat?_reading (by decide) h.maxRetries,
    nat?_reading (Nat.le_refl 64) h.retryBackoffMs]

end Settings

section Listings

/-- How deep the values of a search may nest inside the document of a listing. -/
def valueDepth : Nat := 122

/-- A value whose text is read back inside the document of a listing. -/
structure Kept (v : Json) : Prop where
  depth : v.depth ≤ valueDepth
  numbers : ∀ n ∈ v.numbers, readBack n = some n

/-- A listing whose numbers fit their words, and whose objects are ordered. -/
structure FitsListing (s : ListingSpec) : Prop where
  offset : s.offset < 1 <<< 64
  pageSize : s.pageSize < 1 <<< 64
  priority : ∀ t ∈ s.filter.searches, Bits.isSigned 32 t.priority = true
  ordered : ∀ t ∈ s.filter.searches, ∀ v ∈ t.values, v.Ordered

theorem values_reading_iff {vs : List Json} (h : ∀ v ∈ vs, v.Ordered) :
    list? (toJson? valueDepth) (reading readBack (.arr vs)) = some vs ↔ ∀ v ∈ vs, Kept v := by
  have hlist : list? (toJson? valueDepth) (reading readBack (.arr (vs.map id))) = some vs ↔
      ∀ v ∈ vs, toJson? valueDepth (reading readBack (id v)) = some v := list?_reading_eq_some_iff vs
  rw [List.map_id] at hlist
  rw [hlist]
  refine forall₂_congr fun v hv => ?_
  rw [id, toJson?_reading_eq_some_iff v (h v hv)]
  exact ⟨fun ⟨hd, hn⟩ => ⟨hd, hn⟩, fun ⟨hd, hn⟩ => ⟨hd, hn⟩⟩

theorem search_reading_iff {s : Search} (hp : Bits.isSigned 32 s.priority = true) (hv : ∀ v ∈ s.values, v.Ordered) :
    Search.ofDocument? valueDepth (reading readBack s.toJson) = some s ↔ ∀ v ∈ s.values, Kept v := by
  have hword : Comparison.words.lookup s.comparison.name = some s.comparison := by cases s.comparison <;> rfl
  rw [← values_reading_iff hv, Search.ofDocument?, Search.toJson, record?_reading]
  obtain ⟨key, comparison, values, priority⟩ := s
  simp [Search.fieldNames, lookup, required, defaulted, text?_reading, word?_reading, hword, int?_reading hp,
    Option.bind_eq_some_iff]

theorem filter_reading_iff {s : SearchFilter} (hp : ∀ t ∈ s.searches, Bits.isSigned 32 t.priority = true)
    (hv : ∀ t ∈ s.searches, ∀ v ∈ t.values, v.Ordered) :
    SearchFilter.ofDocument? (maxDepth - 2) (reading readBack s.toJson) = some s ↔
      ∀ t ∈ s.searches, ∀ v ∈ t.values, Kept v := by
  have hlist : list? (Search.ofDocument? valueDepth) (reading readBack (.arr (s.searches.map Search.toJson))) =
      some s.searches ↔ ∀ t ∈ s.searches, ∀ v ∈ t.values, Kept v := by
    rw [list?_reading_eq_some_iff]
    exact forall₂_congr fun t ht => search_reading_iff (hp t ht) (hv t ht)
  rw [← hlist, SearchFilter.ofDocument?, SearchFilter.toJson, record?_reading]
  obtain ⟨searches⟩ := s
  have hdepth : maxDepth - 2 - 3 = valueDepth := rfl
  simp [lookup, defaulted, hdepth, Option.bind_eq_some_iff]

theorem related_reading (r : Related) : Related.ofDocument? (reading f r.toJson) = some r := by
  rw [Related.ofDocument?, Related.toJson, record?_reading]
  simp [Related.fieldNames, lookup, defaulted, nullable_text?_reading]

theorem listing_reading_iff {s : ListingSpec} (h : FitsListing s) :
    ListingSpec.ofDocument? (reading readBack s.toJson) = some s ↔
      ∀ t ∈ s.filter.searches, ∀ v ∈ t.values, Kept v := by
  have hword : Query.SortDirection.words.lookup s.sortOrder.name = some s.sortOrder := by cases s.sortOrder <;> rfl
  rw [← filter_reading_iff h.priority h.ordered, ListingSpec.ofDocument?, ListingSpec.toJson, record?_reading]
  have hoffset := nat?_reading (Nat.le_refl 64) h.offset
  have hpageSize := nat?_reading (Nat.le_refl 64) h.pageSize
  obtain ⟨offset, pageSize, sortBy, sortOrder, filter, related⟩ := s
  simp [ListingSpec.fieldNames, lookup, required, defaulted, text?_reading, word?_reading, hword, hoffset, hpageSize,
    related_reading, Option.bind_eq_some_iff]

end Listings

/-- Documents come back as what they were written for, a listing just when the values that it searches for nest no
deeper than a reader goes and hold no number that it reads as another one. Such a number is never an integer, and it
takes more digits than fifteen or stands far from one. -/
theorem documents_round_trip :
    (∀ t : EquipmentType, reread EquipmentType.ofDocument? t.toJson = some t) ∧
    (∀ a : Attribute, reread Attribute.ofDocument? a.toJson = some a) ∧
    (∀ s : MetadataSource, reread MetadataSource.ofDocument? s.toJson = some s) ∧
    (∀ ss : List Statement, reread statements? (.arr (ss.map Statement.toJson)) = some ss) ∧
    (∀ t : Topology, reread Topology.ofDocument? t.toJson = some t) ∧
    (∀ c : DeletionConfig, FitsConfig c → reread DeletionConfig.ofDocument? c.toJson = some c) ∧
    (∀ s : ListingSpec, FitsListing s → (reread ListingSpec.ofDocument? s.toJson = some s ↔
      ∀ t ∈ s.filter.searches, ∀ v ∈ t.values, Kept v)) ∧
    (∀ i : Int, -9223372036854775808 ≤ i → i < 18446744073709551616 → readBack (.int i) = some (.int i)) ∧
    ∀ x : Binary64, IsShort (x.shortest .toEven) → readBack (.float x) = some (.float x) := by
  simp only [reread_eq]
  exact ⟨equipmentType_reading, attribute_reading, source_reading, statements_reading, topology_reading,
    fun _ => config_reading, fun _ => listing_reading_iff, fun _ => readBack_int, fun _ => readBack_float⟩

/-- A listing that searches for one value. -/
def searching (v : Json) : ListingSpec := (ListingSpec.new 20).withFilter ⟨[.eq "tag" v]⟩

/-- An array in an array, and so on. -/
def nested : Nat → Json
  | 0 => .null
  | n + 1 => .arr [nested n]

theorem ordered_nested : ∀ n, (nested n).Ordered
  | 0 => trivial
  | n + 1 => ⟨ordered_nested n, trivial⟩

theorem fitsListing_searching {v : Json} (h : v.Ordered) : FitsListing (searching v) := by
  refine ⟨(by decide : 0 < 1 <<< 64), (by decide : 20 < 1 <<< 64), ?_, ?_⟩
  · simp [searching, ListingSpec.withFilter, Search.eq, Bits.isSigned]
  · simpa [searching, ListingSpec.withFilter, Search.eq] using h

def quarter : Binary64 := ⟨false, 4503599627370496, 1020, by decide, by decide, by decide⟩

/-- An object with two numbers, and with nothing in 121 arrays. -/
def deepObject : Json := .obj [("deep", nested 121), ("low", .num (.int (-5))), ("quarter", .num (.float quarter))]

theorem documents_round_trip_deepObject :
    FitsConfig .standard ∧ reread DeletionConfig.ofDocument? DeletionConfig.standard.toJson = some .standard ∧
    FitsListing (searching deepObject) ∧ IsShort (quarter.shortest .toEven) ∧
    reread ListingSpec.ofDocument? (searching deepObject).toJson = some (searching deepObject) := by
  obtain ⟨-, -, -, -, -, hconfig, hlisting, hint, hfloat⟩ := documents_round_trip
  have hstandard : FitsConfig .standard := ⟨by decide, by decide, by decide, by decide⟩
  have hkeys : ["deep", "low", "quarter"].Pairwise (· < ·) := by decide
  have hordered : deepObject.Ordered := ⟨List.pairwise_map.1 hkeys, ordered_nested 121, trivial, trivial, trivial⟩
  have hfits := fitsListing_searching hordered
  have hshort : IsShort (quarter.shortest .toEven) := ⟨by decide +kernel, by decide +kernel, by decide +kernel⟩
  have hkept : Kept deepObject := by
    have hnumbers : deepObject.numbers = [.int (-5), .float quarter] := by decide +kernel
    refine ⟨by decide +kernel, ?_⟩
    rw [hnumbers, List.forall_mem_cons, List.forall_mem_singleton]
    exact ⟨hint (-5) (by decide) (by decide), hfloat quarter hshort⟩
  refine ⟨hstandard, hconfig _ hstandard, hfits, hshort, (hlisting _ hfits).2 ?_⟩
  simpa [searching, ListingSpec.withFilter, Search.eq] using hkept

/-- The number nearest to `3 * 10 ^ 23`, and the one before it. -/
def large : Binary64 := ⟨false, 8940696716308594, 1099, by decide, by decide, by decide⟩

def beforeLarge : Binary64 := ⟨false, 8940696716308593, 1099, by decide, by decide, by decide⟩

/-- One array more is refused, and a number that takes a rounded power of ten to read comes back as its neighbour. -/
theorem not_round_trip_deep_or_large :
    FitsListing (searching (nested 123)) ∧ FitsListing (searching (.num (.float large))) ∧
    reread ListingSpec.ofDocument? (searching (nested 123)).toJson = none ∧
    reread ListingSpec.ofDocument? (searching (.num (.float large))).toJson =
      some (searching (.num (.float beforeLarge))) ∧
    large ≠ beforeLarge := by
  refine ⟨fitsListing_searching (ordered_nested 123), fitsListing_searching trivial, ?_, ?_, by decide⟩
  · rw [reread_eq]
    decide +kernel
  · rw [reread_eq]
    decide +kernel

end Inventory.DocumentRoundTrip
