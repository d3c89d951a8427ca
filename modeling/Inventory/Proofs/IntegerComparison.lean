import Inventory.Proofs.InstancePages
import Inventory.Proofs.Rounding

/-!
How integers of 64 bits are compared: as such for equality, but rounded to floating-point numbers as bounds and where
instances are sorted. Beyond 53 bits an integer and a greater one may be rounded to one number.
-/

namespace Inventory.IntegerComparison

open Query Listing Inventory.Graph Store Conversions
open InstanceListing (Matching orderOf)
open InstancePages (Pages Refused listing listing_pages)

variable {g : Graph} {path : Path} {t : EquipmentType} {attr : Attribute} {key : String} {q : Search}
  {u v : Uid} {us : List Uid} {a b : Int}

/-- An integer and a greater one that are one floating-point number. -/
def Confused (a b : Int) : Prop := a < b ∧ (Binary64.ofInt a).same (.ofInt b) = true

instance (a b : Int) : Decidable (Confused a b) := inferInstanceAs (Decidable (_ ∧ _))

/-- An attribute of integers, by its name. -/
structure IsInteger (t : EquipmentType) (key : String) (attr : Attribute) : Prop where
  found : t.attribute? key = some attr
  integer : attr.dataType = .int
  notIdentifier : attr.isIdentifier = false
  notParentIdentifier : attr.isParentIdentifier = false

/-- A node holds an integer as its value of an attribute. -/
def Holds (g : Graph) (t : EquipmentType) (attr : Attribute) (u : Uid) (a : Int) : Prop :=
  g.values u (predicateOf t attr) = [.num (.int a)]

instance (g : Graph) (t : EquipmentType) (attr : Attribute) (u : Uid) (a : Int) : Decidable (Holds g t attr u a) :=
  inferInstanceAs (Decidable (_ = _))

/-- A search by one value, which is an integer. -/
def AsksFor (q : Search) (key : String) (b : Int) : Prop :=
  q.key = key ∧ ∃ raw, q.values = [raw] ∧ FieldValue.convert .int raw = .ok (.int b)

/-- Of two nodes in a sequence the first stands before the second, or after it in a descending order. -/
def Leads : SortDirection → List Uid → Uid → Uid → Prop
  | .asc, us, u, v => [u, v].Sublist us
  | .desc, us, u, v => [v, u].Sublist us

/-- Which of two nodes leads, if nothing but their uids decides. -/
def LeadsByUid : SortDirection → Uid → Uid → Prop
  | .asc, u, v => u < v
  | .desc, u, v => v < u

section Numbers

theorem toBinary64_int (a : Int) : (Number.int a).toBinary64 = .ofInt a := rfl

variable (ha : InRange a) (hb : InRange b)
include ha hb

theorem numberEq_int_iff : Comparison.numberEq (.int a) (.int b) = true ↔ a = b := by
  rw [Comparison.numberEq, inRange_iff.1 ha, inRange_iff.1 hb]
  exact beq_iff_eq

/-- Rounding may make two integers one, but does not change their order. -/
theorem ofInt_lt_iff : (Binary64.ofInt a).lt (.ofInt b) = true ↔ a < b ∧ ¬Confused a b := by
  have hmono : ∀ {i j : Int}, InRange i → InRange j → i ≤ j → (Binary64.ofInt i).units ≤ (Binary64.ofInt j).units := by
    unfold InRange
    intro i j hi hj hle
    exact Binary64.units_ofInt_mono (by omega) (by omega) hle
  simp only [Confused, Binary64.lt, Binary64.same, decide_eq_true_eq, beq_iff_eq]
  constructor
  · intro hlt
    refine ⟨?_, fun h => absurd h.2 (Int.ne_of_lt hlt)⟩
    by_contra hle
    exact absurd (hmono hb ha (Int.not_lt.1 hle)) (Int.not_le.2 hlt)
  · rintro ⟨hlt, hnot⟩
    have hle := hmono ha hb (Int.le_of_lt hlt)
    have hne : (Binary64.ofInt a).units ≠ (Binary64.ofInt b).units := fun h => hnot ⟨hlt, h⟩
    omega

theorem atLeast_int_iff : AtLeast [.num (.int a)] (.int b) ↔ b ≤ a ∨ Confused a b := by
  have hone : AtLeast [.num (.int a)] (.int b) ↔ ¬(Binary64.ofInt a).lt (.ofInt b) = true := by
    simp [AtLeast, Number.toBinary64]
  rw [hone, ofInt_lt_iff ha hb, not_and_not_right, imp_iff_not_or]
  exact or_congr_left Int.not_lt

theorem compareValues_int (hlt : a < b) : Comparison.compareValues (.num (.int a)) (.num (.int b)) =
    if Confused a b then .eq else .lt := by
  rw [Comparison.compareValues_num, toBinary64_int, toBinary64_int]
  by_cases hc : Confused a b
  · have hnot : (Binary64.ofInt a).lt (.ofInt b) = false :=
      Bool.eq_false_iff.2 fun h => ((ofInt_lt_iff ha hb).1 h).2 hc
    rw [hnot, hc.2, if_pos hc]
    rfl
  · rw [(ofInt_lt_iff ha hb).2 ⟨hlt, hc⟩, if_neg hc]
    rfl

end Numbers

/-- Integers of at most 53 bits are compared as such. -/
theorem not_confused (ha : a.natAbs ≤ 2 ^ 53) (hb : b.natAbs ≤ 2 ^ 53) : ¬Confused a b := by
  rintro ⟨hlt, hsame⟩
  rw [Binary64.same, beq_iff_eq, Binary64.units_ofInt_of_le ha, Binary64.units_ofInt_of_le hb] at hsame
  have hne : (Binary64.unitsPerOne : Int) ≠ 0 := Int.natCast_ne_zero.2 (Nat.ne_of_gt Binary64.unitsPerOne_pos)
  exact absurd (Int.eq_of_mul_eq_mul_right hne hsame) (Int.ne_of_lt hlt)

section Searches

theorem not_tooLargeOn (hs : searched? path t q.key = some attr) (ho : ∀ v, Offers q attr v ↔ v = .int b)
    (e : QueryFault) : ¬TooLargeOn path t ⟨[q]⟩ e := by
  rintro ⟨q', hq', attr', s, hs', -, hoffers, -⟩
  obtain rfl := List.mem_singleton.1 hq'
  obtain rfl : attr = attr' := Option.some.inj (hs.symm.trans hs')
  cases (ho _).1 hoffers

variable (ha : InRange a) (hu : Holds g t attr u a) (h : IsInteger t key attr) (hq : AsksFor q key b)
include ha hu h hq

/-- In a listing the filter of a search by an integer finds that integer only. -/
theorem passes_instanceFilter? (vars : Vars) :
    passes g vars (instanceFilter? t ⟨[q]⟩) u = .ok (decide (a = b)) := by
  obtain ⟨rfl, raw, hraw, hc⟩ := hq
  have hs : searched? .listed t q.key = some attr := searched?_listed.2 ⟨h.found, h.notParentIdentifier⟩
  have ho : ∀ v, Offers q attr v ↔ v = .int b := fun v => offers_single hraw (h.integer ▸ hc)
  have hb : InRange b := (isOf_of_convert hc).2
  refine ((settles_attributes .listed t ⟨[q]⟩ vars u).congr ?_).eq_ok (not_tooLargeOn hs ho)
  simp only [List.forall_mem_singleton, metOn_single hs ho]
  rw [hu]
  have hmeets : MeetsOn .listed [.num (.int a)] q.comparison (.int b) ↔
      Comparison.numberEq (.int a) (.int b) = true := by
    cases q.comparison <;> simp [MeetsOn, Meets]
  exact hmeets.trans (numberEq_int_iff ha hb)

/-- Among related instances it finds the integers from that integer on, and those that are confused with it. -/
theorem holds_relationshipFilter (hsearchable : attr.isSearchable = true) (hdisplayed : attr.isDisplayed = true)
    (htype : .str t.typeName ∈ g.values u Vocabulary.equipmentType) (vars : Vars) :
    holds g vars u (relationshipFilter t ⟨[q]⟩) = .ok (decide (b ≤ a ∨ Confused a b)) := by
  obtain ⟨rfl, raw, hraw, hc⟩ := hq
  have hs : searched? .related t q.key = some attr := by
    simp [searched?, h.found, h.notParentIdentifier, hsearchable, hdisplayed]
  have ho : ∀ v, Offers q attr v ↔ v = .int b := fun v => offers_single hraw (h.integer ▸ hc)
  have hb : InRange b := (isOf_of_convert hc).2
  refine ((settles_relationship t ⟨[q]⟩ vars u).congr ?_).eq_ok (not_tooLargeOn hs ho)
  simp only [List.forall_mem_singleton, metOn_single hs ho, and_iff_right htype]
  rw [hu]
  exact atLeast_int_iff ha hb

end Searches

section Order

theorem sortPredicate_eq (h : IsInteger t key attr) (hdisplayed : attr.isDisplayed = true) (hkey : key ≠ "") :
    sortPredicate t key = predicateOf t attr := by
  simp [sortPredicate, predicateOf, hkey, h.found, h.notIdentifier, h.notParentIdentifier, hdisplayed]

section Nodes

variable (ha : InRange a) (hb : InRange b) (hlt : a < b) (hu : Holds g t attr u a) (hv : Holds g t attr v b)
include ha hb hlt hu hv

theorem before_asc_iff : Before g ⟨predicateOf t attr, .asc⟩ u v ↔ ¬Confused a b ∨ u < v := by
  have hcompare := compareValues_int ha hb hlt
  rw [Before, hu, hv]
  simp only [List.head?_cons, hcompare]
  by_cases hc : Confused a b <;> simp [hc]

theorem before_desc_iff : Before g ⟨predicateOf t attr, .desc⟩ v u ↔ ¬Confused a b ∨ v < u := by
  have hcompare := Comparison.compareValues_swap (.num (.int b)) (.num (.int a))
  rw [compareValues_int ha hb hlt] at hcompare
  rw [Before, hu, hv]
  simp only [List.head?_cons, hcompare]
  by_cases hc : Confused a b <;> simp [hc]

theorem leads_iff {d : SortDirection} (hmem : u ∈ us ∧ v ∈ us) (h : us.Pairwise (Before g ⟨predicateOf t attr, d⟩)) :
    Leads d us u v ↔ ¬Confused a b ∨ LeadsByUid d u v := by
  have hne : u ≠ v := by
    rintro rfl
    have heq := hu.symm.trans hv
    simp only [List.cons.injEq, Json.num.injEq, Number.int.injEq, and_true] at heq
    exact absurd heq (Int.ne_of_lt hlt)
  cases d with
  | asc => exact (sublist_pair_iff h hmem.1 hmem.2 hne).trans (before_asc_iff ha hb hlt hu hv)
  | desc => exact (sublist_pair_iff h hmem.2 hmem.1 hne.symm).trans (before_desc_iff ha hb hlt hu hv)

end Nodes

end Order

section Listings

variable {store : Store} {s : ListingSpec} {scopes : List String}

/-- In a listing that is sorted by integers a lesser one leads, unless it is confused with the other. -/
theorem listing_leads (hr : store.refusals.query = none) (hsize : store.graph.size < 1 <<< 64)
    (h : IsInteger t s.sortBy attr) (hdisplayed : attr.isDisplayed = true) (hkey : s.sortBy ≠ "")
    (ha : InRange a) (hb : InRange b) (hlt : a < b) (hu : Holds store.graph t attr u a)
    (hv : Holds store.graph t attr v b) (hmu : Matching store.graph t s scopes u)
    (hmv : Matching store.graph t s scopes v) :
    (∃ us, Pages store.graph t (orderOf t s) (Matching store.graph t s scopes) (listing t s scopes store) us ∧
      (Leads s.sortOrder us u v ↔ ¬Confused a b ∨ LeadsByUid s.sortOrder u v)) ∨
    Refused "list_equipments" (TooLarge t s.filter) (listing t s scopes store) := by
  refine (listing_pages hr hsize t s scopes ⟨u, hmu⟩).imp_left ?_
  rintro ⟨us, hpages⟩
  have hsorted := hpages.sorted
  rw [InstanceListing.orderOf, sortPredicate_eq h hdisplayed hkey] at hsorted
  exact ⟨us, hpages, leads_iff ha hb hlt hu hv ⟨(hpages.mem u).2 hmu, (hpages.mem v).2 hmv⟩ hsorted⟩

end Listings

/-- Integers of 64 bits are found by equality as they are. As bounds, and where instances are sorted, they are in their
order too, but an integer and a greater one that are one floating-point number pass for equal. Integers of at most 53
bits never do. -/
theorem compared_unless_confused (h : IsInteger t key attr) (ha : InRange a) :
    (∀ g vars u q b, Holds g t attr u a → AsksFor q key b →
      passes g vars (instanceFilter? t ⟨[q]⟩) u = .ok (decide (a = b)) ∧
      (attr.isSearchable = true → attr.isDisplayed = true → .str t.typeName ∈ g.values u Vocabulary.equipmentType →
        holds g vars u (relationshipFilter t ⟨[q]⟩) = .ok (decide (b ≤ a ∨ Confused a b)))) ∧
    (attr.isDisplayed = true → key ≠ "" → ∀ (store : Store) (s : ListingSpec) scopes u v b,
      store.refusals.query = none → store.graph.size < 1 <<< 64 → s.sortBy = key → InRange b → a < b →
      Holds store.graph t attr u a → Holds store.graph t attr v b →
      Matching store.graph t s scopes u → Matching store.graph t s scopes v →
      (∃ us, Pages store.graph t (orderOf t s) (Matching store.graph t s scopes) (listing t s scopes store) us ∧
        (Leads s.sortOrder us u v ↔ ¬Confused a b ∨ LeadsByUid s.sortOrder u v)) ∨
      Refused "list_equipments" (TooLarge t s.filter) (listing t s scopes store)) ∧
    ∀ b, a.natAbs ≤ 2 ^ 53 → b.natAbs ≤ 2 ^ 53 → ¬Confused a b := by
  refine ⟨fun g vars u q b hu hq => ⟨passes_instanceFilter? ha hu h hq vars, fun hsearchable hdisplayed htype => ?_⟩,
    fun hdisplayed hkey => ?_, fun b => not_confused⟩
  · exact holds_relationshipFilter ha hu h hq hsearchable hdisplayed htype vars
  · rintro store s scopes u v b hr hsize rfl hb hlt hu hv hmu hmv
    exact listing_leads hr hsize h hdisplayed hkey ha hb hlt hu hv hmu hmv

section Servers

open InstanceListing (serverQuads)
open InstancePages (linked_none)

def cores : Attribute := { Attribute.new "cores" .int "cores" with isSearchable := true, isDisplayed := true }

def machine : EquipmentType :=
  ((EquipmentType.new "server" "0x1").withAttribute (.identifier "key" "id")).withAttribute cores

def byCores (d : SortDirection) : ListingSpec := (ListingSpec.new 10).sortedBy "cores" d

/-- The servers with so many cores, or from so many on. -/
def withCores (i : Int) : Search := .eq "cores" (.num (.int i))

/-- Two instances with so many cores. -/
def servers (i j : Int) : Store :=
  (unused .none).afterCalls [.execute (.of none [⟨none, serverQuads "x" i ++ serverQuads "y" j, []⟩])]

structure Stocked (store : Store) (i j : Int) : Prop where
  accepts : store.refusals.query = none
  size : store.graph.size < 1 <<< 64
  typed : ∀ u ∈ [⟨1⟩, ⟨2⟩], .str "server" ∈ store.graph.values u Vocabulary.equipmentType
  inScope : ∀ u ∈ [⟨1⟩, ⟨2⟩], store.graph.inScopes ["s1"] u = true
  first : Holds store.graph machine cores ⟨1⟩ i
  second : Holds store.graph machine cores ⟨2⟩ j

theorem stocked_few : Stocked (servers 8 16) 8 16 := by
  constructor <;> decide +kernel

theorem stocked_many : Stocked (servers 9007199254740993 9007199254740992) 9007199254740993 9007199254740992 := by
  constructor <;> decide +kernel

theorem isInteger_cores : IsInteger machine "cores" cores := by
  constructor <;> decide +kernel

theorem asksFor_withCores (hb : InRange b) : AsksFor (withCores b) "cores" b :=
  ⟨rfl, .num (.int b), rfl, if_pos (inRange_iff.1 hb)⟩

theorem Stocked.matching {store : Store} {i j : Int} {d : SortDirection} (h : Stocked store i j)
    (hu : u ∈ [⟨1⟩, ⟨2⟩]) : Matching store.graph machine (byCores d) ["s1"] u :=
  ⟨⟨h.typed u hu, inScopes_iff.1 (h.inScope u hu), fun _ hq => absurd hq List.not_mem_nil⟩, linked_none⟩

theorem not_refused_byCores {d : SortDirection} {operation : String} {read : Nat → Nat → Except Failure Page} :
    ¬Refused operation (TooLarge machine (byCores d).filter) read := by
  rintro ⟨e, ⟨q, hq, -⟩, -⟩
  exact absurd hq List.not_mem_nil

/-- Eight cores are found by eight, are fewer than sixteen and come before them. -/
theorem eight_before_sixteen :
    passes (servers 8 16).graph .empty (instanceFilter? machine ⟨[withCores 8]⟩) ⟨1⟩ = .ok true ∧
    holds (servers 8 16).graph .empty ⟨1⟩ (relationshipFilter machine ⟨[withCores 16]⟩) = .ok false ∧
    ∃ us, Pages (servers 8 16).graph machine (orderOf machine (byCores .asc))
      (Matching (servers 8 16).graph machine (byCores .asc) ["s1"])
      (listing machine (byCores .asc) ["s1"] (servers 8 16)) us ∧ [⟨1⟩, ⟨2⟩].Sublist us := by
  have height : InRange 8 := ⟨by decide, by decide⟩
  have hsixteen : InRange 16 := ⟨by decide, by decide⟩
  obtain ⟨hfilters, hsorted, hexact⟩ := compared_unless_confused isInteger_cores height
  have hnot : ¬Confused 8 16 := hexact 16 (by decide) (by decide)
  obtain ⟨hfound, -⟩ := hfilters _ .empty _ _ 8 stocked_few.first (asksFor_withCores height)
  obtain ⟨-, hbound⟩ := hfilters _ .empty _ _ 16 stocked_few.first (asksFor_withCores hsixteen)
  refine ⟨hfound, ?_, ?_⟩
  · rw [hbound rfl rfl (stocked_few.typed _ (by simp))]
    exact congrArg Except.ok (decide_eq_false (not_or.2 ⟨by decide, hnot⟩))
  · have hlisted := hsorted rfl (by decide) (servers 8 16) (byCores .asc) ["s1"] ⟨1⟩ ⟨2⟩ 16 stocked_few.accepts
      stocked_few.size rfl hsixteen (by decide) stocked_few.first stocked_few.second
      (stocked_few.matching (by simp)) (stocked_few.matching (by simp))
    obtain ⟨us, hpages, hleads⟩ := hlisted.resolve_right not_refused_byCores
    exact ⟨us, hpages, hleads.2 (.inl hnot)⟩

/-- `2^53` passes for the next integer: an instance with so many cores reaches that as a bound, and in ascending order
stands after an older one that has one core more. -/
theorem least_confused :
    Holds (servers 9007199254740993 9007199254740992).graph machine cores ⟨1⟩ 9007199254740993 ∧
    Holds (servers 9007199254740993 9007199254740992).graph machine cores ⟨2⟩ 9007199254740992 ∧
    holds (servers 9007199254740993 9007199254740992).graph .empty ⟨2⟩
      (relationshipFilter machine ⟨[withCores 9007199254740993]⟩) = .ok true ∧
    ∃ us, Pages (servers 9007199254740993 9007199254740992).graph machine (orderOf machine (byCores .asc))
      (Matching (servers 9007199254740993 9007199254740992).graph machine (byCores .asc) ["s1"])
      (listing machine (byCores .asc) ["s1"] (servers 9007199254740993 9007199254740992)) us ∧
      ¬[⟨2⟩, ⟨1⟩].Sublist us := by
  have hless : InRange 9007199254740992 := ⟨by decide, by decide⟩
  have hmore : InRange 9007199254740993 := ⟨by decide, by decide⟩
  have hconfused : Confused 9007199254740992 9007199254740993 := by decide +kernel
  refine ⟨stocked_many.first, stocked_many.second, ?_, ?_⟩
  · rw [holds_relationshipFilter hless stocked_many.second isInteger_cores (asksFor_withCores hmore) rfl rfl
      (stocked_many.typed _ (by simp))]
    exact congrArg Except.ok (decide_eq_true (.inr hconfused))
  · have hlisted := listing_leads (s := byCores .asc) (u := ⟨2⟩) (v := ⟨1⟩) stocked_many.accepts stocked_many.size
      isInteger_cores rfl (by decide) hless hmore (by decide) stocked_many.second stocked_many.first
      (stocked_many.matching (by simp)) (stocked_many.matching (by simp))
    obtain ⟨us, hpages, hleads⟩ := hlisted.resolve_right not_refused_byCores
    have holder : ¬(⟨2⟩ : Uid) < ⟨1⟩ := by decide
    exact ⟨us, hpages, fun hfirst => (hleads.1 hfirst).elim (absurd hconfused) holder⟩

end Servers

end Inventory.IntegerComparison
