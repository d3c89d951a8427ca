import Inventory.Proofs.InstanceRelatives

/-!
The pages of a listing, and those of the children of an instance. All are cut from one sequence, in which every node
that matches stands once and in order, so that pages one after another give that sequence.
-/

namespace Inventory.InstancePages

open Query Listing Hierarchy Inventory.Graph Repository Store TopologyLevels
open InstanceHierarchy (Adjacent)
open InstanceListing (Matching orderOf)
open InstanceRelatives (relatives rowsBlock_paged)

variable {g : Graph} {t t' : EquipmentType} {s : ListingSpec} {scopes : List String} {anchor u v : Uid}
  {us us' : List Uid} {o : Order} {kind : Uid → Prop} {store : Store} {read : Nat → Nat → Except Failure Page}

def rowsOf (g : Graph) (t : EquipmentType) (us : List Uid) : List Json := us.map fun u => g.row u (projection t false)

/-- The page of some nodes at an offset. -/
def pageOf (g : Graph) (t : EquipmentType) (us : List Uid) (offset pageSize : Nat) : Page :=
  ⟨us.length, rowsOf g t ((us.drop offset).take pageSize)⟩

/-- Pages of the nodes of a kind, by offset and size. -/
structure Pages (g : Graph) (t : EquipmentType) (o : Order) (kind : Uid → Prop)
    (read : Nat → Nat → Except Failure Page) (us : List Uid) : Prop where
  nodup : us.Nodup
  mem : ∀ u, u ∈ us ↔ kind u
  sorted : us.Pairwise (Before g o)
  page : ∀ offset pageSize, offset < 1 <<< 64 → pageSize < 1 <<< 64 →
    read offset pageSize = .ok (pageOf g t us offset pageSize)
  walk : ∀ pageSize, 1 ≤ pageSize → pageSize < 1 <<< 64 → ∀ count, (∀ i < count, i * pageSize < 1 <<< 64) →
    ∃ pages, (List.range count).mapM (fun i => read (i * pageSize) pageSize) = .ok pages ∧
      pages.flatMap (·.rows) = rowsOf g t (us.take (count * pageSize))
  whole : ∀ pageSize, 1 ≤ pageSize → ∃ count, (∀ i < count, i * pageSize < 1 <<< 64) ∧
    us.take (count * pageSize) = us

/-- No page is given: each fails on the same text whose pattern is too large. -/
def Refused (operation : String) (tooLarge : QueryFault → Prop) (read : Nat → Nat → Except Failure Page) : Prop :=
  ∃ e, tooLarge e ∧ ∀ offset pageSize, read offset pageSize = .error (.internal operation (.store (.query e)))

/-- A page of the instances of a type. -/
def listing (t : EquipmentType) (s : ListingSpec) (scopes : List String) (store : Store) (offset pageSize : Nat) :
    Except Failure Page :=
  InstanceListing.listing t { s with offset, pageSize } scopes store

/-- A page of the children of one type of an instance of another. -/
def children (t t' : EquipmentType) (anchor : Uid) (s : ListingSpec) (scopes : List String) (store : Store)
    (offset pageSize : Nat) : Except Failure Page :=
  (perform (instanceChildren t t' anchor { s with offset, pageSize } scopes) store).1

/-- The children of one type of an instance of another that meet every search. -/
structure Child (g : Graph) (t t' : EquipmentType) (anchor : Uid) (s : ListingSpec) (scopes : List String) (v : Uid) :
    Prop where
  anchored : OfType g scopes t.typeName anchor
  hop : Adjacent g .descendants anchor v
  typed : OfType g scopes t'.typeName v
  searched : ∀ q ∈ s.filter.searches, MetOn .related g t' v q

section Walks

/-- Pieces of one size, one after another, give as much of a list as they cover. -/
theorem flatten_pieces {α : Type} (as : List α) (size count : Nat) :
    ((List.range count).map fun i => (as.drop (i * size)).take size).flatten = as.take (count * size) := by
  induction count with
  | zero => simp
  | succ count ih =>
      rw [List.range_succ, List.map_append, List.flatten_append, ih, Nat.succ_mul, List.take_add]
      simp

theorem Pages.of_page (hus : Enumerates g o kind us) (hsize : us.length < 1 <<< 64)
    (hpage : ∀ offset pageSize, offset < 1 <<< 64 → pageSize < 1 <<< 64 →
      read offset pageSize = .ok (pageOf g t us offset pageSize)) : Pages g t o kind read us := by
  refine ⟨hus.nodup, hus.mem, hus.sorted.imp nodeOrder_lt_iff_before.1, hpage, ?_, ?_⟩
  · intro pageSize _ hlt count hcount
    refine ⟨(List.range count).map fun i => pageOf g t us (i * pageSize) pageSize, ?_, ?_⟩
    · rw [Outcome.mapM_ok_iff, List.forall₂_map_right_iff]
      exact List.forall₂_same.2 fun i hi => hpage _ _ (hcount i (List.mem_range.1 hi)) hlt
    · rw [← flatten_pieces, rowsOf, List.map_flatten, List.flatMap_map, List.map_map, List.flatMap]
      rfl
  · intro pageSize hpos
    -- so many pages that the last of them begins within the nodes
    refine ⟨(us.length + pageSize - 1) / pageSize, fun i hi => ?_, List.take_of_length_le ?_⟩
    · have hle : (i + 1) * pageSize ≤ us.length + pageSize - 1 := (Nat.le_div_iff_mul_le hpos).1 hi
      rw [Nat.succ_mul] at hle
      omega
    · have hlt := Nat.lt_div_mul_add hpos (a := us.length + pageSize - 1)
      omega

end Walks

section Reads

variable (hr : store.refusals.query = none) (hsize : store.graph.size < 1 <<< 64)
include hr hsize

theorem listing_pages (t : EquipmentType) (s : ListingSpec) (scopes : List String)
    (hsome : ∃ n, Matching store.graph t s scopes n) :
    (∃ us, Pages store.graph t (orderOf t s) (Matching store.graph t s scopes) (listing t s scopes store) us) ∨
      Refused "list_equipments" (TooLarge t s.filter) (listing t s scopes store) := by
  rcases InstanceListing.evaluate_pages store.graph t s scopes with ⟨us, hus, hpages⟩ | ⟨e, he, hE⟩
  · have hpresent : ∀ n ∈ us, store.graph.contains n = true := fun n hn => ((hus.mem n).1 hn).1.inScope.contains
    have hne : us ≠ [] := by
      obtain ⟨n, hn⟩ := hsome
      exact List.ne_nil_of_mem ((hus.mem n).2 hn)
    refine .inl ⟨us, .of_page hus (Nat.lt_of_le_of_lt (length_le_size hus.nodup hpresent) hsize) ?_⟩
    intro offset pageSize hoffset hpage
    obtain ⟨answer, vars, hev, ha⟩ := hpages offset pageSize hoffset hpage
    rw [listing, InstanceListing.listing_ok hr hev,
      InstanceListing.readPage_of_answered (s := { s with offset, pageSize }) _ hsize hus ha, if_neg hne]
    rfl
  · exact .inr ⟨e, hE, fun offset pageSize => InstanceListing.listing_error hr (he _)⟩

theorem children_pages (hg : store.graph.Intact) (t t' : EquipmentType) (anchor : Uid) (s : ListingSpec)
    (scopes : List String) (hsome : ∃ v, Child store.graph t t' anchor s scopes v) :
    (∃ us, Pages store.graph t' (orderOf t' s) (Child store.graph t t' anchor s scopes)
      (children t t' anchor s scopes store) us) ∨
      Refused "equipment_children" (TooLargeOn .related t' s.filter) (children t t' anchor s scopes store) := by
  have hf : ∀ vars u, Settles (TooLargeOn .related t' s.filter)
      (passes store.graph vars (some (.and [relationshipFilter t' s.filter, scopeFilter scopes])) u)
      ((.str t'.typeName ∈ store.graph.values u Vocabulary.equipmentType ∧
        ∀ q ∈ s.filter.searches, MetOn .related store.graph t' u q) ∧ InScope store.graph scopes u) := by
    intro vars u
    rw [passes, holds]
    refine (settles_relationship t' s.filter vars u).holdsAll_cons ?_
    rw [holdsAll_singleton_eq, holds_scopeFilter]
    exact .ok inScopes_iff
  have hk : ∀ v, InstanceRelatives.Reached store.graph .descendants scopes t.typeName (fun u =>
      (.str t'.typeName ∈ store.graph.values u Vocabulary.equipmentType ∧
        ∀ q ∈ s.filter.searches, MetOn .related store.graph t' u q) ∧ InScope store.graph scopes u) anchor v ↔
      Child store.graph t t' anchor s scopes v := by
    refine fun v => ⟨?_, fun h => ⟨h.anchored, h.hop, ⟨h.typed.typed, h.searched⟩, h.typed.inScope⟩⟩
    rintro ⟨ha, hv, ⟨ht, hq⟩, hs⟩
    exact ⟨ha, hv, ⟨ht, hs⟩, hq⟩
  have hp : ∀ v, Child store.graph t t' anchor s scopes v → store.graph.contains v = true :=
    fun v hv => hv.typed.inScope.contains
  obtain ⟨v, hv⟩ := hsome
  rcases InstanceRelatives.evaluate_blocks hg hf hk hp (orderOf t' s) with ⟨us, hus, hpages⟩ | ⟨e, he, hE⟩
  · have hne : us ≠ [] := List.ne_nil_of_mem ((hus.mem v).2 hv)
    have hlength : us.length < 1 <<< 64 :=
      Nat.lt_of_le_of_lt (length_le_size hus.nodup fun v hv => hp v ((hus.mem v).1 hv)) hsize
    refine .inl ⟨us, .of_page hus hlength fun offset pageSize hoffset hpage => ?_⟩
    obtain ⟨answer, vars, hev, ha⟩ := hpages
      (rowsBlock_paged (s := { s with offset, pageSize }) store.graph t' hoffset hpage) "Children" pageParams
    rw [children, instanceChildren, InstanceRelatives.readAnchored_ok hr hev,
      InstanceRelatives.readPage_anchored hus ha _ hsize hp hv.anchored, if_neg hne]
    rfl
  · exact .inr ⟨e, hE, fun offset pageSize => InstanceRelatives.readAnchored_error hr (he _ _ _ _)⟩

/-- Nodes are in a strict total order, and the pages of a listing are all cut from one sequence of what matches, in that
order, if anything does; so are the pages of the children of an instance. Only a search by a text whose pattern is too
large makes them fail, all alike. -/
theorem pages_or_refused (hg : store.graph.Intact) (t : EquipmentType) (s : ListingSpec) (scopes : List String) :
    IsStrictTotalOrder Uid (Before store.graph (orderOf t s)) ∧
    ((∃ n, Matching store.graph t s scopes n) →
      (∃ us, Pages store.graph t (orderOf t s) (Matching store.graph t s scopes) (listing t s scopes store) us) ∨
        Refused "list_equipments" (TooLarge t s.filter) (listing t s scopes store)) ∧
    ∀ (above : EquipmentType) (anchor : Uid), (∃ v, Child store.graph above t anchor s scopes v) →
      (∃ us, Pages store.graph t (orderOf t s) (Child store.graph above t anchor s scopes)
        (children above t anchor s scopes store) us) ∨
        Refused "equipment_children" (TooLargeOn .related t s.filter) (children above t anchor s scopes store) :=
  ⟨inferInstance, listing_pages hr hsize t s scopes,
    fun above anchor => children_pages hr hsize hg above t anchor s scopes⟩

end Reads

theorem linked_none : InstanceListing.Linked g scopes .none u := by
  constructor <;> rintro _ ⟨⟩

section Folders

def folder : EquipmentType := (EquipmentType.new "folder" "0x1").withAttribute (.identifier "key" "id")

def folders : Store := (unused .none).afterCalls [TopologyLevels.folders]

/-- One folder to a page, the last identifier first. -/
def oneByOne : ListingSpec := (ListingSpec.new 1).sortedBy "key" .desc

theorem ofType_folders : ∀ u ∈ [⟨1⟩, ⟨2⟩], OfType folders.graph ["s1"] "folder" u := by
  intro u hu
  refine ofType_iff.1 ?_
  revert u
  decide +kernel

/-- All folders, and those in a folder, are listed one to a page. -/
theorem pages_folders :
    (∃ us, Pages folders.graph folder (orderOf folder oneByOne) (Matching folders.graph folder oneByOne ["s1"])
      (listing folder oneByOne ["s1"] folders) us) ∧
    ∃ us, Pages folders.graph folder (orderOf folder oneByOne)
      (Child folders.graph folder folder ⟨1⟩ oneByOne ["s1"])
      (children folder folder ⟨1⟩ oneByOne ["s1"] folders) us := by
  have hsize : folders.graph.size < 1 <<< 64 := by decide +kernel
  have hg : folders.graph.Intact := (kept_unused .none [TopologyLevels.folders]).intact
  have hnone : ∀ q, q ∉ oneByOne.filter.searches := fun _ => List.not_mem_nil
  have htop := ofType_folders ⟨1⟩ (by simp)
  have hbelow : (⟨1⟩ : Uid) ∈ (folders.graph.edges ⟨2⟩ Vocabulary.parent).items := by decide +kernel
  obtain ⟨-, hlisted, hchildren⟩ := pages_or_refused rfl hsize hg folder oneByOne ["s1"]
  constructor
  · refine (hlisted ⟨⟨1⟩, ⟨htop.typed, htop.inScope, ?_⟩, linked_none⟩).resolve_right ?_
    · exact fun q hq => absurd hq (hnone q)
    · rintro ⟨e, ⟨q, hq, -⟩, -⟩
      exact hnone q hq
  · refine (hchildren folder ⟨1⟩ ⟨⟨2⟩, htop, hbelow, ofType_folders ⟨2⟩ (by simp), ?_⟩).resolve_right ?_
    · exact fun q hq => absurd hq (hnone q)
    · rintro ⟨e, ⟨q, hq, -⟩, -⟩
      exact hnone q hq

end Folders

section LongTexts

open InstanceListing (server shelf longText compile?_longText)

/-- The servers that begin with a text whose pattern is too large, or else with `x`. -/
def longOrX : ListingSpec :=
  (ListingSpec.new 10).withFilter ⟨[.anyOf "key" .regex [.str longText, .str "x"]]⟩

theorem instanceFilter?_longOrX : instanceFilter? server longOrX.filter =
    some (.or [.regex Vocabulary.identifier (startingWith longText) true,
      .regex Vocabulary.identifier (startingWith "x") true]) := by
  have hordered : longOrX.filter.ordered = longOrX.filter.searches := List.mergeSort_singleton _
  rw [instanceFilter?, attributeFilter?, hordered]
  rfl

theorem matching_longOrX : Matching shelf.graph server longOrX ["s1"] ⟨1⟩ := by
  have htype : .str "server" ∈ shelf.graph.values ⟨1⟩ Vocabulary.equipmentType := by decide +kernel
  have hscope : shelf.graph.inScopes ["s1"] ⟨1⟩ = true := by decide +kernel
  have hkey : .str "x" ∈ shelf.graph.values ⟨1⟩ Vocabulary.identifier := by decide +kernel
  have hbegins : BeginsWith "x" "x" := ⟨['x'], [], rfl, .cons (by decide) .nil⟩
  refine ⟨⟨htype, inScopes_iff.1 hscope, fun q hq => ?_⟩, linked_none⟩
  obtain rfl := List.mem_singleton.1 hq
  intro a ha _
  obtain rfl : Attribute.identifier "key" "id" = a := Option.some.inj ha.1
  exact ⟨.string "x", ⟨.str "x", by simp [Search.anyOf], rfl⟩, "x", hkey, hbegins⟩

/-- A server matches, but no page of those that match is given. -/
theorem not_pages_longOrX : (∃ n, Matching shelf.graph server longOrX ["s1"] n) ∧
    ¬∃ us, Pages shelf.graph server (orderOf server longOrX) (Matching shelf.graph server longOrX ["s1"])
      (listing server longOrX ["s1"] shelf) us := by
  refine ⟨⟨⟨1⟩, matching_longOrX⟩, ?_⟩
  rintro ⟨us, h⟩
  have hpage : listing server longOrX ["s1"] shelf 0 10 = .ok (pageOf shelf.graph server us 0 10) :=
    h.page 0 10 (by decide) (by decide)
  have hfails : listing server longOrX ["s1"] shelf 0 10 =
      .error (.internal "list_equipments" (.store (.query (.invalidPattern (.tooLarge (startingWith longText)))))) := by
    refine InstanceListing.listing_of_error rfl ?_
    change passes _ _ (instanceFilter? server longOrX.filter) _ = _
    rw [instanceFilter?_longOrX, passes, holds, holdsAny, InstanceListing.holds_startingWith_of_none compile?_longText]
    rfl
  rw [hpage] at hfails
  cases hfails

end LongTexts

end Inventory.InstancePages
