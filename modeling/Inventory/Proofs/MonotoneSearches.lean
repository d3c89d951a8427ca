import Inventory.Proofs.InstanceListing

/-!
How what a listing finds depends on its searches: one more search narrows it, and one more value of a search widens it.
But the first value of a search that has its attribute's type makes the search count at all, and so it narrows it too.
-/

namespace Inventory.MonotoneSearches

open Query Listing Inventory.Graph Repository Store
open InstanceListing (listing Matching Candidate Bound Refused orderOf resultBlock found)

variable {g : Graph} {store : Store} {t : EquipmentType} {s : ListingSpec} {scopes : List String} {f f' : SearchFilter}
  {q : Search} {raw : Json} {a : Attribute} {v : FieldValue} {n : Uid} {us us' : List Uid} {vars : Vars}
  {params : Bindings}

/-- A listing finds the nodes that its query counts, and reports a page of them. -/
structure Finds (store : Store) (t : EquipmentType) (s : ListingSpec) (scopes : List String) (us : List Uid) :
    Prop where
  counted : ∃ answer vars b, store.graph.evaluate (list t s scopes).query (list t s scopes).vars = .ok (answer, vars) ∧
    (list t s scopes).query.block? countBlock = some b ∧
    store.graph.blockNodes (list t s scopes).vars vars b = .ok us
  reported : listing t s scopes store =
    if us = [] then .error (.noData s!"no {rowsBlock} matched")
    else .ok ⟨us.length, (((store.graph.sorted (some (orderOf t s)) us).drop s.offset).take s.pageSize).map fun n =>
      store.graph.row n (projection t false)⟩

/-- The one more search of a filter. -/
def AddsSearch (q : Search) (f f' : SearchFilter) : Prop :=
  ∃ front back, f.searches = front ++ back ∧ f'.searches = front ++ q :: back

/-- The one more value of a search of a filter. -/
def AddsValue (q : Search) (raw : Json) (f f' : SearchFilter) : Prop :=
  ∃ front back before after, f.searches = front ++ q :: back ∧ q.values = before ++ after ∧
    f'.searches = front ++ { q with values := before ++ raw :: after } :: back

/-- A value has the type of the attribute that a search is about, as no value of the search has. -/
def FirstOffer (t : EquipmentType) (q : Search) (raw : Json) : Prop :=
  ∃ a, About t q a ∧ (¬∃ v, Offers q a v) ∧ ∃ v, FieldValue.convert a.dataType raw = .ok v

section Found

theorem block?_countBlock (t : EquipmentType) (s : ListingSpec) (scopes : List String) :
    (list t s scopes).query.block? countBlock = some (countOf (resultBlock s.related scopes countBlock)) := by
  obtain ⟨offset, pageSize, sortBy, sortOrder, filter, ⟨product, application, installation⟩⟩ := s
  cases product <;> cases application <;> cases installation <;> rfl

theorem blockNodes_counted (hb : Bound g scopes s.related vars)
    (hc : vars.Collects candidatesVar (Candidate g t s.filter scopes)) :
    g.blockNodes params vars (countOf (resultBlock s.related scopes countBlock)) =
      .ok (found g s.related scopes vars) := by
  obtain ⟨⟨us, vars'⟩, hus⟩ :
      ∃ r, g.evalBlock params vars (countOf (resultBlock s.related scopes countBlock)) = .ok r :=
    ⟨_, InstanceListing.evalBlock_counted hb hc⟩
  obtain ⟨us', hnodes, hrest⟩ := Outcome.bind_ok_iff.1 hus
  rw [InstanceListing.evalBlock_counted hb hc] at hus
  cases hus
  cases hrest
  exact hnodes

variable (hoffset : s.offset < 1 <<< 64) (hpage : s.pageSize < 1 <<< 64)
include hoffset hpage

theorem Finds.mem (h : Finds store t s scopes us) : n ∈ us ↔ Matching store.graph t s scopes n := by
  obtain ⟨answer, vars, b, hanswer, hblock, hnodes⟩ := h.counted
  rw [block?_countBlock] at hblock
  cases hblock
  rcases InstanceListing.evaluate_bound store.graph t s scopes with ⟨vars', hb, hc, hquery⟩ | ⟨e, he, -⟩
  · obtain ⟨answer', hr, -⟩ := InstanceListing.evalBlocks_results hb hc hoffset hpage
    have heq := hanswer.symm.trans ((hquery _).trans hr)
    cases heq
    rw [blockNodes_counted hb hc] at hnodes
    cases hnodes
    exact InstanceListing.mem_found hb hc
  · rw [he] at hanswer
    cases hanswer

theorem finds_or_refused (hr : store.refusals.query = none) (hsize : store.graph.size < 1 <<< 64) :
    (∃ us, Finds store t s scopes us) ∨ Refused t s.filter (listing t s scopes store) := by
  rcases InstanceListing.evaluate_bound store.graph t s scopes with ⟨vars, hb, hc, hquery⟩ | ⟨e, he, hE⟩
  · obtain ⟨answer, hresults, ha⟩ := InstanceListing.evalBlocks_results hb hc hoffset hpage
    have hanswer := (hquery (list t s scopes).vars).trans hresults
    have hperm := sorted_perm (g := store.graph) (some (orderOf t s)) (found store.graph s.related scopes vars)
    refine .inl ⟨found store.graph s.related scopes vars, ?_, ?_⟩
    · exact ⟨answer, vars, _, hanswer, block?_countBlock t s scopes, blockNodes_counted hb hc⟩
    · rw [InstanceListing.listing_ok hr hanswer, InstanceListing.readPage_of_answered _ hsize
        (enumerates_sorted InstanceListing.nodup_found fun n => InstanceListing.mem_found hb hc) ha, hperm.length_eq]
      exact if_congr (by rw [← List.length_eq_zero_iff, hperm.length_eq, List.length_eq_zero_iff]) rfl rfl
  · exact .inr ⟨e, hE, InstanceListing.listing_error hr (he _)⟩

end Found

section Searches

theorem AddsSearch.subset (h : AddsSearch q f f') : f.searches ⊆ f'.searches := by
  obtain ⟨front, back, hf, hf'⟩ := h
  rw [hf, hf']
  simp

theorem matching_of_subset (hsub : f.searches ⊆ f'.searches) (h : Matching g t (s.withFilter f') scopes n) :
    Matching g t (s.withFilter f) scopes n :=
  ⟨⟨h.1.typed, h.1.inScope, fun q hq => h.1.searched q (hsub hq)⟩, h.2⟩

/-- Filters that differ in one search match alike as far as that search goes. -/
theorem matching_of_met {q' : Search} {front back : List Search} (hf : f.searches = front ++ q :: back)
    (hf' : f'.searches = front ++ q' :: back) (hmet : Met g t n q → Met g t n q')
    (h : Matching g t (s.withFilter f) scopes n) : Matching g t (s.withFilter f') scopes n := by
  refine ⟨⟨h.1.typed, h.1.inScope, ?_⟩, h.2⟩
  have hsearched : ∀ p ∈ f.searches, Met g t n p := h.1.searched
  change ∀ p ∈ f'.searches, Met g t n p
  rw [hf, List.forall_mem_append, List.forall_mem_cons] at hsearched
  rw [hf', List.forall_mem_append, List.forall_mem_cons]
  exact ⟨hsearched.1, hmet hsearched.2.1, hsearched.2.2⟩

end Searches

section Values

variable {before after : List Json} (hq : q.values = before ++ after)
include hq

theorem offers_added : Offers { q with values := before ++ raw :: after } a v ↔
    FieldValue.convert a.dataType raw = .ok v ∨ Offers q a v := by
  simp only [Offers, hq, List.mem_append, List.mem_cons]
  constructor
  · rintro ⟨r, hr | rfl | hr, hc⟩
    · exact .inr ⟨r, .inl hr, hc⟩
    · exact .inl hc
    · exact .inr ⟨r, .inr hr, hc⟩
  · rintro (hc | ⟨r, hr | hr, hc⟩)
    · exact ⟨raw, .inr (.inl rfl), hc⟩
    · exact ⟨r, .inl hr, hc⟩
    · exact ⟨r, .inr (.inr hr), hc⟩

/-- A search that counts, or still does not, is met by whatever met it. -/
theorem met_added (hlater : ¬FirstOffer t q raw) (h : Met g t n q) :
    Met g t n { q with values := before ++ raw :: after } := by
  intro a ha
  rintro ⟨v, hv⟩
  by_cases hsome : ∃ w, Offers q a w
  · obtain ⟨w, hw, hm⟩ := h a ha hsome
    exact ⟨w, (offers_added hq).2 (.inr hw), hm⟩
  · rcases (offers_added hq).1 hv with hc | hv
    · exact absurd ⟨a, ha, hsome, v, hc⟩ hlater
    · exact absurd ⟨v, hv⟩ hsome

end Values

/-- A search without a value of its attribute's type is met by every node. -/
theorem FirstOffer.met (h : FirstOffer t q raw) : Met g t n q := by
  obtain ⟨a, ha, hnone, -⟩ := h
  intro b hb hsome
  obtain rfl : a = b := Option.some.inj (ha.1.symm.trans hb.1)
  exact absurd hsome hnone

/-- In a graph of fewer than `2 ^ 64` nodes, a listing finds no more nodes with one more search, and no fewer with one
more value of a search. But the first value of a search that has its attribute's type makes the search count, so that
no more nodes are found. Only a search by a text whose pattern is too large makes a listing fail. -/
theorem finds_monotone (hr : store.refusals.query = none) (hsize : store.graph.size < 1 <<< 64) (t : EquipmentType)
    (scopes : List String) (hoffset : s.offset < 1 <<< 64) (hpage : s.pageSize < 1 <<< 64) :
    (∀ f, (∃ us, Finds store t (s.withFilter f) scopes us) ∨ Refused t f (listing t (s.withFilter f) scopes store)) ∧
    ∀ f f' us us', Finds store t (s.withFilter f) scopes us → Finds store t (s.withFilter f') scopes us' →
      (∀ q, AddsSearch q f f' → us' ⊆ us) ∧
      ∀ q raw, AddsValue q raw f f' →
        (¬FirstOffer t q raw → us ⊆ us') ∧ (FirstOffer t q raw → us' ⊆ us) := by
  refine ⟨fun f => finds_or_refused (s := s.withFilter f) hoffset hpage hr hsize, ?_⟩
  intro f f' us us' h h'
  have hmem : ∀ n, n ∈ us ↔ Matching store.graph t (s.withFilter f) scopes n := fun n => h.mem hoffset hpage
  have hmem' : ∀ n, n ∈ us' ↔ Matching store.graph t (s.withFilter f') scopes n := fun n => h'.mem hoffset hpage
  refine ⟨fun q hadds n hn => ?_, ?_⟩
  · rw [hmem]
    exact matching_of_subset hadds.subset ((hmem' n).1 hn)
  · rintro q raw ⟨front, back, before, after, hf, hq, hf'⟩
    refine ⟨fun hlater n hn => ?_, fun hfirst n hn => ?_⟩
    · rw [hmem']
      exact matching_of_met hf hf' (met_added hq hlater) ((hmem n).1 hn)
    · rw [hmem]
      exact matching_of_met hf' hf (fun _ => hfirst.met) ((hmem' n).1 hn)

section Cores

open InstanceListing (shelf server)

theorem not_refused (h : ∀ q ∈ f.searches, q.comparison = .eq) {r : Except Failure Page} : ¬Refused t f r := by
  rintro ⟨e, ⟨q, hq, a, s, -, hregex, -⟩, -⟩
  rw [h q hq] at hregex
  cases hregex

/-- A search for servers by their cores. -/
def byCores (values : List Json) : Search := .anyOf "cores" .eq values

def cores : Attribute := .new "cores" .int "cores"

def eight : Json := .num (.int 8)

def sixteen : Json := .num (.int 16)

/-- No number of cores. -/
def many : Json := .str "many"

theorem about_byCores (values : List Json) : About server (byCores values) cores := ⟨rfl, rfl⟩

theorem exists_finds (h : ∀ q ∈ f.searches, q.comparison = .eq) :
    ∃ us, Finds shelf server ((ListingSpec.new 10).withFilter f) ["s1"] us := by
  have hsize : shelf.graph.size < 1 <<< 64 := by decide +kernel
  have hlimits : 0 < 1 <<< 64 ∧ 10 < 1 <<< 64 := by decide
  exact (finds_or_refused (s := (ListingSpec.new 10).withFilter f) hlimits.1 hlimits.2 rfl hsize).resolve_right
    (not_refused h)

theorem searches_byCores (values : List Json) :
    ∀ q ∈ (⟨[byCores values]⟩ : SearchFilter).searches, q.comparison = .eq := by
  intro q hq
  obtain rfl := List.mem_singleton.1 hq
  rfl

/-- Servers with eight cores are among those with eight or sixteen, and these are among all servers. -/
theorem finds_eight_of_sixteen : ∃ us us' all,
    Finds shelf server ((ListingSpec.new 10).withFilter ⟨[byCores [eight]]⟩) ["s1"] us ∧
    Finds shelf server ((ListingSpec.new 10).withFilter ⟨[byCores [eight, sixteen]]⟩) ["s1"] us' ∧
    Finds shelf server ((ListingSpec.new 10).withFilter ⟨[]⟩) ["s1"] all ∧ us ⊆ us' ∧ us' ⊆ all := by
  obtain ⟨us, hus⟩ := exists_finds (searches_byCores [eight])
  obtain ⟨us', hus'⟩ := exists_finds (searches_byCores [eight, sixteen])
  obtain ⟨all, hall⟩ := exists_finds (f := ⟨[]⟩) fun _ hq => absurd hq List.not_mem_nil
  have hsize : shelf.graph.size < 1 <<< 64 := by decide +kernel
  obtain ⟨-, hmonotone⟩ := finds_monotone (s := .new 10) rfl hsize server ["s1"] (by decide) (by decide)
  refine ⟨us, us', all, hus, hus', hall, ?_, ?_⟩
  · refine ((hmonotone _ _ _ _ hus hus').2 (byCores [eight]) sixteen ⟨[], [], [eight], [], rfl, rfl, rfl⟩).1 ?_
    rintro ⟨a, ha, hnone, -⟩
    obtain rfl : cores = a := Option.some.inj ((about_byCores [eight]).1.symm.trans ha.1)
    exact hnone ⟨.int 8, eight, List.mem_cons_self, rfl⟩
  · exact (hmonotone _ _ _ _ hall hus').1 (byCores [eight, sixteen]) ⟨[], [], rfl, rfl⟩

theorem firstOffer_eight : FirstOffer server (byCores [many]) eight := by
  refine ⟨cores, about_byCores _, ?_, .int 8, rfl⟩
  rintro ⟨v, raw, hraw, hc⟩
  obtain rfl := List.mem_singleton.1 hraw
  cases hc

/-- A server with sixteen cores is found by a value that is no number, and no more with eight beside it. -/
theorem narrowed_by_eight : AddsValue (byCores [many]) eight ⟨[byCores [many]]⟩ ⟨[byCores [many, eight]]⟩ ∧ ∃ us us',
    Finds shelf server ((ListingSpec.new 10).withFilter ⟨[byCores [many]]⟩) ["s1"] us ∧
    Finds shelf server ((ListingSpec.new 10).withFilter ⟨[byCores [many, eight]]⟩) ["s1"] us' ∧
    ⟨2⟩ ∈ us ∧ ⟨2⟩ ∉ us' := by
  obtain ⟨us, hus⟩ := exists_finds (searches_byCores [many])
  obtain ⟨us', hus'⟩ := exists_finds (searches_byCores [many, eight])
  refine ⟨⟨[], [], [many], [], rfl, rfl, rfl⟩, us, us', hus, hus', ?_, fun hmem => ?_⟩
  · have htype : .str server.typeName ∈ shelf.graph.values ⟨2⟩ Vocabulary.equipmentType := by decide +kernel
    have hscope : shelf.graph.inScopes ["s1"] ⟨2⟩ = true := by decide +kernel
    rw [hus.mem (by decide) (by decide)]
    refine ⟨⟨htype, inScopes_iff.1 hscope, fun q hq => ?_⟩, by constructor <;> rintro _ ⟨⟩⟩
    obtain rfl := List.mem_singleton.1 hq
    exact firstOffer_eight.met
  · rw [hus'.mem (by decide) (by decide)] at hmem
    obtain ⟨v, ⟨raw, hraw, hc⟩, hm⟩ := hmem.1.searched _ List.mem_cons_self cores (about_byCores _)
      ⟨.int 8, eight, List.mem_cons_of_mem _ List.mem_cons_self, rfl⟩
    have hstored : shelf.graph.values ⟨2⟩ (predicateOf server cores) = [sixteen] := by decide +kernel
    rw [hstored] at hm
    obtain rfl | rfl : raw = many ∨ raw = eight := by simpa [byCores, Search.anyOf] using hraw
    · cases hc
    · cases hc
      obtain ⟨m, hm, he⟩ := hm
      cases List.mem_singleton.1 hm
      revert he
      decide

end Cores

end Inventory.MonotoneSearches
