import Inventory.Proofs.Graph.Links
import Inventory.Proofs.Graph.Order
import Inventory.Proofs.Repository.Operations
import Inventory.Proofs.Searches
import Inventory.Proofs.StoreIntegrity
import Inventory.Proofs.Uid
import Inventory.Repository.Instances

/-!
What a listing of instances reports: those of a type and in scope that meet every search and are linked from every
entity asked for, counted as a whole and given a page at a time.
-/

namespace Inventory.InstanceListing

open Query Listing Inventory.Graph Repository Store Text

variable {g : Graph} {t : EquipmentType} {s s' : ListingSpec} {scopes : List String} {related : Related} {u n : Uid}
  {us : List Uid} {vars vars' : Vars} {params : Bindings} {answer : Answer} {r : Except Failure Page}

/-- The nodes linked from each of the entities asked for. -/
structure Linked (g : Graph) (scopes : List String) (related : Related) (n : Uid) : Prop where
  product : ∀ id ∈ related.product, LinkedFrom g scopes Vocabulary.productTag id Vocabulary.productEquipment n
  application : ∀ id ∈ related.application, InstalledFor g scopes id n
  installation : ∀ id ∈ related.installation,
    LinkedFrom g scopes Vocabulary.instanceId id Vocabulary.instanceEquipment n

/-- The instances in scope that meet every search. -/
structure Candidate (g : Graph) (t : EquipmentType) (f : SearchFilter) (scopes : List String) (n : Uid) : Prop where
  typed : .str t.typeName ∈ g.values n Vocabulary.equipmentType
  inScope : InScope g scopes n
  searched : ∀ q ∈ f.searches, Met g t n q

/-- The instances that a listing is about. -/
def Matching (g : Graph) (t : EquipmentType) (s : ListingSpec) (scopes : List String) (n : Uid) : Prop :=
  Candidate g t s.filter scopes n ∧ Linked g scopes s.related n

/-- A page of what matches is reported, with the number of all that match. -/
structure Reports (g : Graph) (t : EquipmentType) (s : ListingSpec) (scopes : List String)
    (r : Except Failure Page) : Prop where
  noData : (∃ what, r = .error (.noData what)) ↔ ∀ n, ¬Matching g t s scopes n
  page : (∃ n, Matching g t s scopes n) → ∃ us : List Uid, us.Nodup ∧ (∀ n, n ∈ us ↔ Matching g t s scopes n) ∧
    us.Pairwise (fun u v => nodeOrder g ⟨sortPredicate t s.sortBy, s.sortOrder⟩ u v = .lt) ∧
    r = .ok ⟨us.length, ((us.drop s.offset).take s.pageSize).map fun n => g.row n (projection t false)⟩

/-- A listing fails on a search by a text whose pattern is too large. -/
def Refused (t : EquipmentType) (f : SearchFilter) (r : Except Failure Page) : Prop :=
  ∃ e, TooLarge t f e ∧ r = .error (.internal "list_equipments" (.store (.query e)))

/-- Listings that ask for the same instances, with the same searches in any order and of any priority. -/
structure Alike (s s' : ListingSpec) : Prop where
  related : s'.related = s.related
  searches : (s'.filter.searches.map (·.withPriority 0)).Perm (s.filter.searches.map (·.withPriority 0))

section Related

structure Bound (g : Graph) (scopes : List String) (related : Related) (vars : Vars) : Prop where
  product : ∀ id ∈ related.product,
    vars.Collects "ID_Pro" (LinkedFrom g scopes Vocabulary.productTag id Vocabulary.productEquipment)
  application : ∀ id ∈ related.application, vars.Collects "ID_App" (InstalledFor g scopes id)
  installation : ∀ id ∈ related.installation,
    vars.Collects "ID_Ins" (LinkedFrom g scopes Vocabulary.instanceId id Vocabulary.instanceEquipment)

theorem Bound.extends (h : Bound g scopes related vars) (hext : Vars.Extends candidatesVar vars vars') :
    Bound g scopes related vars' :=
  ⟨fun id hid => (h.product id hid).kept hext (by decide),
    fun id hid => (h.application id hid).kept hext (by decide),
    fun id hid => (h.installation id hid).kept hext (by decide)⟩

theorem evalBlocks_related (g : Graph) (related : Related) (scopes : List String) :
    ∃ vars, (∀ params answer bs, evalBlocks g params .empty answer ((relatedBlocks related scopes).map (·.2) ++ bs) =
        evalBlocks g params vars answer bs) ∧
      Bound g scopes related vars ∧ vars.bound candidatesVar = [] := by
  have hempty : ∀ name, Vars.bound .empty name = [] := fun _ => rfl
  obtain ⟨vars₁, he₁, hext₁, hb₁⟩ := evalBlocks_optional (g := g)
    (fun id => binds_applicationBlock id "ID_App" scopes) related.application (hempty "ID_App")
  obtain ⟨vars₂, he₂, hext₂, hb₂⟩ := evalBlocks_optional (g := g)
    (fun id => binds_linkedBlock Vocabulary.productTag id Vocabulary.productEquipment "ID_Pro" scopes)
    related.product ((hext₁.bound (by decide)).trans (hempty "ID_Pro"))
  obtain ⟨vars₃, he₃, hext₃, hb₃⟩ := evalBlocks_optional (g := g)
    (fun id => binds_linkedBlock Vocabulary.instanceId id Vocabulary.instanceEquipment "ID_Ins" scopes)
    related.installation ((hext₂.bound (by decide)).trans ((hext₁.bound (by decide)).trans (hempty "ID_Ins")))
  refine ⟨vars₃, fun params answer bs => ?_, ⟨fun id hid => ?_, fun id hid => ?_, hb₃⟩, ?_⟩
  · rw [← he₃, ← he₂, ← he₁]
    simp [relatedBlocks, Function.comp_def]
  · exact (hb₂ id hid).kept hext₃ (by decide)
  · exact ((hb₁ id hid).kept hext₂ (by decide)).kept hext₃ (by decide)
  · rw [hext₃.bound (by decide), hext₂.bound (by decide), hext₁.bound (by decide), hempty]

def names (related : Related) (scopes : List String) : List String := (relatedBlocks related scopes).map (·.1)

theorem forall_mem_names {p : String → Prop} : (∀ name ∈ names related scopes, p name) ↔
    (∀ id ∈ related.product, p "ID_Pro") ∧ (∀ id ∈ related.application, p "ID_App") ∧
      (∀ id ∈ related.installation, p "ID_Ins") := by
  obtain ⟨product, application, installation⟩ := related
  cases product <;> cases application <;> cases installation <;> simp [names, relatedBlocks, and_comm, and_left_comm]

def linked (related : Related) (scopes : List String) (vars : Vars) (u : Uid) : Bool :=
  (names related scopes).all fun name => decide (u ∈ vars.bound name)

theorem linked_iff (h : Bound g scopes related vars) : linked related scopes vars u = true ↔
    Linked g scopes related u := by
  simp only [linked, List.all_eq_true, decide_eq_true_eq, forall_mem_names]
  constructor
  · rintro ⟨hp, ha, hi⟩
    exact ⟨fun id hid => ((h.product id hid).mem u).1 (hp id hid),
      fun id hid => ((h.application id hid).mem u).1 (ha id hid),
      fun id hid => ((h.installation id hid).mem u).1 (hi id hid)⟩
  · rintro ⟨hp, ha, hi⟩
    exact ⟨fun id hid => ((h.product id hid).mem u).2 (hp id hid),
      fun id hid => ((h.application id hid).mem u).2 (ha id hid),
      fun id hid => ((h.installation id hid).mem u).2 (hi id hid)⟩

theorem passes_linked (h : Bound g scopes related vars) (u : Uid) :
    passes g vars (Filter.allOf ((relatedBlocks related scopes).map fun r => .uid (uidVar r.1))) u =
      .ok (linked related scopes vars u) := by
  have hd : ∀ name ∈ names related scopes, vars.Defined name :=
    forall_mem_names.2 ⟨fun id hid => (h.product id hid).defined, fun id hid => (h.application id hid).defined,
      fun id hid => (h.installation id hid).defined⟩
  have hmap : (relatedBlocks related scopes).map (fun r => Filter.uid (uidVar r.1)) =
      (names related scopes).map fun name => .uid (uidVar name) := by
    rw [names, List.map_map]
    rfl
  rw [hmap]
  exact passes_vars hd u

end Related

section Answers

/-- The block that binds the instances in scope that meet every search, unless it fails on a search. -/
theorem evalBlock_candidates (g : Graph) (vars : Vars) (t : EquipmentType) (s : ListingSpec) (scopes : List String) :
    (∃ us, (∀ params, evalBlock g params vars (candidates t s scopes) = .ok (us, vars.extend candidatesVar us)) ∧
      ∀ u, u ∈ us ↔ Candidate g t s.filter scopes u) ∨
    ∃ e, (∀ params, evalBlock g params vars (candidates t s scopes) = .error e) ∧ TooLarge t s.filter e := by
  have htest : ∀ u, Settles (TooLarge t s.filter) (passes g vars (candidates t s scopes).filter u)
      (InScope g scopes u ∧ ∀ q ∈ s.filter.searches, Met g t u q) := by
    intro u
    have hscope : Settles (TooLarge t s.filter) (holds g vars u (scopeFilter scopes)) (InScope g scopes u) := by
      rw [holds_scopeFilter]
      exact .ok inScopes_iff
    change Settles _ (passes g vars (Filter.allOf (scopeFilter scopes :: (instanceFilter? t s.filter).toList)) u) _
    rw [passes_allOf]
    refine hscope.holdsAll_cons ?_
    rw [holdsAll_toList]
    exact settles_searches t s.filter vars u
  rcases Settles.evalBlock rfl htest rfl rfl rfl rfl with ⟨us, hus, hmem⟩ | hfails
  · refine .inl ⟨us, hus, fun u => ?_⟩
    rw [hmem, mem_uids_of_text]
    exact ⟨fun ⟨ht, hs, hq⟩ => ⟨ht, hs, hq⟩, fun ⟨ht, hs, hq⟩ => ⟨ht, hs, hq⟩⟩
  · exact .inr hfails

theorem pageArg_decimal {name : String} {k : Nat} (hk : k < 1 <<< 64)
    (h : params.get? name = some (Numeral.decimal k)) : pageArg params (.var name) = .ok k := by
  simp only [pageArg, h, Numeral.readUnsigned?_decimal hk]

theorem cut_pageVars {b : Block} (ho : b.offset = some (.var offsetVar)) (hf : b.first = some (.var pageSizeVar))
    (hoffset : s.offset < 1 <<< 64) (hsize : s.pageSize < 1 <<< 64) :
    cut (pageVars s) b us = .ok ((us.drop s.offset).take s.pageSize) := by
  refine cut_page ho hf ?_ ?_
  · exact pageArg_decimal hoffset (by simp [pageVars, Table.ofList, offsetVar, pageSizeVar])
  · exact pageArg_decimal hsize (by simp [pageVars, Table.ofList, pageSizeVar])

/-- The order of a listing. -/
def orderOf (t : EquipmentType) (s : ListingSpec) : Order := ⟨sortPredicate t s.sortBy, s.sortOrder⟩

/-- What the query of a listing answers, when `us` are all that match. -/
structure Answered (g : Graph) (t : EquipmentType) (s : ListingSpec) (answer : Answer) (us : List Uid) : Prop where
  total : answer.rows countBlock = [.ofFields [(totalLabel, .ofNat us.length)]]
  rows : answer.rows rowsBlock = ((us.drop s.offset).take s.pageSize).map fun n => g.row n (projection t false)

def answerOf (g : Graph) (t : EquipmentType) (total : Nat) (shown : List Uid) : Answer :=
  (Table.empty.insert countBlock [.ofFields [(totalLabel, .ofNat total)]]).insert rowsBlock
    (shown.map fun n => g.row n (projection t false))

/-- A block of the candidates that are linked from each of the entities. -/
def resultBlock (related : Related) (scopes : List String) (name : String) : Block :=
  (Block.named name (.uid (uidVar candidatesVar))).filtered
    (Filter.allOf ((relatedBlocks related scopes).map fun r => .uid (uidVar r.1)))

def found (g : Graph) (related : Related) (scopes : List String) (vars : Vars) : List Uid :=
  ((vars.bound candidatesVar).filter g.contains).filter (linked related scopes vars)

theorem nodup_found : (found g related scopes vars).Nodup := ((bound_nodup vars candidatesVar).filter _).filter _

section Results

variable (hb : Bound g scopes s.related vars) (hc : vars.Collects candidatesVar (Candidate g t s.filter scopes))
include hb hc

theorem mem_found : n ∈ found g s.related scopes vars ↔ Matching g t s scopes n := by
  rw [found, List.mem_filter, List.mem_filter, hc.mem, linked_iff hb, Matching]
  constructor
  · rintro ⟨⟨hn, -⟩, hl⟩
    exact ⟨hn, hl⟩
  · rintro ⟨hn, hl⟩
    exact ⟨⟨hn, hn.inScope.contains⟩, hl⟩

theorem evalBlock_counted : evalBlock g params vars (countOf (resultBlock s.related scopes countBlock)) =
    .ok (found g s.related scopes vars, vars) :=
  evalBlock_plain ⟨startNodes_bound hc.defined, passes_linked hb, rfl, rfl⟩ (cut_eq_self rfl rfl)

theorem evalBlock_paged (hoffset : s.offset < 1 <<< 64) (hsize : s.pageSize < 1 <<< 64) :
    evalBlock g (pageVars s) vars (paged (resultBlock s.related scopes rowsBlock) t s) =
      .ok (((g.sorted (some (orderOf t s)) (found g s.related scopes vars)).drop s.offset).take s.pageSize, vars) :=
  evalBlock_plain ⟨startNodes_bound hc.defined, passes_linked hb, rfl, rfl⟩ (cut_pageVars rfl rfl hoffset hsize)

theorem evalBlocks_results (hoffset : s.offset < 1 <<< 64) (hsize : s.pageSize < 1 <<< 64) :
    ∃ answer, evalBlocks g (pageVars s) vars .empty [countOf (resultBlock s.related scopes countBlock),
      paged (resultBlock s.related scopes rowsBlock) t s] = .ok (answer, vars) ∧
      Answered g t s answer (g.sorted (some (orderOf t s)) (found g s.related scopes vars)) := by
  let us := g.sorted (some (orderOf t s)) (found g s.related scopes vars)
  have hlength : us.length = (found g s.related scopes vars).length := (sorted_perm _ _).length_eq
  refine ⟨answerOf g t us.length ((us.drop s.offset).take s.pageSize), ?_, ?_⟩
  · rw [evalBlocks_cons (evalBlock_counted hb hc), evalBlocks_cons (evalBlock_paged hb hc hoffset hsize), hlength]
    rfl
  · exact ⟨(rows_insert_of_ne _ (by decide) _).trans (rows_insert ..), rows_insert ..⟩

end Results

/-- The query of a listing comes down to its two results, with the candidates bound, unless it fails on a search. -/
theorem evaluate_bound (g : Graph) (t : EquipmentType) (s : ListingSpec) (scopes : List String) :
    (∃ vars, Bound g scopes s.related vars ∧ vars.Collects candidatesVar (Candidate g t s.filter scopes) ∧
      ∀ params, g.evaluate (list t s scopes).query params =
        evalBlocks g params vars .empty [countOf (resultBlock s.related scopes countBlock),
          paged (resultBlock s.related scopes rowsBlock) t s]) ∨
    ∃ e, (∀ params, g.evaluate (list t s scopes).query params = .error e) ∧ TooLarge t s.filter e := by
  obtain ⟨vars, hrelated, hb, hempty⟩ := evalBlocks_related g s.related scopes
  have hquery : ∀ params, g.evaluate (list t s scopes).query params =
      evalBlocks g params vars .empty [candidates t s scopes, countOf (resultBlock s.related scopes countBlock),
        paged (resultBlock s.related scopes rowsBlock) t s] := by
    intro params
    rw [← hrelated]
    rfl
  -- the blocks of related entities have bound their variables, and only the block of the candidates can still fail
  rcases evalBlock_candidates g vars t s scopes with ⟨us, hus, hmem⟩ | ⟨e, he, hE⟩
  · left
    have hext := Vars.extends_extend vars candidatesVar us
    refine ⟨vars.extend candidatesVar us, hb.extends hext, ?_, fun params => ?_⟩
    · refine ⟨Vars.defined_extend vars candidatesVar us, fun u => ?_⟩
      rw [bound_extend, hempty, ← hmem]
      simp
    · rw [hquery, evalBlocks_cons (hus params)]
      rfl
  · refine .inr ⟨e, fun params => ?_, hE⟩
    rw [hquery, evalBlocks_error (he params)]

/-- The query of a listing is answered from the same nodes whatever the page, or fails whatever the page. -/
theorem evaluate_pages (g : Graph) (t : EquipmentType) (s : ListingSpec) (scopes : List String) :
    (∃ us, Enumerates g (orderOf t s) (Matching g t s scopes) us ∧ ∀ offset pageSize, offset < 1 <<< 64 →
      pageSize < 1 <<< 64 → ∃ answer vars,
        g.evaluate (list t s scopes).query (pageVars { s with offset, pageSize }) = .ok (answer, vars) ∧
          Answered g t { s with offset, pageSize } answer us) ∨
    ∃ e, (∀ params, g.evaluate (list t s scopes).query params = .error e) ∧ TooLarge t s.filter e := by
  rcases evaluate_bound g t s scopes with ⟨vars, hb, hc, hquery⟩ | hfails
  · refine .inl ⟨_, enumerates_sorted nodup_found fun n => mem_found hb hc, ?_⟩
    intro offset pageSize hoffset hsize
    obtain ⟨answer, hr, ha⟩ := evalBlocks_results (s := { s with offset, pageSize }) hb hc hoffset hsize
    exact ⟨answer, vars, (hquery _).trans hr, ha⟩
  · exact .inr hfails

end Answers

section Pages

theorem readPage_of_answered (name : String) (hsize : g.size < 1 <<< 64)
    (hus : Enumerates g (orderOf t s) (Matching g t s scopes) us) (h : Answered g t s answer us) :
    Listing.readPage name answer = if us = [] then .error (.noData s!"no {name} matched")
      else .ok ⟨us.length, ((us.drop s.offset).take s.pageSize).map fun n => g.row n (projection t false)⟩ := by
  have htotal : answer.count countBlock totalLabel = us.length :=
    count_nodes hsize hus.nodup (fun n hn => ((hus.mem n).1 hn).1.inScope.contains) h.total
  simp [Listing.readPage, htotal, h.rows]

theorem reports_of_answered (name : String) (hsize : g.size < 1 <<< 64)
    (hus : Enumerates g (orderOf t s) (Matching g t s scopes) us) (h : Answered g t s answer us) :
    Reports g t s scopes (Listing.readPage name answer) := by
  rw [readPage_of_answered name hsize hus h]
  by_cases hnil : us = []
  · have hnone : ∀ n, ¬Matching g t s scopes n := by
      intro n hn
      rw [← hus.mem, hnil] at hn
      exact List.not_mem_nil hn
    rw [if_pos hnil]
    refine ⟨by simp [hnone], fun hsome => ?_⟩
    obtain ⟨n, hn⟩ := hsome
    exact absurd hn (hnone n)
  · obtain ⟨n, hn⟩ := List.exists_mem_of_ne_nil us hnil
    rw [if_neg hnil]
    refine ⟨?_, fun _ => ⟨us, hus.nodup, hus.mem, hus.sorted, rfl⟩⟩
    simp only [reduceCtorEq, exists_false, false_iff]
    exact fun hnone => hnone n ((hus.mem n).1 hn)

theorem Reports.total {p : Page} (h : Reports g t s scopes (.ok p)) :
    ∃ us : List Uid, us.Nodup ∧ (∀ n, n ∈ us ↔ Matching g t s scopes n) ∧ p.total = us.length := by
  have hsome : ∃ n, Matching g t s scopes n := by
    refine Classical.byContradiction fun hnone => ?_
    obtain ⟨what, hw⟩ := h.noData.2 fun n hn => hnone ⟨n, hn⟩
    cases hw
  obtain ⟨us, hn, hmem, -, hp⟩ := h.page hsome
  cases hp
  exact ⟨us, hn, hmem, rfl⟩

theorem met_withPriority {q : Search} {priority : Int} : Met g t n (q.withPriority priority) ↔ Met g t n q := Iff.rfl

theorem Alike.matching (h : Alike s s') : Matching g t s' scopes n ↔ Matching g t s scopes n := by
  have hmet : ∀ f : SearchFilter, (∀ q ∈ f.searches, Met g t n q) ↔
      ∀ q ∈ f.searches.map (·.withPriority 0), Met g t n q := by
    intro f
    simp only [List.forall_mem_map, met_withPriority]
  have hsearched : (∀ q ∈ s'.filter.searches, Met g t n q) ↔ ∀ q ∈ s.filter.searches, Met g t n q := by
    rw [hmet s'.filter, hmet s.filter]
    exact forall_congr' fun q => by rw [h.searches.mem_iff]
  rw [Matching, Matching, h.related]
  refine and_congr_left' ⟨fun hc => ⟨hc.typed, hc.inScope, hsearched.1 hc.searched⟩,
    fun hc => ⟨hc.typed, hc.inScope, hsearched.2 hc.searched⟩⟩

end Pages

/-- What the operation gives that lists the instances of a type. -/
def listing (t : EquipmentType) (s : ListingSpec) (scopes : List String) (store : Store) : Except Failure Page :=
  (perform (listInstances t s scopes) store).1

variable {store : Store}

theorem listing_ok (hr : store.refusals.query = none)
    (h : store.graph.evaluate (list t s scopes).query (list t s scopes).vars = .ok (answer, vars)) :
    listing t s scopes store = Listing.readPage (list t s scopes).query.name answer := by
  simp only [listing, listInstances]
  rw [perform_bind, perform_read hr h]
  simp only [perform_reading]

theorem listing_error (hr : store.refusals.query = none) {e : QueryFault}
    (h : store.graph.evaluate (list t s scopes).query (list t s scopes).vars = .error e) :
    listing t s scopes store = .error (.internal "list_equipments" (.store (.query e))) := by
  simp only [listing, listInstances]
  rw [perform_bind, perform_read_error hr h]

theorem reports_or_refused (hr : store.refusals.query = none) (hsize : store.graph.size < 1 <<< 64)
    (t : EquipmentType) (scopes : List String) (hoffset : s.offset < 1 <<< 64) (hpage : s.pageSize < 1 <<< 64) :
    Reports store.graph t s scopes (listing t s scopes store) ∨
      Refused t s.filter (listing t s scopes store) := by
  rcases evaluate_pages store.graph t s scopes with ⟨us, hus, hpages⟩ | ⟨e, he, hE⟩
  · obtain ⟨answer, vars, hpage, ha⟩ := hpages s.offset s.pageSize hoffset hpage
    rw [listing_ok hr hpage]
    exact .inl (reports_of_answered _ hsize hus ha)
  · exact .inr ⟨e, hE, listing_error hr (he _)⟩

/-- A listing from any graph of fewer than `2 ^ 64` nodes: there is no data if nothing matches, and otherwise a page of
what matches with the number of all that match, which is the same for all listings that ask for the same instances.
Only a search by a text whose pattern is too large makes it fail. -/
theorem reports_listing (hr : store.refusals.query = none) (hsize : store.graph.size < 1 <<< 64)
    (t : EquipmentType) (s : ListingSpec) (scopes : List String) (hoffset : s.offset < 1 <<< 64)
    (hpage : s.pageSize < 1 <<< 64) :
    (Reports store.graph t s scopes (listing t s scopes store) ∨ Refused t s.filter (listing t s scopes store)) ∧
      ∀ s', Alike s s' → s'.offset < 1 <<< 64 → s'.pageSize < 1 <<< 64 → ∀ p p',
        listing t s scopes store = .ok p → listing t s' scopes store = .ok p' → p'.total = p.total := by
  refine ⟨reports_or_refused hr hsize t scopes hoffset hpage, ?_⟩
  intro s' halike hoffset' hpage' p p' hp hp'
  have hreports : ∀ {s : ListingSpec} {p : Page}, s.offset < 1 <<< 64 → s.pageSize < 1 <<< 64 →
      listing t s scopes store = .ok p → Reports store.graph t s scopes (.ok p) := by
    intro s p ho hs hp
    rcases reports_or_refused hr hsize t scopes ho hs with h | ⟨e, -, he⟩
    · rwa [hp] at h
    · rw [hp] at he
      cases he
  obtain ⟨us, hn, hmem, ht⟩ := (hreports hoffset hpage hp).total
  obtain ⟨us', hn', hmem', ht'⟩ := (hreports hoffset' hpage' hp').total
  have hperm : us'.Perm us := by
    rw [List.perm_ext_iff_of_nodup hn' hn]
    intro n
    rw [hmem', hmem, halike.matching]
  rw [ht, ht', hperm.length_eq]

/-- A type with an identifier and a number. -/
def server : EquipmentType :=
  ((EquipmentType.new "server" "0x1").withAttribute (.identifier "key" "id")).withAttribute (.new "cores" .int "cores")

/-- An instance of that type, made under a label. -/
def serverQuads (label : String) (cores : Int) : List Quad :=
  [.text (.blank label) Vocabulary.scopes "s1", .text (.blank label) Vocabulary.equipmentType "server",
    .text (.blank label) Vocabulary.identifier label,
    .value (.blank label) (Vocabulary.attributePredicate "server" "cores") (.num (.int cores))]

/-- Two instances, and a product that one of them is linked from. -/
def shelf : Store :=
  (unused .none).afterCalls [.execute (.of none [⟨none, serverQuads "x" 8 ++ serverQuads "y" 16 ++
    [.text (.blank "p") Vocabulary.productTag "p1", .text (.blank "p") Vocabulary.scopes "s1",
      .edge (.blank "p") Vocabulary.productEquipment (.blank "x")], []⟩])]

/-- The instances of the product with eight cores. -/
def eightCores : ListingSpec :=
  ((ListingSpec.new 10).withProduct "p1").withFilter ⟨[.eq "cores" (.str "8")]⟩

theorem reports_eightCores : Reports shelf.graph server eightCores ["s1"] (listing server eightCores ["s1"] shelf) := by
  have hsize : shelf.graph.size < 1 <<< 64 := by decide +kernel
  have hreports := reports_listing rfl hsize server eightCores ["s1"] (by decide) (by decide)
  refine hreports.1.resolve_right ?_
  rintro ⟨e, ⟨q, hq, a, s, -, hc, -⟩, -⟩
  obtain rfl := List.mem_singleton.1 hq
  cases hc

/-- The instances with an identifier that begins with a text. -/
def beginningWith (text : String) : ListingSpec := (ListingSpec.new 10).withFilter ⟨[.regex "key" text]⟩

theorem instanceFilter?_beginningWith (text : String) : instanceFilter? server (beginningWith text).filter =
    some (.regex Vocabulary.identifier (startingWith text) true) := by
  have hordered : (beginningWith text).filter.ordered = [.regex "key" text] := List.mergeSort_singleton _
  rw [instanceFilter?, attributeFilter?, hordered]
  rfl

/-- A filter that fails does so as soon as an instance is tried. -/
theorem listing_of_error {e : QueryFault} (hrelated : s.related = .none)
    (h : shelf.graph.passes .empty (instanceFilter? server s.filter) ⟨1⟩ = .error e) :
    listing server s ["s1"] shelf = .error (.internal "list_equipments" (.store (.query e))) := by
  have hscope : shelf.graph.inScopes ["s1"] ⟨1⟩ = true := by decide +kernel
  have hstart : (shelf.graph.uids.filter fun u => Comparison.valuesMatch
      (shelf.graph.values u Vocabulary.equipmentType) (.str "server")) = [⟨1⟩, ⟨2⟩] := by
    decide +kernel
  have htest : shelf.graph.passes .empty (candidates server s ["s1"]).filter ⟨1⟩ = .error e := by
    change passes _ _ (Filter.allOf (scopeFilter ["s1"] :: (instanceFilter? server s.filter).toList)) _ = _
    rw [passes_allOf, holdsAll, holds_scopeFilter, hscope]
    change holdsAll _ _ _ _ = _
    rw [holdsAll_toList, h]
  have hblock : shelf.graph.evalBlock (pageVars s) .empty (candidates server s ["s1"]) = .error e :=
    evalBlock_error (congrArg Except.ok hstart) htest
  refine listing_error rfl ?_
  simp only [list, hrelated]
  exact evalBlocks_error hblock

theorem holds_startingWith_of_none {text p : String} (h : Pattern.compile? true (startingWith text).toList = none) :
    holds g vars u (.regex p (startingWith text) true) =
      .error (.invalidPattern (.tooLarge (startingWith text))) := by
  rw [holds, h]
  simp only [patternFault, Pattern.parse?_startingWith]
  rfl

theorem listing_beginningWith {text : String} (h : Pattern.compile? true (startingWith text).toList = none) :
    listing server (beginningWith text) ["s1"] shelf =
      .error (.internal "list_equipments" (.store (.query (.invalidPattern (.tooLarge (startingWith text)))))) := by
  refine listing_of_error rfl ?_
  rw [instanceFilter?_beginningWith, passes]
  exact holds_startingWith_of_none h

def repeated (k : Nat) (c : Char) : String := String.ofList (List.replicate k c)

theorem length_repeated (k : Nat) (c : Char) : (repeated k c).toList.length = k := by
  rw [repeated, String.toList_ofList, List.length_replicate]

/-- A text of more characters than a pattern has room for. -/
def longText : String := repeated 500000 '1'

theorem compile?_longText : Pattern.compile? true (startingWith longText).toList = none := by
  have hlength : longText.toList.length = 500000 := length_repeated 500000 '1'
  apply Pattern.compile?_startingWith_eq_none
  rw [hlength]
  unfold Pattern.Size.limit
  omega

theorem not_reports_longText :
    ¬Reports shelf.graph server (beginningWith longText) ["s1"]
      (listing server (beginningWith longText) ["s1"] shelf) := by
  rw [listing_beginningWith compile?_longText]
  intro h
  by_cases hsome : ∃ n, Matching shelf.graph server (beginningWith longText) ["s1"] n
  · obtain ⟨us, -, -, -, hp⟩ := h.page hsome
    cases hp
  · obtain ⟨what, hw⟩ := h.noData.2 fun n hn => hsome ⟨n, hn⟩
    cases hw

end Inventory.InstanceListing
