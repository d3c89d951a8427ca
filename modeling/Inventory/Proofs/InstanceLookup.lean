import Inventory.Proofs.AttributeNames
import Inventory.Proofs.InstanceListing

/-!
An instance looked up by its identifier is the first of those that a listing finds by it, and its row in the listing has
what the look-up shows of it, but for the attributes that are not displayed and for its parent.
-/

namespace Inventory.InstanceLookup

open Query Listing Inventory.Graph Repository Store Entries InstanceListing AttributeNames

variable {g : Graph} {s : Store} {t : EquipmentType} {a : Attribute} {scopes : List String} {identifier k : String}
  {u : Uid} {us : List Uid} {pageSize : Nat}

/-- An attribute of a type that identifies its instances by texts. -/
structure Identifies (t : EquipmentType) (a : Attribute) : Prop where
  mem : a ∈ t.attributes
  identifier : a.isIdentifier = true
  notParent : a.isParentIdentifier = false
  text : a.dataType = .string

/-- The attributes of a type have labels of their own, none of them that of the uid. -/
def Labelled (t : EquipmentType) : Prop := (idLabel :: t.attributes.map fun a => Vocabulary.sanitize a.name).Nodup

/-- Nodes have one identifier at most. -/
def Identified (g : Graph) : Prop := ∀ u, (g.values u Vocabulary.identifier).length ≤ 1

/-- Identifiers and displayed attributes are listed, but for the parent. -/
def isListed (a : Attribute) : Bool := a.isIdentifier || (a.isDisplayed && !a.isParentIdentifier)

/-- The labels of the uid and of the attributes that are listed. -/
def Shown (t : EquipmentType) (k : String) : Prop :=
  k = idLabel ∨ ∃ a ∈ t.attributes, isListed a = true ∧ Vocabulary.sanitize a.name = k

/-- A page of the instances whose identifier is a text. -/
def searchFor (a : Attribute) (identifier : String) (pageSize : Nat) : ListingSpec :=
  (ListingSpec.new pageSize).withFilter ⟨[.eq a.name (.str identifier)]⟩

/-- What the operation gives that looks an instance up. -/
def lookUp (t : EquipmentType) (identifier : String) (scopes : List String) (s : Store) : Except Failure Json :=
  (perform (getInstance t identifier scopes) s).1

/-- Two rows of one node: all that is known of it, and what is listed of that. -/
structure Abridged (g : Graph) (t : EquipmentType) (whole part : Json) : Prop where
  node : ∃ u, whole = g.row u (projection t true) ∧ part = g.row u (projection t false) ∧
    part.get? idLabel = some u.toJson
  shown : ∀ k, Shown t k → part.get? k = whole.get? k
  hidden : ∀ k, ¬Shown t k → part.get? k = none

/-- A look-up and a listing find nothing, or the look-up finds the first instance of the listing. -/
structure Agree (g : Graph) (t : EquipmentType) (looked : Except Failure Json) (listed : Except Failure Page) :
    Prop where
  found : (∃ row, looked = .ok row) ↔ ¬∃ what, listed = .error (.noData what)
  missing : (∃ what, looked = .error (.notFound what)) ↔ ∃ what, listed = .error (.noData what)
  rows : ∀ row, looked = .ok row →
    ∃ total first rest, listed = .ok ⟨total, first :: rest⟩ ∧ Abridged g t row first

section Nodes

/-- The instances of a type and in scope that have an identifier. -/
def instances (g : Graph) (t : EquipmentType) (identifier : String) (scopes : List String) : List Uid :=
  (g.uids.filter fun u => Comparison.valuesMatch (g.values u Vocabulary.identifier) (.str identifier)).filter
    fun u => decide (.str t.typeName ∈ g.values u Vocabulary.equipmentType) && g.inScopes scopes u

theorem mem_instances : u ∈ instances g t identifier scopes ↔ .str identifier ∈ g.values u Vocabulary.identifier ∧
    .str t.typeName ∈ g.values u Vocabulary.equipmentType ∧ InScope g scopes u := by
  rw [instances, List.mem_filter, mem_uids_of_text, Bool.and_eq_true, decide_eq_true_eq, inScopes_iff, InScope]

theorem values_of_mem (hone : Identified g) (h : u ∈ instances g t identifier scopes) :
    g.values u Vocabulary.identifier = [.str identifier] := by
  have hmem := (mem_instances.1 h).1
  have hlength := hone u
  match hv : g.values u Vocabulary.identifier with
  | [] => simp [hv] at hmem
  | [v] => simp_all
  | _ :: _ :: _ => simp [hv] at hlength

/-- Instances of one identifier stand in the order of listings as they stand in that of uids. -/
theorem pairwise_instances (hone : Identified g) :
    (instances g t identifier scopes).Pairwise (Precedes g Vocabulary.identifier) := by
  have hself : Comparison.compareValues (.str identifier) (.str identifier) = .eq := Std.ReflCmp.compare_self
  refine (((increasing_uids g).filter _).filter _).imp_of_mem fun hu hv hlt => ?_
  simp only [Precedes, values_of_mem hone hu, values_of_mem hone hv, List.head?_cons]
  exact .inr ⟨hself, hlt⟩

theorem attribute?_name (hl : Labelled t) (ha : a ∈ t.attributes) : t.attribute? a.name = some a := by
  cases h : t.attribute? a.name with
  | none =>
      have hnone := List.find?_eq_none.1 h a ha
      simp at hnone
  | some b =>
      have hname : b.name = a.name := by simpa using List.find?_some h
      obtain rfl : b = a := List.inj_on_of_nodup_map (List.nodup_cons.1 hl).2 (List.mem_of_find?_eq_some h) ha
        (congrArg Vocabulary.sanitize hname)
      rfl

theorem met_identifier (hl : Labelled t) (ha : Identifies t a) :
    Met g t u (.eq a.name (.str identifier)) ↔ .str identifier ∈ g.values u Vocabulary.identifier := by
  have hsearched : searched? .listed t a.name = some a :=
    searched?_listed.2 ⟨attribute?_name hl ha.mem, ha.notParent⟩
  have hoffers : ∀ v, Offers (.eq a.name (.str identifier)) a v ↔ v = .string identifier := fun v =>
    offers_single rfl (by rw [ha.text]; rfl)
  have hpredicate : predicateOf t a = Vocabulary.identifier := by simp [predicateOf, ha.identifier]
  rw [← metOn_listed, metOn_single hsearched hoffers, hpredicate]
  rfl

theorem matching_iff (hl : Labelled t) (ha : Identifies t a) :
    Matching g t (searchFor a identifier pageSize) scopes u ↔ u ∈ instances g t identifier scopes := by
  have hlinked : Linked g scopes Related.none u := by constructor <;> rintro _ ⟨⟩
  rw [mem_instances, ← met_identifier hl ha]
  constructor
  · rintro ⟨hc, -⟩
    exact ⟨hc.searched _ (List.mem_singleton.2 rfl), hc.typed, hc.inScope⟩
  · rintro ⟨hm, ht, hs⟩
    refine ⟨⟨ht, hs, fun q hq => ?_⟩, hlinked⟩
    rwa [List.mem_singleton.1 hq]

end Nodes

section Answers

theorem lookUp_eq (hr : s.refusals.query = none) : lookUp t identifier scopes s =
    match instances s.graph t identifier scopes with
    | u :: _ => .ok (s.graph.row u (projection t true))
    | [] => .error (.notFound s!"equipment {identifier}") := by
  let block := ((Block.named instanceBlock (.eq Vocabulary.identifier (.str identifier))).filtered
    (typeFilter t.typeName scopes)).select (projection t true)
  have hplain : Plain s.graph .empty block
      (s.graph.uids.filter fun u => Comparison.valuesMatch (s.graph.values u Vocabulary.identifier) (.str identifier))
      fun u => decide (.str t.typeName ∈ s.graph.values u Vocabulary.equipmentType) && s.graph.inScopes scopes u :=
    ⟨rfl, fun u => holdsAll_cons (holds_eq_str ..) (holdsAll_singleton (holds_scopeFilter scopes)), rfl, rfl⟩
  have hanswer : s.graph.evaluate (Listing.get t identifier scopes).query (Listing.get t identifier scopes).vars =
      .ok (Table.empty.insert instanceBlock ((instances s.graph t identifier scopes).map fun u =>
        s.graph.row u (projection t true)), .empty) := by
    change evalBlocks s.graph .empty .empty .empty [block] = _
    rw [evalBlocks_cons (evalBlock_plain hplain (cut_eq_self rfl rfl))]
    exact congrArg (fun rows => Except.ok (Table.empty.insert instanceBlock rows, Table.empty)) (project_rows rfl)
  simp only [lookUp, getInstance]
  rw [perform_bind, perform_read hr hanswer]
  simp only [perform_reading, readInstance, rows_insert]
  cases instances s.graph t identifier scopes <;> rfl

theorem reports_searchFor (hr : s.refusals.query = none) (hsize : s.graph.size < 1 <<< 64)
    (hpage : pageSize < 1 <<< 64) : Reports s.graph t (searchFor a identifier pageSize) scopes
      (listing t (searchFor a identifier pageSize) scopes s) := by
  refine (reports_or_refused hr hsize t scopes (show 0 < 1 <<< 64 by decide) hpage).resolve_right ?_
  rintro ⟨e, ⟨q, hq, b, text, -, hc, -⟩, -⟩
  obtain rfl := List.mem_singleton.1 hq
  cases hc

variable (hr : s.refusals.query = none) (hsize : s.graph.size < 1 <<< 64) (hl : Labelled t) (ha : Identifies t a)
  (hpage : pageSize < 1 <<< 64)
include hr hsize hl ha hpage

theorem listing_nil (h : instances s.graph t identifier scopes = []) :
    ∃ what, listing t (searchFor a identifier pageSize) scopes s = .error (.noData what) := by
  refine (reports_searchFor hr hsize hpage).noData.2 fun n hn => ?_
  rw [matching_iff hl ha, h] at hn
  cases hn

theorem listing_cons (hone : Identified s.graph) (h : instances s.graph t identifier scopes = u :: us) :
    listing t (searchFor a identifier pageSize) scopes s =
      .ok ⟨(u :: us).length, ((u :: us).take pageSize).map fun v => s.graph.row v (projection t false)⟩ := by
  have hsome : ∃ n, Matching s.graph t (searchFor a identifier pageSize) scopes n :=
    ⟨u, (matching_iff hl ha).2 (h ▸ List.mem_cons_self)⟩
  obtain ⟨vs, -, hmem, hsorted, hp⟩ := (reports_searchFor hr hsize hpage).page hsome
  have heq : vs = instances s.graph t identifier scopes :=
    eq_of_precedes (hsorted.imp nodeOrder_lt_iff.1) (pairwise_instances hone) fun v => by rw [hmem, matching_iff hl ha]
  rw [hp, heq, h]
  rfl

end Answers

section Rows

theorem attributeSelection?_listed (t : EquipmentType) (a : Attribute) :
    attributeSelection? t false a = if isListed a = true then attributeSelection? t true a else none := by
  unfold attributeSelection? isListed
  cases a.isIdentifier <;> cases a.isParentIdentifier <;> cases a.isDisplayed <;> rfl

theorem projection_listed (t : EquipmentType) : projection t false =
    .field idLabel Vocabulary.uid :: (t.attributes.filter isListed).filterMap (attributeSelection? t true) := by
  rw [projection, List.filterMap_filter, funext (attributeSelection?_listed t)]

theorem sublist_projection (t : EquipmentType) : (projection t false).Sublist (projection t true) := by
  rw [projection_listed]
  exact (List.filter_sublist.filterMap _).cons_cons _

theorem mem_labels_iff : k ∈ (projection t false).map selectionLabel ↔ Shown t k := by
  rw [projection_listed, List.map_cons, List.mem_cons, Shown]
  refine or_congr_right ?_
  simp only [List.mem_map, List.mem_filterMap, List.mem_filter]
  constructor
  · rintro ⟨selection, ⟨a, ⟨ha, hlisted⟩, hs⟩, rfl⟩
    obtain ⟨selection', hs', hlabel⟩ := label_of_attributeSelection t a
    obtain rfl : selection = selection' := Option.some.inj (hs.symm.trans hs')
    exact ⟨a, ha, hlisted, hlabel.symm⟩
  · rintro ⟨a, ha, hlisted, rfl⟩
    obtain ⟨selection, hs, hlabel⟩ := label_of_attributeSelection t a
    exact ⟨selection, ⟨a, ⟨ha, hlisted⟩, hs⟩, hlabel⟩

/-- What is listed of a node is what is known of it under the same labels. -/
theorem abridged (hl : Labelled t) (g : Graph) (u : Uid) :
    Abridged g t (g.row u (projection t true)) (g.row u (projection t false)) := by
  have hwhole : ((projection t true).map selectionLabel).Nodup := by rwa [labels_projection]
  have hpart : ((projection t false).map selectionLabel).Nodup :=
    hwhole.sublist ((sublist_projection t).map selectionLabel)
  have hvalue : ∀ selection ∈ projection t false, (g.row u (projection t false)).get? (selectionLabel selection) =
      selectedValue? g u selection := by
    intro selection hs
    rw [row, Json.get?_ofFields, lookup_selectedAll_of_mem hpart hs]
  refine ⟨⟨u, rfl, rfl, hvalue _ List.mem_cons_self⟩, fun k hk => ?_, fun k hk => ?_⟩
  · obtain ⟨selection, hs, rfl⟩ := List.mem_map.1 (mem_labels_iff.2 hk)
    rw [hvalue selection hs, (reported_iff.2 hwhole).values g u selection ((sublist_projection t).subset hs)]
  · rw [row, Json.get?_ofFields, lookup_selectedAll_of_not_mem (mt mem_labels_iff.1 hk)]

end Rows

/-- On a graph whose nodes have one identifier at most, an instance is found by a text identifier if and only if a
listing by it has data, and then it is the first instance listed, whose row has the uid, the identifier and the
displayed attributes as they are looked up. The parent, which only the look-up shows, is left out. -/
theorem lookUp_agrees (hr : s.refusals.query = none) (hsize : s.graph.size < 1 <<< 64) (hone : Identified s.graph)
    (hl : Labelled t) (ha : Identifies t a) (hpos : 1 ≤ pageSize) (hpage : pageSize < 1 <<< 64)
    (identifier : String) (scopes : List String) :
    Agree s.graph t (lookUp t identifier scopes s) (listing t (searchFor a identifier pageSize) scopes s) := by
  rw [lookUp_eq hr]
  cases h : instances s.graph t identifier scopes with
  | nil =>
      obtain ⟨what, hw⟩ := listing_nil hr hsize hl ha hpage h
      rw [hw]
      exact ⟨by simp, by simp, fun row hrow => by cases hrow⟩
  | cons u us =>
      obtain ⟨n, rfl⟩ := Nat.exists_eq_add_of_le' hpos
      rw [listing_cons hr hsize hl ha hpage hone h]
      refine ⟨by simp, by simp, fun row hrow => ?_⟩
      cases hrow
      exact ⟨_, _, _, rfl, abridged hl s.graph u⟩

/-- A type whose parent identifier is displayed. -/
def blade : EquipmentType :=
  (((EquipmentType.new "blade" "0x1").withAttribute (.identifier "key" "id")).withAttribute
    (Attribute.parentIdentifier "up" "up").displayed).withAttribute (.new "serial" .string "serial")

/-- Two instances of one identifier, the first of them below another instance. -/
def chassis : Store :=
  (unused .none).afterCalls [.execute (.of none [⟨none,
    [.text (.blank "x") Vocabulary.scopes "s1", .text (.blank "x") Vocabulary.equipmentType "blade",
      .text (.blank "x") Vocabulary.identifier "x", .edge (.blank "x") Vocabulary.parent (.blank "r"),
      .text (.blank "r") Vocabulary.identifier "r",
      .text (.blank "y") Vocabulary.scopes "s1", .text (.blank "y") Vocabulary.equipmentType "blade",
      .text (.blank "y") Vocabulary.identifier "x"], []⟩])]

theorem identified_chassis : Identified chassis.graph := by
  have hpresent : ∀ u ∈ chassis.graph.uids, (chassis.graph.values u Vocabulary.identifier).length ≤ 1 := by
    decide +kernel
  intro u
  by_cases hu : chassis.graph.contains u = true
  · exact hpresent u (mem_uids.2 hu)
  · cases hv : chassis.graph.values u Vocabulary.identifier with
    | nil => exact Nat.zero_le 1
    | cons v vs => exact absurd (contains_of_mem_values (hv ▸ List.mem_cons_self)) hu

theorem labelled_blade : Labelled blade := by
  unfold Labelled
  decide +kernel

theorem identifies_key : Identifies blade (.identifier "key" "id") := ⟨by decide +kernel, rfl, rfl, rfl⟩

theorem lookUp_agrees_blade : chassis.refusals.query = none ∧ chassis.graph.size < 1 <<< 64 ∧
    Identified chassis.graph ∧ Labelled blade ∧ Identifies blade (.identifier "key" "id") ∧
    Agree chassis.graph blade (lookUp blade "x" ["s1"] chassis)
      (listing blade (searchFor (.identifier "key" "id") "x" 1) ["s1"] chassis) := by
  have hsize : chassis.graph.size < 1 <<< 64 := by decide +kernel
  exact ⟨rfl, hsize, identified_chassis, labelled_blade, identifies_key,
    lookUp_agrees rfl hsize identified_chassis labelled_blade identifies_key (by decide) (by decide) "x" ["s1"]⟩

theorem instances_chassis : instances chassis.graph blade "x" ["s1"] = [⟨1⟩, ⟨3⟩] := by decide +kernel

/-- A parent identifier is not in the row of a listing, although it is displayed and the look-up shows it. -/
theorem parent_not_listed : Identified chassis.graph ∧ Labelled blade ∧ Identifies blade (.identifier "key" "id") ∧
    ∃ row total first rest, lookUp blade "x" ["s1"] chassis = .ok row ∧
      listing blade (searchFor (.identifier "key" "id") "x" 1) ["s1"] chassis = .ok ⟨total, first :: rest⟩ ∧
      ∃ b ∈ blade.attributes, b.isDisplayed = true ∧
        first.get? (Vocabulary.sanitize b.name) = none ∧ (row.get? (Vocabulary.sanitize b.name)).isSome = true := by
  have hsize : chassis.graph.size < 1 <<< 64 := by decide +kernel
  have hlooked : lookUp blade "x" ["s1"] chassis = .ok (chassis.graph.row ⟨1⟩ (projection blade true)) := by
    rw [lookUp_eq rfl, instances_chassis]
  refine ⟨identified_chassis, labelled_blade, identifies_key, _, _, _, _, hlooked,
    listing_cons rfl hsize labelled_blade identifies_key (by decide) identified_chassis instances_chassis,
    (Attribute.parentIdentifier "up" "up").displayed, by decide +kernel, rfl, ?_, ?_⟩
  · decide +kernel
  · decide +kernel

end Inventory.InstanceLookup
