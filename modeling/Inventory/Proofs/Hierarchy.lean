import Inventory.Hierarchy.Request
import Inventory.Proofs.Graph.Reach

/-!
What queries about an anchor find: the nodes that so many hops lead to from it, and whether it is there at all. Those
for the types below a type find all of them, as long as depths have room for the types in the scopes.
-/

namespace Inventory.Hierarchy

open Query Listing Inventory.Graph

variable {g : Graph} {params : Bindings} {vars : Vars} {answer : Answer} {scopes : List String} {u v : Uid}
  {us : List Uid} {depth n : Nat}

section Anchors

variable {test : Uid → Bool} {next : Uid → List Uid} {f : Filter} {t : Traversal} {anchor : Uid}

/-- The anchor of a query, if it is there and passes a test. -/
def anchorsOf (g : Graph) (test : Uid → Bool) (anchor : Uid) : List Uid := ([anchor].filter g.contains).filter test

theorem increasing_anchorsOf : (anchorsOf g test anchor).Pairwise (· < ·) :=
  ((List.pairwise_singleton _ anchor).filter _).filter _

theorem mem_anchorsOf :
    u ∈ anchorsOf g test anchor ↔ u = anchor ∧ g.contains anchor = true ∧ test anchor = true := by
  rw [anchorsOf, List.mem_filter, List.mem_filter, List.mem_singleton, and_assoc]
  constructor
  · rintro ⟨rfl, h⟩
    exact ⟨rfl, h⟩
  · rintro ⟨rfl, h⟩
    exact ⟨rfl, h⟩

theorem anchorsOf_eq (h : g.contains anchor = true ∧ test anchor = true) : anchorsOf g test anchor = [anchor] := by
  simp [anchorsOf, h.1, h.2]

theorem anchorsOf_eq_nil (h : ¬(g.contains anchor = true ∧ test anchor = true)) : anchorsOf g test anchor = [] :=
  List.eq_nil_iff_forall_not_mem.2 fun _ hu => h (mem_anchorsOf.1 hu).2

/-- The variables of a query about an anchor once the hops from it have been followed. -/
structure Binds (roots : List Uid) (next : Uid → List Uid) (depth : Nat) (vars : Vars) : Prop where
  anchored : vars.Defined anchorVar
  anchors : vars.bound anchorVar = roots
  reached : vars.Collects reachedVar fun v =>
    v ∉ roots ∧ ∃ n ≤ depth, ∃ z ∈ roots, Hops (fun u v => v ∈ next u) n z v

theorem evalBlock_anchored (hp : ∀ vars u, passes g vars (some f) u = .ok (test u)) (hb : t.bind = some reachedVar)
    (hn : ∀ vars u, hop g vars t.edge t.filter u = .ok (next u)) (anchor : Uid) (depth : Nat) (params : Bindings) :
    ∃ vars, evalBlock g params .empty { anchored anchor f t with recursion := some ⟨depth, false⟩ } =
        .ok (anchorsOf g test anchor, vars) ∧ Binds (anchorsOf g test anchor) next depth vars := by
  have hext := Vars.extends_extend .empty anchorVar (anchorsOf g test anchor)
  have hempty : (Vars.extend .empty anchorVar (anchorsOf g test anchor)).bound reachedVar = [] :=
    hext.bound (by decide)
  have hanchors : (Vars.extend .empty anchorVar (anchorsOf g test anchor)).bound anchorVar = anchorsOf g test anchor :=
    bound_extend_empty anchorVar increasing_anchorsOf
  obtain ⟨vars, hr, hd, hext', hmem⟩ := recur_eq hb hn (anchorsOf g test anchor) (r := ⟨depth, false⟩) rfl hempty
  refine ⟨vars, ?_, ?_, ?_, ⟨hd, hmem⟩⟩
  · exact evalBlock_repeats (startNodes_uid anchor) (hp _) (cut_eq_self rfl rfl) rfl hr
  · exact hext'.mono (Vars.defined_extend .empty anchorVar _)
  · rw [hext'.bound (by decide), hanchors]

end Anchors

section Answers

variable {roots shown : List Uid} {root last : Block} {rows : List Json} {anchor : Uid} {anchored : Prop}
  {kind : Uid → Prop}

/-- What is answered about an anchor: whether it is there, how many nodes have been reached, and rows of these. -/
structure Tells (answer : Answer) (anchors total : Nat) (rows : List Json) : Prop where
  anchored : answer.rows existsBlock = [.ofFields [(totalLabel, .ofNat anchors)]]
  total : answer.rows countBlock = [.ofFields [(totalLabel, .ofNat total)]]
  rows : answer.rows rowsBlock = rows

def answerOf (anchors total : Nat) (rows : List Json) : Answer :=
  ((Table.empty.insert existsBlock [.ofFields [(totalLabel, .ofNat anchors)]]).insert countBlock
    [.ofFields [(totalLabel, .ofNat total)]]).insert rowsBlock rows

theorem tells_answerOf (anchors total : Nat) (rows : List Json) :
    Tells (answerOf anchors total rows) anchors total rows := by
  constructor
  · exact (rows_insert_of_ne _ (by decide) _).trans ((rows_insert_of_ne _ (by decide) _).trans (rows_insert ..))
  · exact (rows_insert_of_ne _ (by decide) _).trans (rows_insert ..)
  · exact rows_insert ..

theorem evalBlocks_counts {name var : String} {bs : List Block} (hd : vars.Defined var)
    (hp : ∀ u ∈ vars.bound var, g.contains u = true) :
    evalBlocks g params vars answer (counted name var :: bs) =
      evalBlocks g params vars
        (answer.insert name [.ofFields [(totalLabel, .ofNat (vars.bound var).length)]]) bs :=
  evalBlocks_cons (evalBlock_bound rfl hd hp rfl rfl rfl rfl rfl)

theorem evalBlocks_anchored (hroot : evalBlock g params .empty root = .ok (roots, vars)) (hnone : root.name = none)
    (ha : vars.Defined anchorVar) (hanchors : ∀ u ∈ vars.bound anchorVar, g.contains u = true)
    (hr : vars.Defined reachedVar) (hreached : ∀ u ∈ vars.bound reachedVar, g.contains u = true)
    (hlast : evalBlock g params vars last = .ok (shown, vars)) (hname : last.name = some rowsBlock) :
    evalBlocks g params .empty .empty (blocks root last) =
      .ok (answerOf (vars.bound anchorVar).length (vars.bound reachedVar).length (project g shown last.selections),
        vars) := by
  rw [blocks, evalBlocks_cons hroot, hnone, evalBlocks_counts ha hanchors, evalBlocks_counts hr hreached,
    evalBlocks_cons hlast, hname]
  rfl

theorem Tells.readPage_missing {total : Nat} (h : Tells answer 0 total rows) (name : String) (anchor : Uid) :
    readPage name anchor answer = .error (.notFound s!"equipment {anchor.text}") := by
  have hexists : answer.count existsBlock totalLabel = 0 := count_of_rows (by decide) h.anchored
  simp [readPage, hexists]

theorem Tells.readPage_found (h : Tells answer 1 us.length rows) (hsize : g.size < 1 <<< 64) (hn : us.Nodup)
    (hp : ∀ v ∈ us, g.contains v = true) (name : String) (anchor : Uid) :
    readPage name anchor answer =
      if us = [] then .error (.noData s!"{name} of {anchor.text}") else .ok ⟨us.length, rows⟩ := by
  have hexists : answer.count existsBlock totalLabel = 1 := count_of_rows (by decide) h.anchored
  have htotal : answer.count countBlock totalLabel = us.length := count_nodes hsize hn hp h.total
  simp [readPage, hexists, htotal, h.rows]

/-- What is read about an anchor, if the nodes that have been reached from it are those of a kind. -/
structure Reads (anchored : Prop) (kind : Uid → Prop) (page : Page) (r : Except Failure Page) : Prop where
  notFound : (∃ what, r = .error (.notFound what)) ↔ ¬anchored
  noData : (∃ what, r = .error (.noData what)) ↔ anchored ∧ ∀ v, ¬kind v
  page : anchored → (∃ v, kind v) → r = .ok page

theorem Tells.reads (h : Tells answer roots.length us.length rows) (hone : anchored → roots = [anchor])
    (hnone : ¬anchored → roots = []) (hsize : g.size < 1 <<< 64) (hn : us.Nodup)
    (hp : ∀ v ∈ us, g.contains v = true) (hmem : anchored → ∀ v, v ∈ us ↔ kind v) (name : String) :
    Reads anchored kind ⟨us.length, rows⟩ (readPage name anchor answer) := by
  by_cases hq : anchored
  · rw [hone hq] at h
    rw [h.readPage_found hsize hn hp]
    by_cases hnil : us = []
    · have hempty : ∀ v, ¬kind v := fun v hv => by simpa [hnil] using (hmem hq v).2 hv
      rw [if_pos hnil]
      exact ⟨by simp [hq], by simp [hq, hempty], fun _ hsome => absurd hsome (not_exists.2 hempty)⟩
    · obtain ⟨v, hv⟩ := List.exists_mem_of_ne_nil us hnil
      have hkind := (hmem hq v).1 hv
      rw [if_neg hnil]
      exact ⟨by simp [hq], by simpa using fun _ => ⟨v, hkind⟩, fun _ _ => rfl⟩
  · rw [hnone hq] at h
    rw [h.readPage_missing]
    exact ⟨by simp [hq], by simp [hq], fun hq' => absurd hq' hq⟩

end Answers

section Types

/-- The types in any of some scopes. -/
def visibleTypes (g : Graph) (scopes : List String) : List Uid :=
  g.uids.filter fun u => g.has u Vocabulary.metaType && g.inScopes scopes u

theorem mem_visibleTypes : u ∈ visibleTypes g scopes ↔
    g.contains u = true ∧ g.has u Vocabulary.metaType = true ∧ g.inScopes scopes u = true := by
  rw [visibleTypes, List.mem_filter, mem_uids, Bool.and_eq_true]

theorem nodup_visibleTypes (g : Graph) (scopes : List String) : (visibleTypes g scopes).Nodup := (nodup_uids g).filter _

/-- The children of a type in any of some scopes. -/
def childrenIn (g : Graph) (scopes : List String) (u : Uid) : List Uid :=
  (g.sources u Vocabulary.metaParent).items.filter (g.inScopes scopes)

theorem passes_visible (scopes : List String) (u : Uid) :
    passes g vars (some (.and [.has Vocabulary.metaType, scopeFilter scopes])) u =
      .ok (g.has u Vocabulary.metaType && g.inScopes scopes u) :=
  holdsAll_cons rfl (holdsAll_singleton (holds_scopeFilter scopes))

theorem hop_children (scopes : List String) (vars : Vars) (u : Uid) :
    hop g vars (Direction.descendants.edge Vocabulary.metaParent) (some (scopeFilter scopes)) u =
      .ok (childrenIn g scopes u) :=
  sift_eq_filter (passes_scopes scopes)

/-- A type in one of the scopes with its parent. -/
def Under (g : Graph) (scopes : List String) (v u : Uid) : Prop :=
  v ∈ visibleTypes g scopes ∧ u ∈ g.edges v Vocabulary.metaParent

/-- The types other than `u` from which at most `depth` parent edges lead to it, each from a type in the scopes. -/
def Below (g : Graph) (scopes : List String) (depth : Nat) (u v : Uid) : Prop :=
  v ≠ u ∧ ∃ n ≤ depth, Hops (Under g scopes) n v u

/-- No more edges are needed than there are types in the scopes. -/
theorem below_of_le (h : (visibleTypes g scopes).length ≤ depth) :
    Below g scopes depth u v ↔ ∃ depth, Below g scopes depth u v := by
  refine ⟨fun hv => ⟨depth, hv⟩, ?_⟩
  rintro ⟨-, hne, n, -, hn⟩
  obtain ⟨m, hm, hops⟩ := hn.shorten fun x y hxy => hxy.1
  exact ⟨hne, m, Nat.le_trans hm h, hops⟩

theorem Below.visible (h : Below g scopes depth u v) : v ∈ visibleTypes g scopes := by
  obtain ⟨hne, n, -, hn⟩ := h
  cases hn with
  | none => exact absurd rfl hne
  | more h _ => exact h.1

/-- The selections of the rows of types. -/
def typeRowSelections : List Selection := [.field idLabel Vocabulary.uid, .field typeLabel Vocabulary.metaType]

/-- What the query for the types below `u` answers, when `us` are the types it has reached. -/
structure Descends (g : Graph) (scopes : List String) (depth : Nat) (u : Uid) (answer : Answer) (us : List Uid) :
    Prop where
  tells : Tells answer 1 us.length (us.map fun v => g.row v typeRowSelections)
  nodup : us.Nodup
  mem : ∀ v, v ∈ us ↔ Below g scopes depth u v

variable (hg : g.Intact) (htyped : ∀ x y, y ∈ g.edges x Vocabulary.metaParent → g.has x Vocabulary.metaType = true)
include hg htyped

theorem mem_childrenIn : v ∈ childrenIn g scopes u ↔ Under g scopes v u := by
  rw [childrenIn, List.mem_filter, Under, mem_visibleTypes, ← OrderedSet.mem_def, ← hg.mirrored]
  constructor
  · rintro ⟨he, hs⟩
    exact ⟨⟨contains_of_mem_edges he, htyped v u he, hs⟩, he⟩
  · rintro ⟨⟨-, -, hs⟩, he⟩
    exact ⟨he, hs⟩

theorem hops_childrenIn : Hops (fun x y => y ∈ childrenIn g scopes x) n u v ↔ Hops (Under g scopes) n v u := by
  constructor <;> intro h
  · exact h.reverse (p := fun _ => True) (fun x y _ hy => ⟨trivial, (mem_childrenIn hg htyped).1 hy⟩) trivial
  · exact h.reverse (p := fun _ => True) (fun x y _ hy => ⟨trivial, (mem_childrenIn hg htyped).2 hy⟩) trivial

/-- With room for the types in the scopes, children of what lies below a type lie below it. -/
theorem below_of_mem_childrenIn (hd : (visibleTypes g scopes).length ≤ depth) {x y : Uid}
    (hx : x = u ∨ Below g scopes depth u x) (hy : y ∈ childrenIn g scopes x) : y = u ∨ Below g scopes depth u y := by
  have hunder := (mem_childrenIn hg htyped).1 hy
  refine or_iff_not_imp_left.2 fun hne => (below_of_le hd).2 ?_
  rcases hx with rfl | ⟨-, n, -, hn⟩
  · exact ⟨1, hne, 1, Nat.le_refl 1, .more hunder (.none x)⟩
  · exact ⟨n + 1, hne, n + 1, Nat.le_refl _, .more hunder hn⟩

theorem evaluate_typeTraversal (hu : u ∈ visibleTypes g scopes) (depth : Nat) : ∃ answer vars us,
    g.evaluate (typeTraversal u .descendants depth scopes).query .empty = .ok (answer, vars) ∧
      Descends g scopes depth u answer us := by
  obtain ⟨hcontains, hhas, hin⟩ := mem_visibleTypes.1 hu
  obtain ⟨vars, hroot, hb⟩ := evalBlock_anchored (t := hopTo .descendants Vocabulary.metaParent (scopeFilter scopes))
    (fun _ => passes_visible scopes) rfl (hop_children scopes) u depth .empty
  have hanchors : anchorsOf g (fun u => g.has u Vocabulary.metaType && g.inScopes scopes u) u = [u] :=
    anchorsOf_eq ⟨hcontains, Bool.and_eq_true_iff.2 ⟨hhas, hin⟩⟩
  rw [hanchors] at hroot hb
  have hbelow : ∀ v, v ∈ vars.bound reachedVar ↔ Below g scopes depth u v := by
    intro v
    rw [hb.reached.mem, List.mem_singleton, Below]
    simp only [List.mem_singleton, exists_eq_left, hops_childrenIn hg htyped]
  have hpresent : ∀ v ∈ vars.bound reachedVar, g.contains v = true :=
    fun v hv => (mem_visibleTypes.1 ((hbelow v).1 hv).visible).1
  have hanchor : ∀ v ∈ vars.bound anchorVar, g.contains v = true := by
    intro v hv
    rw [hb.anchors, List.mem_singleton] at hv
    exact hv ▸ hcontains
  let us := g.sorted (some ⟨Vocabulary.metaType, .asc⟩) (vars.bound reachedVar)
  have hperm : us.Perm (vars.bound reachedVar) := sorted_perm _ _
  have hrows : evalBlock g .empty vars (((Block.named rowsBlock (.uid (uidVar reachedVar))).orderBy
      Vocabulary.metaType .asc).select typeRowSelections) = .ok (us, vars) :=
    evalBlock_bound rfl hb.reached.defined hpresent rfl rfl rfl rfl rfl
  have hanswer := evalBlocks_anchored hroot rfl hb.anchored hanchor hb.reached.defined hpresent hrows rfl
  rw [hb.anchors, ← hperm.length_eq] at hanswer
  exact ⟨_, vars, us, hanswer, tells_answerOf .., hperm.nodup_iff.2 (bound_nodup vars reachedVar),
    fun v => hperm.mem_iff.trans (hbelow v)⟩

end Types

end Inventory.Hierarchy
