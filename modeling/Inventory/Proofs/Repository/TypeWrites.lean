import Inventory.Proofs.Repository.AttributeEffects

/-!
What a type is stored as once it has been made or changed: its own cells, and a node for each of its attributes.
-/

namespace Inventory.Repository

open Inventory.Graph Store Outcome Vocabulary

variable {g g' : Graph} {vars : Vars} {d d' : Draft} {u v w : Uid} {vs : List Uid} {as : List Attribute}
  {name p : String} {scopes : List String} {parent : Option Uid} {receipt : Receipt}

/-- A new type with its attributes. Whatever else there is stays as it was. -/
structure TypeWritten (g g' : Graph) (u : Uid) (vs : List Uid) (name : String) (source : Uid) (parent : Option Uid)
    (scopes : List String) (as : List Attribute) : Prop where
  beyond : ∀ v ∈ u :: vs, g.lastUid < v.value
  others : ∀ w, w ∉ u :: vs → Same g g' w
  name : g'.values u metaType = [.str name]
  source : (g'.edges u metaSource).items = [source]
  parent : (g'.edges u metaParent).items = parent.toList
  scopes : g'.values u Vocabulary.scopes = (scopes.map Json.str).foldl (put true) []
  attributes : (g'.edges u metaAttribute).items = vs
  stored : List.Forall₂ (fun v a => StoredAttribute g' v (a.withId v.text)) vs as

/-- A type with more attributes behind its own, with more scopes, and perhaps with another parent. Whatever else there
is stays as it was. -/
structure TypeExtended (g g' : Graph) (u : Uid) (vs : List Uid) (parent : Option Uid) (scopes : List String)
    (as : List Attribute) : Prop where
  beyond : ∀ v ∈ vs, g.lastUid < v.value
  others : ∀ w, w ≠ u → w ∉ vs → Same g g' w
  values : ∀ p, p ≠ Vocabulary.scopes → g'.values u p = g.values u p
  edges : ∀ p, p ≠ metaParent → p ≠ metaAttribute → g'.edges u p = g.edges u p
  parent : (g'.edges u metaParent).items = if parent = none then (g.edges u metaParent).items else parent.toList
  scopes : g'.values u Vocabulary.scopes = (scopes.map Json.str).foldl (put true) (g.values u Vocabulary.scopes)
  attributes : (g'.edges u metaAttribute).items = (g.edges u metaAttribute).items ++ vs
  stored : List.Forall₂ (fun v a => StoredAttribute g' v (a.withId v.text)) vs as

section Labels

theorem attributeLabel_injective {i j : Nat} (h : attributeLabel i = attributeLabel j) : i = j :=
  Text.Numeral.decimal_injective (String.append_right_inj "attr-" |>.1 h)

theorem attributeLabel_ne_typeNodeLabel (i : Nat) : attributeLabel i ≠ typeNodeLabel := by
  intro h
  have hl := congrArg String.toList h
  simp [attributeLabel, typeNodeLabel] at hl

theorem map_labelled (as : List Attribute) : (labelled as).map (·.2) = as := by
  rw [labelled, List.map_map]
  exact List.zipIdx_map_fst 0 as

theorem mem_labelled {l : String × Attribute} (h : l ∈ labelled as) : ∃ i, l.1 = attributeLabel i := by
  obtain ⟨⟨a, i⟩, -, rfl⟩ := List.mem_map.1 h
  exact ⟨i, rfl⟩

theorem nodup_labelled (as : List Attribute) : ((labelled as).map (·.1)).Nodup := by
  have hl : (labelled as).map (·.1) = (List.range' 0 as.length).map attributeLabel := by
    rw [labelled, List.map_map, ← List.zipIdx_map_snd 0 as, List.map_map]
    rfl
  rw [hl]
  exact List.Pairwise.map _ (fun i j h he => h (attributeLabel_injective he)) List.nodup_range'

end Labels

/-- Attributes under the ids of their nodes. -/
def withIds (as : List Attribute) (vs : List Uid) : List Attribute := List.zipWith (fun a v => a.withId v.text) as vs

theorem assignIds_ok (h : List.Forall₂ (fun l v => receipt.assigned.get? l.1 = some v) (labelled as) vs) :
    assignIds receipt as = .ok (withIds as vs) := by
  have hids : withIds as vs = withIds ((labelled as).map (·.2)) vs := by rw [map_labelled]
  rw [assignIds, hids]
  clear hids
  generalize labelled as = ls at h
  rw [mapM_ok_iff]
  induction h with
  | nil => exact .nil
  | cons hl _ ih => exact .cons (by simp only [hl]) ih

theorem stored_withIds (h : List.Forall₂ (fun v a => StoredAttribute g v (a.withId v.text)) vs as) :
    List.Forall₂ (StoredAttribute g) vs (withIds as vs) := by
  induction h with
  | nil => exact .nil
  | cons ha _ ih => exact .cons ha ih

theorem attributesAdded_of_definition {owner : Subject} (hv : vars.Known g) (hd : d.Over g vars)
    (hdeclared : Declared g) (hu : d.nodes vars owner = [u]) (hc : d.graph.contains u = true)
    (howner : ∀ i, owner ≠ .blank (attributeLabel i)) (hfree : ∀ i, d.made? (.blank (attributeLabel i)) = none)
    (h : (allAttributeQuads owner as).foldlM (setQuad vars) d = .ok d') :
    ∃ vs, AttributesAdded d.graph d'.graph u vs as ∧
      List.Forall₂ (fun l v => d'.blanks.get? l.1 = some v) (labelled as) vs := by
  have hset := attributesAdded_of_set hv hd hdeclared hu hc (nodup_labelled as) (fun l hl => ?_) (fun l hl => ?_) h
  · rwa [map_labelled] at hset
  · obtain ⟨i, hi⟩ := mem_labelled hl
    rw [hi]
    exact hfree i
  · obtain ⟨i, hi⟩ := mem_labelled hl
    rw [hi]
    exact howner i

/-- A node with what has been written to its own cells and linked from them, and with attributes behind those that it
has then. Whatever else there is stays as it was. -/
structure Defined (g g' : Graph) (u : Uid) (vs : List Uid) (as : List Attribute) (written : String → List Json)
    (linked : String → List Uid) : Prop where
  beyond : ∀ v ∈ vs, g.lastUid < v.value
  others : ∀ w, w ≠ u → w ∉ vs → Same g g' w
  values : ∀ p, g'.values u p = (written p).foldl (put (g.isList p)) (g.values u p)
  edges : ∀ p, p ≠ metaAttribute → g'.edges u p = (linked p).foldl (link (g.keepsEdges p)) (g.edges u p)
  attributes : (g'.edges u metaAttribute).items =
    ((linked metaAttribute).foldl (link (g.keepsEdges metaAttribute)) (g.edges u metaAttribute)).items ++ vs
  stored : List.Forall₂ (fun v a => StoredAttribute g' v (a.withId v.text)) vs as

/-- The drafts of a definition: with the quads of its owner, and then with its attributes. -/
structure DefinitionDraft (g : Graph) (own : List Quad) (owner : Subject) (as : List Attribute) (vars : Vars)
    (d d' : Draft) : Prop where
  known : vars.Known g
  overlay : d.Over g vars
  holds : Draft.Holds vars ⟨g, .empty, .empty⟩ own d
  since : Draft.Since (fun s => ∃ q ∈ own, q.subject = s ∨ q.object = .node s) ⟨g, .empty, .empty⟩ d
  attributes : (allAttributeQuads owner as).foldlM (setQuad vars) d = .ok d'

namespace DefinitionDraft

variable {own : List Quad} {owner : Subject}

theorem of_execute (hg : g.Intact)
    (h : execute g (.of none [⟨none, own ++ allAttributeQuads owner as, []⟩]) = .ok (receipt, g')) :
    ∃ vars d d', DefinitionDraft g own owner as vars d d' ∧ receipt.assigned = d'.blanks ∧ g' = d'.graph := by
  obtain ⟨vars, d, d', hv, ho, hh, hsince, hset, hassigned, hg'⟩ := execute_quads_append hg h
  exact ⟨vars, d, d', ⟨hv, ho, hh, hsince, hset⟩, hassigned, hg'⟩

theorem defined (h : DefinitionDraft g own owner as vars d d') (hd : Declared g) (hu : d.nodes vars owner = [u])
    (hc : d.graph.contains u = true) (hown : ∀ q ∈ own, q.subject = owner)
    (hobject : ∀ q ∈ own, ∀ label, q.object ≠ .node (.blank label)) (howner : ∀ i, owner ≠ .blank (attributeLabel i)) :
    ∃ vs, Defined g d'.graph u vs as (fun p => own.flatMap (d.written vars u p))
        (fun p => own.flatMap (d.linked vars u p)) ∧
      List.Forall₂ (fun l v => d'.blanks.get? l.1 = some v) (labelled as) vs := by
  have hfree : ∀ i, d.made? (.blank (attributeLabel i)) = none := by
    refine fun i => h.since.unmade rfl ?_
    rintro ⟨q, hq, hs | hs⟩
    · exact howner i ((hown q hq).symm.trans hs)
    · exact hobject q hq _ hs
  obtain ⟨vs, hadded, hlabels⟩ :=
    attributesAdded_of_definition h.known h.overlay hd hu hc howner hfree h.attributes
  have hothers : ∀ w, w ≠ u → Same g d.graph w := by
    refine fun w hw => same_of_holds h.holds fun q hq => ?_
    simpa [hown q hq, hu] using hw
  have huvs : u ∉ vs := fun hmem => Nat.not_lt.2 (h.overlay.intact.fresh u hc) (hadded.beyond u hmem)
  refine ⟨vs, ⟨fun v hv => ?_, fun w hw hwvs p => ?_, fun p => ?_, fun p hp => ?_, ?_, hadded.stored⟩, hlabels⟩
  · exact Nat.lt_of_le_of_lt h.since.lastUid (hadded.beyond v hv)
  · rw [hadded.values w hwvs, hadded.edges w p (.inl hw)]
    exact hothers w hw p
  · rw [hadded.values u huvs, h.holds.values]
  · rw [hadded.edges u p (.inr hp), h.holds.edges]
  · rw [hadded.items h.overlay.intact, h.holds.edges]

end DefinitionDraft

theorem items_link_empty (keeps : Bool) (t : Uid) : (link keeps .empty t).items = [t] := by
  cases keeps <;> rfl

theorem typeWritten_of_execute {source : Uid} (hg : g.Intact) (hd : Declared g)
    (h : execute g (.of none [⟨none, typeQuads (.blank typeNodeLabel) name source parent scopes ++
      allAttributeQuads (.blank typeNodeLabel) as, []⟩]) = .ok (receipt, g')) :
    ∃ u vs, TypeWritten g g' u vs name source parent scopes as ∧ receipt.assigned.get? typeNodeLabel = some u ∧
      assignIds receipt as = .ok (withIds as vs) := by
  obtain ⟨vars, d₁, d, hdraft, hassigned, rfl⟩ := DefinitionDraft.of_execute hg h
  have hname : .text (.blank typeNodeLabel) metaType name ∈
      typeQuads (.blank typeNodeLabel) name source parent scopes := by simp [typeQuads]
  obtain ⟨u, hmade, hn⟩ := hdraft.holds.exists_made hname rfl
  have hlt : g.lastUid < u.value := hdraft.since.lt_of_made rfl hmade
  have hnew : ¬g.contains u = true := fun hc => Nat.not_lt.2 (hg.fresh u hc) hlt
  have hmem : u ∈ d₁.nodes vars (.blank typeNodeLabel) := by simp [hn]
  obtain ⟨vs, hdefined, hlabels⟩ := hdraft.defined hd hn (hdraft.overlay.made_new _ u hmade).1
    (fun q hq => subject_typeQuads hq) (fun q hq _ => object_typeQuads hq)
    fun i he => attributeLabel_ne_typeNodeLabel i (Subject.blank.inj he).symm
  have hvalues := hdefined.values
  have hedges := hdefined.edges
  have hattributes := hdefined.attributes
  simp only [written_typeQuads hmem, values_of_not_contains g _ hnew] at hvalues
  simp only [linked_typeQuads hmem, edges_of_not_contains g _ hnew] at hedges hattributes
  refine ⟨u, vs, ⟨fun v hv' => ?_, fun w hw => ?_, ?_, ?_, ?_, ?_, ?_, hdefined.stored⟩, ?_, assignIds_ok ?_⟩
  · rcases List.mem_cons.1 hv' with rfl | hv'
    · exact hlt
    · exact hdefined.beyond v hv'
  · rw [List.mem_cons, not_or] at hw
    exact hdefined.others w hw.1 hw.2
  · rw [hvalues]
    simp +decide [put, (lists_of_declared hd).1]
  · rw [hedges _ (by decide)]
    simp +decide [items_link_empty]
  · rw [hedges _ (by decide)]
    cases parent with
    | none => simp +decide [OrderedSet.empty]
    | some x => simp +decide [items_link_empty]
  · rw [hvalues]
    simp +decide [(lists_of_declared hd).2.1]
  · rw [hattributes]
    simp +decide [OrderedSet.empty]
  · rw [hassigned]
    exact (setQuads_spec hdraft.known hdraft.overlay hdraft.attributes).2.made _ u hmade
  · rw [hassigned]
    exact hlabels

theorem typeExtended_of_execute (hg : g.Intact) (hd : Declared g) (hc : g.contains u = true)
    (h : execute g (.of none [⟨none, changeQuads (.node u) parent scopes ++ allAttributeQuads (.node u) as, []⟩]) =
      .ok (receipt, g')) :
    ∃ vs, TypeExtended g g' u vs parent scopes as ∧ assignIds receipt as = .ok (withIds as vs) := by
  obtain ⟨vars, d₁, d, hdraft, hassigned, rfl⟩ := DefinitionDraft.of_execute hg h
  have hmem : u ∈ d₁.nodes vars (.node u) := by simp
  obtain ⟨vs, hdefined, hlabels⟩ := hdraft.defined hd rfl (hdraft.since.contains u hc)
    (fun q hq => subject_changeQuads hq) (fun q hq _ => object_changeQuads hq) fun i he => by cases he
  have hvalues := hdefined.values
  have hedges := hdefined.edges
  have hattributes := hdefined.attributes
  simp only [written_changeQuads hmem] at hvalues
  simp only [linked_changeQuads hmem] at hedges hattributes
  refine ⟨vs, ⟨hdefined.beyond, hdefined.others, fun p hp => ?_, fun p hp hpa => ?_, ?_, ?_, ?_, hdefined.stored⟩,
    assignIds_ok (hassigned ▸ hlabels)⟩
  · rw [hvalues, if_neg hp.symm]
    rfl
  · rw [hedges p hpa, if_neg hp.symm]
    rfl
  · rw [hedges _ (by decide), if_pos rfl, keepsEdges_eq hd (b := false) (by decide +kernel)]
    cases parent with
    | none => rfl
    | some x => rfl
  · rw [hvalues, if_pos rfl, (lists_of_declared hd).2.1]
  · rw [hattributes, if_neg (by decide)]
    rfl

end Inventory.Repository
