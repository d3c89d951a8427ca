import Inventory.Proofs.Graph.Parts
import Inventory.Proofs.Repository.Stored

/-!
What the quads of attributes make of a graph: a node for each attribute, in the order in which they are given.
-/

namespace Inventory.Repository

open Inventory.Graph Store Outcome Vocabulary

variable {g g₁ g' : Graph} {vars : Vars} {d d' : Draft} {u v w : Uid} {vs : List Uid} {a : Attribute}
  {as : List Attribute} {owner : Subject} {label p : String}

/-- Attributes that have been added to a type, each at a new node beyond those before it. -/
structure AttributesAdded (g g' : Graph) (u : Uid) (vs : List Uid) (as : List Attribute) : Prop where
  beyond : ∀ v ∈ vs, g.lastUid < v.value
  increasing : vs.Pairwise (· < ·)
  values : ∀ w, w ∉ vs → ∀ p, g'.values w p = g.values w p
  edges : ∀ w p, w ≠ u ∨ p ≠ metaAttribute → g'.edges w p = g.edges w p
  owned : ∀ v, v ∈ g'.edges u metaAttribute ↔ v ∈ g.edges u metaAttribute ∨ v ∈ vs
  stored : List.Forall₂ (fun v a => StoredAttribute g' v (a.withId v.text)) vs as

theorem AttributesAdded.nil (g : Graph) (u : Uid) : AttributesAdded g g u [] [] :=
  ⟨by simp, .nil, fun _ _ _ => rfl, fun _ _ _ => rfl, by simp, .nil⟩

theorem AttributesAdded.cons (h : AttributesAdded g g₁ u [v] [a]) (hle : g.lastUid ≤ g₁.lastUid)
    (hv : v.value ≤ g₁.lastUid) (h' : AttributesAdded g₁ g' u vs as) :
    AttributesAdded g g' u (v :: vs) (a :: as) := by
  have hlt : ∀ w ∈ vs, v < w := fun w hw => Nat.lt_of_le_of_lt hv (h'.beyond w hw)
  have hnew : v ∉ vs := fun hmem => Nat.lt_irrefl _ (hlt v hmem)
  constructor
  · intro w hw
    rcases List.mem_cons.1 hw with rfl | hw
    · exact h.beyond w (by simp)
    · exact Nat.lt_of_le_of_lt hle (h'.beyond w hw)
  · exact List.pairwise_cons.2 ⟨hlt, h'.increasing⟩
  · intro w hw p
    rw [List.mem_cons, not_or] at hw
    rw [h'.values w hw.2, h.values w (by simpa using hw.1)]
  · intro w p hne
    rw [h'.edges w p hne, h.edges w p hne]
  · intro w
    rw [h'.owned, h.owned, List.mem_singleton, List.mem_cons, or_assoc]
  · cases h.stored with
    | cons ha _ => exact .cons (ha.of_values (h'.values v hnew)) h'.stored

/-- Nodes of new attributes stand behind those of the attributes that were there. -/
theorem AttributesAdded.items (h : AttributesAdded g g' u vs as) (hg : g.Intact) :
    (g'.edges u metaAttribute).items = (g.edges u metaAttribute).items ++ vs := by
  refine OrderedSet.items_eq_of_mem_iff (g'.edges u metaAttribute).increasing ?_ fun v => ?_
  · refine List.pairwise_append.2 ⟨(g.edges u metaAttribute).increasing, h.increasing, fun x hx y hy => ?_⟩
    exact Nat.lt_of_le_of_lt (hg.fresh x (hg.closed u metaAttribute x hx)) (h.beyond y hy)
  · rw [List.mem_append]
    exact h.owned v

/-- What the quads of an attribute write to its node. -/
def attributeStamp (a : Attribute) (p : String) : List Json :=
  (if nodeType = p then [.str attributeNodeType] else []) ++ (if attributeName = p then [.str a.name] else []) ++
    (if attributeType = p then [.num (.int a.dataType.code)] else []) ++
    (if attributeSchemaName = p then [.str (sanitize a.name)] else []) ++
    (if attributeSearchable = p then [.bool a.isSearchable] else []) ++
    (if attributeDisplayed = p then [.bool a.isDisplayed] else []) ++
    (if attributeIdentifier = p then [.bool a.isIdentifier] else []) ++
    (if attributeParentIdentifier = p then [.bool a.isParentIdentifier] else []) ++
    if attributeMappedTo = p then [.str a.mappedTo] else []

theorem subject_attributeQuads {q : Quad} (hq : q ∈ attributeQuads owner label a) :
    (q.subject = owner ∨ q.subject = .blank label) ∧ ∀ s, q.object = .node s → s = .blank label := by
  simp only [attributeQuads, List.mem_cons, List.not_mem_nil, or_false] at hq
  rcases hq with rfl | rfl | rfl | rfl | rfl | rfl | rfl | rfl | rfl | rfl <;>
    simp [Quad.edge, Quad.text, Quad.value, eq_comm]

theorem written_attributeQuads (a : Attribute) : (attributeQuads owner label a).flatMap (d.written vars w p) =
    if w ∈ d.nodes vars (.blank label) then attributeStamp a p else [] := by
  by_cases hw : w ∈ d.nodes vars (.blank label)
  · simp [attributeQuads, attributeStamp, Draft.written, Quad.edge, Quad.text, Quad.value, hw]
  · simp [attributeQuads, Draft.written, Quad.edge, Quad.text, Quad.value, hw]

theorem linked_attributeQuads (a : Attribute) : (attributeQuads owner label a).flatMap (d.linked vars w p) =
    if w ∈ d.nodes vars owner ∧ metaAttribute = p then d.nodes vars (.blank label) else [] := by
  simp [attributeQuads, Draft.linked, Quad.edge, Quad.text, Quad.value]

theorem storedAttribute_of_stamp (hd : Declared g)
    (hv : ∀ p, g'.values v p = (attributeStamp a p).foldl (put (g.isList p)) []) :
    StoredAttribute g' v (a.withId v.text) := by
  have single : ∀ p j, attributeStamp a p = [j] → (∃ q ∈ Schema.basePredicates, q.predicate = p ∧ q.list = false) →
      g'.values v p = [j] := by
    intro p j hp hq
    rw [hv, hp, isList_eq hd hq]
    rfl
  constructor
  · rfl
  · exact single _ _ rfl (by decide +kernel)
  · exact single _ _ rfl (by decide +kernel)
  · exact single _ _ rfl (by decide +kernel)
  · exact single _ _ rfl (by decide +kernel)
  · exact single _ _ rfl (by decide +kernel)
  · exact single _ _ rfl (by decide +kernel)
  · exact single _ _ rfl (by decide +kernel)
  · exact hv _
  · exact hv _

section Set

variable (hv : vars.Known g) (hd : d.Over g vars) (hdeclared : Declared g) (hu : d.nodes vars owner = [u])
  (hc : d.graph.contains u = true)

include hv hd hdeclared hu hc

theorem attributeAdded_of_set (hfree : d.made? (.blank label) = none)
    (h : (attributeQuads owner label a).foldlM (setQuad vars) d = .ok d') :
    ∃ v, d'.made? (.blank label) = some v ∧ AttributesAdded d.graph d'.graph u [v] [a] := by
  obtain ⟨ho, hh⟩ := setQuads_spec hv hd h
  have hsince := Draft.Since.setQuads hv hd h
  obtain ⟨v, hmade⟩ : ∃ v, d'.made? (.blank label) = some v := by
    have hne := hh.subject (.text (.blank label) nodeType attributeNodeType) (by simp [attributeQuads])
    refine Option.ne_none_iff_exists'.1 fun hnone => hne ?_
    simp [Draft.nodes, Quad.text, Quad.value, hnone]
  have hn : d'.nodes vars (.blank label) = [v] := by simp [Draft.nodes, hmade]
  have howner : d'.nodes vars owner = [u] := by
    rw [Draft.nodes_of_made hh.made (by simp [hu]), hu]
  have hlt := hsince.lt_of_made hfree hmade
  have hnew : ¬d.graph.contains v = true := fun hcv => Nat.not_lt.2 (hd.intact.fresh v hcv) hlt
  have hvalues : ∀ w p, d'.graph.values w p =
      (if w = v then attributeStamp a p else []).foldl (put (d.graph.isList p)) (d.graph.values w p) := by
    intro w p
    rw [hh.values, written_attributeQuads, hn]
    simp only [List.mem_singleton]
  have hedges : ∀ w p, d'.graph.edges w p =
      (if w = u ∧ metaAttribute = p then [v] else []).foldl (link (d.graph.keepsEdges p)) (d.graph.edges w p) := by
    intro w p
    rw [hh.edges, linked_attributeQuads, hn, howner]
    simp only [List.mem_singleton]
  have hdeclared' : Declared d.graph := hdeclared.of_predicates hd.predicates
  refine ⟨v, hmade, by simpa using hlt, List.pairwise_singleton _ _, fun w hw p => ?_, fun w p hne => ?_,
    fun x => ?_, .cons (storedAttribute_of_stamp hdeclared' fun p => ?_) .nil⟩
  · rw [hvalues, if_neg (by simpa using hw)]
    rfl
  · rw [hedges, if_neg (by rintro ⟨rfl, rfl⟩; simp at hne)]
    rfl
  · rw [hedges, if_pos ⟨rfl, rfl⟩, keepsEdges_eq hdeclared' (b := true) (by decide +kernel), List.foldl_cons,
      List.foldl_nil, mem_link]
    simp [or_comm]
  · rw [hvalues, if_pos rfl, values_of_not_contains _ _ hnew]

theorem attributesAdded_of_set {ls : List (String × Attribute)} (hls : (ls.map (·.1)).Nodup)
    (hfree : ∀ l ∈ ls, d.made? (.blank l.1) = none) (howner : ∀ l ∈ ls, owner ≠ .blank l.1)
    (h : (ls.flatMap fun l => attributeQuads owner l.1 l.2).foldlM (setQuad vars) d = .ok d') :
    ∃ vs, AttributesAdded d.graph d'.graph u vs (ls.map (·.2)) ∧
      List.Forall₂ (fun l v => d'.made? (.blank l.1) = some v) ls vs := by
  induction ls generalizing d with
  | nil =>
      cases h
      exact ⟨[], .nil _ _, .nil⟩
  | cons l ls ih =>
      rw [List.flatMap_cons, List.foldlM_append] at h
      obtain ⟨d₁, h₁, h⟩ := bind_ok_iff.1 h
      obtain ⟨ho₁, hh₁⟩ := setQuads_spec hv hd h₁
      have hsince := Draft.Since.setQuads hv hd h₁
      obtain ⟨v, hmade, hadded⟩ := attributeAdded_of_set hv hd hdeclared hu hc (hfree l List.mem_cons_self) h₁
      obtain ⟨hl, hls⟩ := List.nodup_cons.1 hls
      have hfree₁ : ∀ l' ∈ ls, d₁.made? (.blank l'.1) = none := by
        intro l' hl'
        refine hsince.unmade (hfree l' (List.mem_cons_of_mem l hl')) ?_
        rintro ⟨q, hq, hs⟩
        have hne : Subject.blank l'.1 ≠ .blank l.1 := fun he => hl (List.mem_map.2 ⟨l', hl', Subject.blank.inj he⟩)
        obtain ⟨hsubject, hobject⟩ := subject_attributeQuads hq
        rcases hs with hs | hs
        · rcases hsubject with ho | hb
          · exact howner l' (List.mem_cons_of_mem l hl') (ho.symm.trans hs)
          · exact hne (hs.symm.trans hb)
        · exact hne (hobject _ hs)
      have hu₁ : d₁.nodes vars owner = [u] := by rw [Draft.nodes_of_made hh₁.made (by simp [hu]), hu]
      have hc₁ : d₁.graph.contains u = true := hsince.contains u hc
      obtain ⟨vs, hrest, hlabels⟩ := ih ho₁ hu₁ hc₁ hls hfree₁
        (fun l' hl' => howner l' (List.mem_cons_of_mem l hl')) h
      have hle : v.value ≤ d₁.graph.lastUid := ho₁.intact.fresh v (ho₁.made_new _ v hmade).1
      refine ⟨v :: vs, hadded.cons hsince.lastUid hle hrest, .cons ?_ hlabels⟩
      exact (setQuads_spec hv ho₁ h).2.made _ v hmade

end Set

end Inventory.Repository
