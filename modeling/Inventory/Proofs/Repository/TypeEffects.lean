import Inventory.Proofs.Repository.Cells

/-!
What the requests that write types make of a graph.
-/

namespace Inventory.Repository

open Inventory.Graph Store

variable {g g' : Graph} {vars : Vars} {d : Draft} {u w : Uid} {p : String} {owner : Subject}

/-- A new type, with a source, perhaps a parent, and scopes. -/
structure TypeMade (g g' : Graph) (u : Uid) (name : String) (source : Uid) (parent : Option Uid)
    (scopes : List String) : Prop where
  new : ¬g.contains u = true
  others : ∀ w, w ≠ u → Kept g g' w
  name : g'.values u Vocabulary.metaType = [.str name]
  unmarked : g'.values u Vocabulary.typeName = [] ∧ g'.edges u Vocabulary.metaType = .empty
  scopes : ∀ s, .str s ∈ g'.values u Vocabulary.scopes ↔ s ∈ scopes
  source : ∀ v, v ∈ g'.edges u Vocabulary.metaSource ↔ v = source
  parent : ∀ v, v ∈ g'.edges u Vocabulary.metaParent ↔ parent = some v
  links : ∀ w, g'.edges w Vocabulary.parent = g.edges w Vocabulary.parent
  recycled : ∀ w, g'.values w Vocabulary.recycle = g.values w Vocabulary.recycle

/-- A type with more scopes, and perhaps another parent. -/
structure TypeChanged (g g' : Graph) (u : Uid) (parent : Option Uid) (scopes : List String) : Prop where
  others : ∀ w, w ≠ u → Kept g g' w
  values : ∀ p ∈ tracked, p ≠ Vocabulary.scopes → g'.values u p = g.values u p
  edges : ∀ p ∈ tracked, p ≠ Vocabulary.metaParent → g'.edges u p = g.edges u p
  scopes : ∀ s, .str s ∈ g'.values u Vocabulary.scopes ↔ s ∈ scopes ∨ .str s ∈ g.values u Vocabulary.scopes
  parent : ∀ v, v ∈ g'.edges u Vocabulary.metaParent ↔
    parent = some v ∨ (parent = none ∧ v ∈ g.edges u Vocabulary.metaParent)
  links : ∀ w, g'.edges w Vocabulary.parent = g.edges w Vocabulary.parent
  recycled : ∀ w, g'.values w Vocabulary.recycle = g.values w Vocabulary.recycle

/-- The quads of a new type apart from its attributes. -/
def typeQuads (owner : Subject) (name : String) (source : Uid) (parent : Option Uid) (scopes : List String) :
    List Quad :=
  [.text owner Vocabulary.metaType name, .text owner Vocabulary.nodeType Vocabulary.metadataEquipmentNodeType,
      .edge owner Vocabulary.metaSource (.node source)] ++
    (parent.toList.map fun u => .edge owner Vocabulary.metaParent (.node u)) ++ scopeQuads owner scopes

theorem subject_typeQuads {name : String} {source : Uid} {parent : Option Uid} {scopes : List String} {q : Quad}
    (hq : q ∈ typeQuads owner name source parent scopes) : q.subject = owner := by
  simp only [typeQuads, scopeQuads, List.mem_append, List.mem_cons, List.mem_map, List.not_mem_nil, or_false] at hq
  rcases hq with ((rfl | rfl | rfl) | ⟨v, -, rfl⟩) | ⟨s, -, rfl⟩ <;> rfl

theorem object_typeQuads {name label : String} {source : Uid} {parent : Option Uid} {scopes : List String} {q : Quad}
    (hq : q ∈ typeQuads owner name source parent scopes) : q.object ≠ .node (.blank label) := by
  simp only [typeQuads, scopeQuads, List.mem_append, List.mem_cons, List.mem_map, List.not_mem_nil, or_false] at hq
  rcases hq with ((rfl | rfl | rfl) | ⟨v, -, rfl⟩) | ⟨s, -, rfl⟩ <;> exact fun h => by cases h

theorem predicate_typeQuads {name : String} {source : Uid} {parent : Option Uid} {scopes : List String} {q : Quad}
    (hq : q ∈ typeQuads owner name source parent scopes) : q.predicate ∉ [Vocabulary.parent, Vocabulary.recycle] := by
  simp only [typeQuads, scopeQuads, List.mem_append, List.mem_cons, List.mem_map, List.not_mem_nil, or_false] at hq
  rcases hq with ((rfl | rfl | rfl) | ⟨v, -, rfl⟩) | ⟨s, -, rfl⟩ <;>
    simp only [Quad.edge, Quad.text, Quad.value] <;> decide

theorem written_parentQuads (parent : Option Uid) :
    (parent.toList.map fun u => Quad.edge owner Vocabulary.metaParent (.node u)).flatMap (d.written vars w p) = [] := by
  cases parent <;> rfl

theorem linked_parentQuads (hw : w ∈ d.nodes vars owner) (parent : Option Uid) :
    (parent.toList.map fun u => Quad.edge owner Vocabulary.metaParent (.node u)).flatMap (d.linked vars w p) =
      if Vocabulary.metaParent = p then parent.toList else [] := by
  cases parent with
  | none => simp
  | some v =>
      simp [linked_edge hw]

theorem written_typeQuads (hw : w ∈ d.nodes vars owner) (name : String) (source : Uid) (parent : Option Uid)
    (scopes : List String) : (typeQuads owner name source parent scopes).flatMap (d.written vars w p) =
      (if Vocabulary.metaType = p then [.str name] else []) ++
        (if Vocabulary.nodeType = p then [.str Vocabulary.metadataEquipmentNodeType] else []) ++
          if Vocabulary.scopes = p then scopes.map Json.str else [] := by
  rw [typeQuads, List.flatMap_append, List.flatMap_append, written_parentQuads, written_scopeQuads hw]
  simp [written_text hw, written_edge]

theorem linked_typeQuads (hw : w ∈ d.nodes vars owner) (name : String) (source : Uid) (parent : Option Uid)
    (scopes : List String) : (typeQuads owner name source parent scopes).flatMap (d.linked vars w p) =
      (if Vocabulary.metaSource = p then [source] else []) ++
        if Vocabulary.metaParent = p then parent.toList else [] := by
  rw [typeQuads, List.flatMap_append, List.flatMap_append, linked_parentQuads hw, linked_scopeQuads]
  simp [linked_text, linked_edge hw]

theorem tracked_of_definition {own : List Quad} {as : List Attribute} {e : Draft}
    (h : e.Holds vars (own ++ allAttributeQuads owner as) d) (hp : p ∈ tracked) (w : Uid) :
    d.graph.values w p = (own.flatMap (d.written vars w p)).foldl (put (e.graph.isList p)) (e.graph.values w p) ∧
      d.graph.edges w p =
        (own.flatMap (d.linked vars w p)).foldl (link (e.graph.keepsEdges p)) (e.graph.edges w p) := by
  have hne : ∀ q ∈ allAttributeQuads owner as, q.predicate ≠ p := by
    rintro q hq rfl
    exact predicate_allAttributeQuads hq (List.mem_cons_of_mem _ (List.mem_cons_of_mem _ hp))
  constructor
  · rw [h.values, List.flatMap_append, flatMap_written_of_ne hne, List.append_nil]
  · rw [h.edges, List.flatMap_append, flatMap_linked_of_ne hne, List.append_nil]

theorem kept_of_definition {own : List Quad} {as : List Attribute} {e : Draft}
    (h : e.Holds vars (own ++ allAttributeQuads owner as) d) (hown : ∀ q ∈ own, q.subject = owner)
    (hw : w ∉ d.nodes vars owner) : Kept e.graph d.graph w := by
  intro p hp
  obtain ⟨hv, he⟩ := tracked_of_definition h hp w
  rw [hv, he, flatMap_written_of_not_mem hown hw, flatMap_linked_of_not_mem hown hw]
  exact ⟨rfl, rfl⟩

theorem untouched_of_definition {own : List Quad} {as : List Attribute} {e : Draft}
    (h : e.Holds vars (own ++ allAttributeQuads owner as) d)
    (hown : ∀ q ∈ own, q.predicate ∉ [Vocabulary.parent, Vocabulary.recycle]) :
    (∀ w, d.graph.edges w Vocabulary.parent = e.graph.edges w Vocabulary.parent) ∧
      ∀ w, d.graph.values w Vocabulary.recycle = e.graph.values w Vocabulary.recycle := by
  have hne : ∀ q ∈ own ++ allAttributeQuads owner as, ∀ p ∈ [Vocabulary.parent, Vocabulary.recycle],
      q.predicate ≠ p := by
    rintro q hq p hp rfl
    rcases List.mem_append.1 hq with hq | hq
    · exact hown q hq hp
    · exact predicate_allAttributeQuads hq (List.mem_append_left tracked hp)
  refine ⟨fun w => ?_, fun w => ?_⟩
  · rw [h.edges, flatMap_linked_of_ne fun q hq => hne q hq _ (by simp)]
    rfl
  · rw [h.values, flatMap_written_of_ne fun q hq => hne q hq _ (by simp)]
    rfl

theorem typeMade_of_execute {name : String} {source : Uid} {parent : Option Uid} {scopes : List String}
    {as : List Attribute} {receipt : Receipt} (hg : g.Intact) (hd : Declared g)
    (h : execute g (.of none [⟨none, typeQuads (.blank typeNodeLabel) name source parent scopes ++
      allAttributeQuads (.blank typeNodeLabel) as, []⟩]) = .ok (receipt, g')) :
    g'.Intact ∧ g'.predicates = g.predicates ∧ ∃ u, TypeMade g g' u name source parent scopes := by
  obtain ⟨vars, d, ho, hh, rfl⟩ := execute_quads hg h
  obtain ⟨hpt, hps, hpn, -, -, hpp, hpr⟩ := lists_of_declared hd
  refine ⟨ho.intact, ho.predicates, ?_⟩
  have hmem : .text (.blank typeNodeLabel) Vocabulary.metaType name ∈
      typeQuads (.blank typeNodeLabel) name source parent scopes ++ allAttributeQuads (.blank typeNodeLabel) as := by
    simp [typeQuads]
  obtain ⟨u, hu, hn⟩ := hh.exists_made hmem rfl
  have hw : u ∈ d.nodes vars (.blank typeNodeLabel) := by simp [hn]
  obtain ⟨-, hnew⟩ := ho.made_new _ u hu
  have hcell : ∀ p ∈ tracked,
      d.graph.values u p = ((if Vocabulary.metaType = p then [Json.str name] else []) ++
        (if Vocabulary.nodeType = p then [Json.str Vocabulary.metadataEquipmentNodeType] else []) ++
          if Vocabulary.scopes = p then scopes.map Json.str else []).foldl (put (g.isList p)) [] ∧
      d.graph.edges u p = ((if Vocabulary.metaSource = p then [source] else []) ++
        if Vocabulary.metaParent = p then parent.toList else []).foldl (link (g.keepsEdges p)) .empty := by
    intro p hp
    obtain ⟨hv, he⟩ := tracked_of_definition hh hp u
    rw [hv, he, written_typeQuads hw, linked_typeQuads hw, values_of_not_contains g p hnew,
      edges_of_not_contains g p hnew]
    exact ⟨rfl, rfl⟩
  obtain ⟨hlinks, hrecycled⟩ := untouched_of_definition hh fun q hq => predicate_typeQuads hq
  refine ⟨u, hnew, fun w hw' => ?_, ?_, ⟨?_, ?_⟩, fun s => ?_, fun v => ?_, fun v => ?_, hlinks, hrecycled⟩
  · exact kept_of_definition hh (fun q hq => subject_typeQuads hq) (by simpa [hn] using hw')
  · rw [(hcell Vocabulary.metaType (by decide)).1]
    simp +decide [put, hpt]
  · rw [(hcell Vocabulary.typeName (by decide)).1]
    simp +decide
  · rw [(hcell Vocabulary.metaType (by decide)).2]
    simp +decide
  · rw [(hcell Vocabulary.scopes (by decide)).1]
    simp +decide [hps, mem_foldl_put]
  · rw [(hcell Vocabulary.metaSource (by decide)).2]
    simp +decide [mem_link]
  · rw [(hcell Vocabulary.metaParent (by decide)).2]
    cases parent <;> simp +decide [hpp, mem_link, eq_comm]

/-- The quads of an update apart from its attributes. -/
def changeQuads (owner : Subject) (parent : Option Uid) (scopes : List String) : List Quad :=
  (parent.toList.map fun u => .edge owner Vocabulary.metaParent (.node u)) ++ scopeQuads owner scopes

theorem subject_changeQuads {parent : Option Uid} {scopes : List String} {q : Quad}
    (hq : q ∈ changeQuads owner parent scopes) : q.subject = owner := by
  simp only [changeQuads, scopeQuads, List.mem_append, List.mem_map] at hq
  rcases hq with ⟨v, -, rfl⟩ | ⟨s, -, rfl⟩ <;> rfl

theorem object_changeQuads {label : String} {parent : Option Uid} {scopes : List String} {q : Quad}
    (hq : q ∈ changeQuads owner parent scopes) : q.object ≠ .node (.blank label) := by
  simp only [changeQuads, scopeQuads, List.mem_append, List.mem_map] at hq
  rcases hq with ⟨v, -, rfl⟩ | ⟨s, -, rfl⟩ <;> exact fun h => by cases h

theorem predicate_changeQuads {parent : Option Uid} {scopes : List String} {q : Quad}
    (hq : q ∈ changeQuads owner parent scopes) : q.predicate ∉ [Vocabulary.parent, Vocabulary.recycle] := by
  simp only [changeQuads, scopeQuads, List.mem_append, List.mem_map] at hq
  rcases hq with ⟨v, -, rfl⟩ | ⟨s, -, rfl⟩ <;> simp only [Quad.edge, Quad.text, Quad.value] <;> decide

theorem written_changeQuads (hw : w ∈ d.nodes vars owner) (parent : Option Uid) (scopes : List String) :
    (changeQuads owner parent scopes).flatMap (d.written vars w p) =
      if Vocabulary.scopes = p then scopes.map Json.str else [] := by
  rw [changeQuads, List.flatMap_append, written_parentQuads, written_scopeQuads hw, List.nil_append]

theorem linked_changeQuads (hw : w ∈ d.nodes vars owner) (parent : Option Uid) (scopes : List String) :
    (changeQuads owner parent scopes).flatMap (d.linked vars w p) =
      if Vocabulary.metaParent = p then parent.toList else [] := by
  rw [changeQuads, List.flatMap_append, linked_parentQuads hw, linked_scopeQuads, List.append_nil]

theorem typeChanged_of_execute {parent : Option Uid} {scopes : List String} {as : List Attribute} {receipt : Receipt}
    (hg : g.Intact) (hd : Declared g)
    (h : execute g (.of none [⟨none, changeQuads (.node u) parent scopes ++ allAttributeQuads (.node u) as, []⟩]) =
      .ok (receipt, g')) :
    g'.Intact ∧ g'.predicates = g.predicates ∧ TypeChanged g g' u parent scopes := by
  obtain ⟨vars, d, ho, hh, rfl⟩ := execute_quads hg h
  obtain ⟨-, hps, -, -, -, hpp, -⟩ := lists_of_declared hd
  refine ⟨ho.intact, ho.predicates, ?_⟩
  have hw : u ∈ d.nodes vars (.node u) := by simp
  have hcell : ∀ p ∈ tracked,
      d.graph.values u p =
        (if Vocabulary.scopes = p then scopes.map Json.str else []).foldl (put (g.isList p)) (g.values u p) ∧
      d.graph.edges u p =
        (if Vocabulary.metaParent = p then parent.toList else []).foldl (link (g.keepsEdges p)) (g.edges u p) := by
    intro p hp
    obtain ⟨hv, he⟩ := tracked_of_definition hh hp u
    rw [hv, he, written_changeQuads hw, linked_changeQuads hw]
    exact ⟨rfl, rfl⟩
  obtain ⟨hlinks, hrecycled⟩ := untouched_of_definition hh fun q hq => predicate_changeQuads hq
  refine ⟨fun w hw' => ?_, fun p hp hne => ?_, fun p hp hne => ?_, fun s => ?_, fun v => ?_, hlinks, hrecycled⟩
  · exact kept_of_definition hh (fun q hq => subject_changeQuads hq) (by simpa using hw')
  · rw [(hcell p hp).1, if_neg (Ne.symm hne)]
    rfl
  · rw [(hcell p hp).2, if_neg (Ne.symm hne)]
    rfl
  · rw [(hcell Vocabulary.scopes (by decide)).1, if_pos rfl, hps, mem_foldl_put]
  · rw [(hcell Vocabulary.metaParent (by decide)).2, if_pos rfl, hpp]
    cases parent with
    | none => simp
    | some x => simp [mem_link, eq_comm]

end Inventory.Repository
