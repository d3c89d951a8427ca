import Inventory.Proofs.Graph.Clearing
import Inventory.Proofs.Graph.Drafts
import Inventory.Repository.Types

/-!
The predicates by which types, sources and instances are told from one another, and what sets of quads write
under them.
-/

namespace Inventory.Repository

open Inventory.Graph Store

variable {g g' : Graph} {vars : Vars} {d : Draft} {w : Uid} {p : String} {owner : Subject}

/-- The predicates that say what a node is, where it belongs and what it hangs on. -/
def tracked : List String :=
  [Vocabulary.metaType, Vocabulary.metaParent, Vocabulary.metaSource, Vocabulary.scopes, Vocabulary.typeName,
    Vocabulary.identifier, Vocabulary.equipmentType]

theorem ne_of_tracked {q : String} (hp : p ∈ tracked) (hq : q ∉ tracked) : q ≠ p := by
  rintro rfl
  exact hq hp

/-- A node that holds under the tracked predicates what it held before. -/
def Kept (g g' : Graph) (w : Uid) : Prop :=
  ∀ p ∈ tracked, g'.values w p = g.values w p ∧ g'.edges w p = g.edges w p

/-- The predicates that every inventory shares are declared as they were at first. -/
def Declared (g : Graph) : Prop := ∀ p ∈ Schema.basePredicates, g.predicates.get? p.predicate = some p

theorem Declared.of_predicates (h : Declared g) (hp : g'.predicates = g.predicates) : Declared g' := by
  rwa [Declared, hp]

theorem isList_of_declared (h : Declared g) {q : Schema.PredicateStatement} (hq : q ∈ Schema.basePredicates) :
    g.isList q.predicate = q.list := by
  rw [isList, h q hq]
  rfl

theorem keepsEdges_of_declared (h : Declared g) {q : Schema.PredicateStatement} (hq : q ∈ Schema.basePredicates) :
    g.keepsEdges q.predicate = q.list := by
  rw [keepsEdges, h q hq]
  rfl

open Schema PredicateStatement Vocabulary in
theorem lists_of_declared (h : Declared g) : g.isList metaType = false ∧ g.isList scopes = true ∧
    g.isList typeName = false ∧ g.isList identifier = false ∧ g.isList equipmentType = false ∧
      g.keepsEdges metaParent = false ∧ g.keepsEdges metaSource = false :=
  ⟨isList_of_declared h (q := (new metaType .string).indexed [.exact]) (by decide),
    isList_of_declared h (q := (new scopes .string).asList.indexed [.exact]) (by decide),
    isList_of_declared h (q := (new typeName .string).indexed [.exact]) (by decide),
    isList_of_declared h (q := (new identifier .string).indexed [.exact, .trigram]) (by decide),
    isList_of_declared h (q := (new equipmentType .string).indexed [.exact]) (by decide),
    keepsEdges_of_declared h (q := (new metaParent .uid).reversed) (by decide),
    keepsEdges_of_declared h (q := (new metaSource .uid).reversed) (by decide)⟩

section Quads

theorem written_of_ne {q : Quad} (h : q.predicate ≠ p) : d.written vars w p q = [] := by
  unfold Draft.written
  cases q.object <;> simp [h]

theorem linked_of_ne {q : Quad} (h : q.predicate ≠ p) : d.linked vars w p q = [] := by
  unfold Draft.linked
  cases q.object <;> simp [h]

theorem flatMap_written_of_ne {qs : List Quad} (h : ∀ q ∈ qs, q.predicate ≠ p) : qs.flatMap (d.written vars w p) = [] :=
  List.flatMap_eq_nil_iff.2 fun q hq => written_of_ne (h q hq)

theorem flatMap_linked_of_ne {qs : List Quad} (h : ∀ q ∈ qs, q.predicate ≠ p) : qs.flatMap (d.linked vars w p) = [] :=
  List.flatMap_eq_nil_iff.2 fun q hq => linked_of_ne (h q hq)

theorem flatMap_written_of_apart {qs : List Quad} (h : ∀ q ∈ qs, w ∉ d.nodes vars q.subject) :
    qs.flatMap (d.written vars w p) = [] := by
  refine List.flatMap_eq_nil_iff.2 fun q hq => ?_
  unfold Draft.written
  cases q.object <;> simp [h q hq]

theorem flatMap_linked_of_apart {qs : List Quad} (h : ∀ q ∈ qs, w ∉ d.nodes vars q.subject) :
    qs.flatMap (d.linked vars w p) = [] := by
  refine List.flatMap_eq_nil_iff.2 fun q hq => ?_
  unfold Draft.linked
  cases q.object <;> simp [h q hq]

theorem flatMap_written_of_not_mem {qs : List Quad} (h : ∀ q ∈ qs, q.subject = owner) (hw : w ∉ d.nodes vars owner) :
    qs.flatMap (d.written vars w p) = [] := flatMap_written_of_apart fun q hq => by rwa [h q hq]

theorem flatMap_linked_of_not_mem {qs : List Quad} (h : ∀ q ∈ qs, q.subject = owner) (hw : w ∉ d.nodes vars owner) :
    qs.flatMap (d.linked vars w p) = [] := flatMap_linked_of_apart fun q hq => by rwa [h q hq]

theorem written_text (hw : w ∈ d.nodes vars owner) (r v : String) :
    d.written vars w p (.text owner r v) = if r = p then [.str v] else [] := by
  simp [Draft.written, Quad.text, Quad.value, hw]

theorem linked_text (r v : String) : d.linked vars w p (.text owner r v) = [] := rfl

theorem written_edge (r : String) (t : Subject) : d.written vars w p (.edge owner r t) = [] := rfl

theorem linked_edge (hw : w ∈ d.nodes vars owner) (r : String) (u : Uid) :
    d.linked vars w p (.edge owner r (.node u)) = if r = p then [u] else [] := by
  simp [Draft.linked, Quad.edge, hw]

theorem written_scopeQuads (hw : w ∈ d.nodes vars owner) (scopes : List String) :
    (scopeQuads owner scopes).flatMap (d.written vars w p) =
      if Vocabulary.scopes = p then scopes.map Json.str else [] := by
  unfold scopeQuads
  induction scopes with
  | nil => simp
  | cons s ss ih =>
      rw [List.map_cons, List.flatMap_cons, ih, written_text hw]
      split <;> simp

theorem linked_scopeQuads (scopes : List String) : (scopeQuads owner scopes).flatMap (d.linked vars w p) = [] := by
  unfold scopeQuads
  rw [List.flatMap_eq_nil_iff]
  intro q hq
  obtain ⟨s, -, rfl⟩ := List.mem_map.1 hq
  rfl

theorem predicate_attributeQuads {a : Attribute} {label : String} {q : Quad} (hq : q ∈ attributeQuads owner label a) :
    q.predicate ∉ Vocabulary.parent :: Vocabulary.recycle :: tracked := by
  simp only [attributeQuads, List.mem_cons, List.not_mem_nil, or_false] at hq
  rcases hq with rfl | rfl | rfl | rfl | rfl | rfl | rfl | rfl | rfl | rfl <;>
    simp only [Quad.edge, Quad.text, Quad.value] <;> decide

theorem predicate_allAttributeQuads {as : List Attribute} {q : Quad} (hq : q ∈ allAttributeQuads owner as) :
    q.predicate ∉ Vocabulary.parent :: Vocabulary.recycle :: tracked := by
  obtain ⟨⟨label, a⟩, -, hq⟩ := List.mem_flatMap.1 hq
  exact predicate_attributeQuads hq

theorem mem_foldl_put {vs : List Json} {s : String} (ss : List String) :
    .str s ∈ (ss.map Json.str).foldl (put true) vs ↔ s ∈ ss ∨ .str s ∈ vs := by
  induction ss generalizing vs with
  | nil => simp
  | cons t ss ih =>
      rw [List.map_cons, List.foldl_cons, ih, mem_put_str, List.mem_cons]
      tauto

theorem foldl_put_texts (ss vs : List String) : ∃ ws : List String,
    (ss.map Json.str).foldl (put true) (vs.map Json.str) = ws.map Json.str ∧ ∀ s, s ∈ ws ↔ s ∈ ss ∨ s ∈ vs := by
  have hput : ∀ ss vs : List String, ∃ ws : List String, (ss.map Json.str).foldl (put true) (vs.map Json.str) =
      ws.map Json.str := by
    intro ss
    induction ss with
    | nil => exact fun vs => ⟨vs, rfl⟩
    | cons s ss ih =>
        intro vs
        rw [List.map_cons, List.foldl_cons, put, if_pos rfl]
        split
        · exact ih vs
        · have hsnoc : vs.map Json.str ++ [.str s] = (vs ++ [s]).map Json.str := by simp
          rw [hsnoc]
          exact ih (vs ++ [s])
  obtain ⟨ws, hws⟩ := hput ss vs
  refine ⟨ws, hws, fun s => ?_⟩
  have hmem : .str s ∈ (ss.map Json.str).foldl (put true) (vs.map Json.str) ↔ s ∈ ss ∨ .str s ∈ vs.map Json.str :=
    mem_foldl_put ss
  rw [hws] at hmem
  simpa using hmem

end Quads

end Inventory.Repository
