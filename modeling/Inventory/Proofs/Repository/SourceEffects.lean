import Inventory.Proofs.Repository.Cells
import Inventory.Proofs.Repository.Reads

/-!
What the requests that write sources make of a graph.
-/

namespace Inventory.Repository

open Inventory.Graph Store Query Listing

variable {g g' : Graph} {vars : Vars} {d : Draft} {answer : Answer} {u w : Uid} {us : List Uid} {p scope : String}

/-- Sources of a scope, whether new or known, that have been written. -/
structure SourceWritten (g g' : Graph) (us : List Uid) (scope : String) : Prop where
  others : ∀ w, w ∉ us → Kept g g' w
  known : ∀ u ∈ us, g.contains u = true → isSourceIn g [scope] u = true
  marked : ∀ u ∈ us, g'.values u Vocabulary.typeName = [.str Vocabulary.metadataMarker]
  scopes : ∀ u ∈ us, g'.values u Vocabulary.scopes = put true (g.values u Vocabulary.scopes) (.str scope)
  values : ∀ u ∈ us, ∀ p ∈ tracked, p ≠ Vocabulary.typeName → p ≠ Vocabulary.scopes → g'.values u p = g.values u p
  edges : ∀ u ∈ us, ∀ p ∈ tracked, g'.edges u p = g.edges u p
  links : ∀ w, g'.edges w Vocabulary.parent = g.edges w Vocabulary.parent
  recycled : ∀ w, g'.values w Vocabulary.recycle = g.values w Vocabulary.recycle

def ownSource (s : MetadataSource) : Block :=
  ((Block.var (.eq Vocabulary.metadataSource (.str s.sourceName))).bindAs sourceVar).filtered (sourceFilter [s.scope])

theorem bound_of_lookup {b : Block} {name q : String} {start : List Uid} {test : Uid → Bool}
    (hb : Plain g .empty b start test) (hn : b.name = none) (hv : b.bind = some name) (hf : b.first = none)
    (ho : b.offset = none) (h : Answers g (some ⟨q, [], [b]⟩) .empty answer vars) :
    ∀ other u, u ∈ vars.bound other ↔ other = name ∧ u ∈ start ∧ test u = true := by
  obtain ⟨us, hus, h⟩ := evalBlocks_var hb hn hv hf ho h
  cases h
  intro other u
  rw [mem_bound_extend_empty, hus]

theorem plain_ownSource (s : MetadataSource) : Plain g vars (ownSource s)
    (g.uids.filter fun u => Comparison.valuesMatch (g.values u Vocabulary.metadataSource) (.str s.sourceName))
    (isSourceIn g [s.scope]) :=
  ⟨rfl, passes_source [s.scope], rfl, rfl⟩

theorem written_sourceMutation (s : MetadataSource) (hp : p ∈ tracked) (hw : w ∈ d.nodes vars (.var sourceVar)) :
    (sourceMutation s).set.flatMap (d.written vars w p) =
      (if Vocabulary.typeName = p then [.str Vocabulary.metadataMarker] else []) ++
        if Vocabulary.scopes = p then [.str s.scope] else [] := by
  have hcol : (s.columns.items.map fun c => Quad.text (.var sourceVar) Vocabulary.metadataAttributes c).flatMap
      (d.written vars w p) = [] := by
    refine flatMap_written_of_ne fun q hq => ?_
    obtain ⟨c, -, rfl⟩ := List.mem_map.1 hq
    exact ne_of_tracked hp (by simp only [Quad.text, Quad.value]; decide)
  have h1 := ne_of_tracked hp (q := Vocabulary.nodeType) (by decide)
  have h2 := ne_of_tracked hp (q := Vocabulary.metadataSource) (by decide)
  have h3 := ne_of_tracked hp (q := Vocabulary.metadataType) (by decide)
  rw [sourceMutation, List.flatMap_append, hcol]
  simp [written_text hw, h1, h2, h3]

theorem linked_sourceMutation (s : MetadataSource) : (sourceMutation s).set.flatMap (d.linked vars w p) = [] := by
  have hcol : (s.columns.items.map fun c => Quad.text (.var sourceVar) Vocabulary.metadataAttributes c).flatMap
      (d.linked vars w p) = [] := by
    refine List.flatMap_eq_nil_iff.2 fun q hq => ?_
    obtain ⟨c, -, rfl⟩ := List.mem_map.1 hq
    rfl
  rw [sourceMutation, List.flatMap_append, hcol]
  rfl

theorem subject_sourceMutation {s : MetadataSource} {q : Quad} (hq : q ∈ (sourceMutation s).set) :
    q.subject = .var sourceVar := by
  simp only [sourceMutation, List.mem_append, List.mem_cons, List.mem_map, List.not_mem_nil, or_false] at hq
  rcases hq with (rfl | rfl | rfl | rfl | rfl) | ⟨c, -, rfl⟩ <;> rfl

theorem draft_of_source {s : MetadataSource} {receipt : Receipt} (hg : g.Intact)
    (h : execute g (.of (some ⟨"UpsertMetadata", [], [ownSource s]⟩) [sourceMutation s]) = .ok (receipt, g')) :
    ∃ vars d, d.Over g vars ∧ Draft.Holds vars ⟨g, .empty, .empty⟩ (sourceMutation s).set d ∧
      (∀ name u, u ∈ vars.bound name ↔ name = sourceVar ∧
        u ∈ g.uids.filter (fun u => Comparison.valuesMatch (g.values u Vocabulary.metadataSource) (.str s.sourceName)) ∧
          isSourceIn g [s.scope] u = true) ∧ g' = d.graph := by
  have hbound := fun vars (ha : Answers g (some ⟨"UpsertMetadata", [], [ownSource s]⟩) .empty receipt.answer vars) =>
    bound_of_lookup (plain_ownSource s) rfl rfl rfl rfl ha
  obtain ⟨vars, d, ha, ho, hh, -, hg'⟩ := execute_set hg (by simp [sourceMutation]) h fun vars ha name u hu => by
    obtain ⟨-, hu, -⟩ := (hbound vars ha name u).1 hu
    exact mem_uids.1 (List.mem_filter.1 hu).1
  have hq : quadsSet vars [sourceMutation s] = (sourceMutation s).set := by
    simp [quadsSet, sourceMutation]
  rw [hq] at hh
  exact ⟨vars, d, ho, hh, hbound vars ha, hg'⟩

theorem sourceWritten_of_execute {s : MetadataSource} {receipt : Receipt} (hg : g.Intact) (hd : Declared g)
    (h : execute g (.of (some ⟨"UpsertMetadata", [], [ownSource s]⟩) [sourceMutation s]) = .ok (receipt, g')) :
    g'.Intact ∧ g'.predicates = g.predicates ∧ ∃ us, SourceWritten g g' us s.scope := by
  obtain ⟨vars, d, ho, hh, hbound, rfl⟩ := draft_of_source hg h
  obtain ⟨-, hps, hpn, -⟩ := lists_of_declared hd
  refine ⟨ho.intact, ho.predicates, d.nodes vars (.var sourceVar), ?_⟩
  have hcell : ∀ u ∈ d.nodes vars (.var sourceVar), ∀ p ∈ tracked,
      d.graph.values u p = ((if Vocabulary.typeName = p then [Json.str Vocabulary.metadataMarker] else []) ++
        if Vocabulary.scopes = p then [Json.str s.scope] else []).foldl (put (g.isList p)) (g.values u p) ∧
      d.graph.edges u p = g.edges u p := by
    intro u hu p hp
    rw [hh.values, hh.edges, written_sourceMutation s hp hu, linked_sourceMutation]
    exact ⟨rfl, rfl⟩
  refine ⟨fun w hw p hp => ?_, fun u hu hc => ?_, fun u hu => ?_, fun u hu => ?_, fun u hu p hp hn hs => ?_,
    fun u hu p hp => (hcell u hu p hp).2, fun w => ?_, fun w => ?_⟩
  · rw [hh.values, hh.edges, flatMap_written_of_not_mem (fun q hq => subject_sourceMutation hq) hw,
      linked_sourceMutation]
    exact ⟨rfl, rfl⟩
  · exact ((hbound _ u).1 (ho.mem_bound hc hu)).2.2
  · rw [(hcell u hu _ (by decide)).1]
    simp +decide [hpn, put]
  · rw [(hcell u hu _ (by decide)).1]
    simp +decide [hps]
  · rw [(hcell u hu p hp).1, if_neg (Ne.symm hn), if_neg (Ne.symm hs)]
    rfl
  · rw [hh.edges, linked_sourceMutation]
    rfl
  · rw [hh.values, flatMap_written_of_ne fun q hq => ?_]
    · rfl
    · simp only [sourceMutation, List.mem_append, List.mem_cons, List.mem_map, List.not_mem_nil, or_false] at hq
      rcases hq with (rfl | rfl | rfl | rfl | rfl) | ⟨c, -, rfl⟩ <;> simp only [Quad.text, Quad.value] <;> decide

end Inventory.Repository
