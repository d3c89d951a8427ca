import Inventory.Proofs.Repository.Enclosure
import Inventory.Proofs.Repository.SchemaWrites
import Inventory.Proofs.Repository.ScopedReads

/-!
The isolation of scopes. Look-ups, backward edges and uids are shared by all scopes, and products, applications and
installations may be in several and link to instances of any; still, what is written to the instances of one scope
changes nothing that is read of instances in others.
-/

namespace Inventory.ScopeIsolation

open Inventory.Graph Store Repository Vocabulary

variable {r : Repository} {refusals : Refusals} {s s' : Store} {scopes : List String} {scope : String}

/-- The stores that operations leave, one after another, when products, applications and installations are added
between them. -/
inductive Reachable (r : Repository) (refusals : Refusals) : Store → Prop
  | start : Reachable r refusals (bootstrapped refusals)
  | changed {s : Store} (c : Change) (h : Reachable r refusals s) : Reachable r refusals (c.run r s)
  | extended {s s' : Store} (h : Reachable r refusals s) (hg : Extended s.graph s'.graph)
      (hr : s'.refusals = s.refusals) : Reachable r refusals s'

/-- What holds of every inventory. -/
structure Orderly (g : Graph) : Prop where
  coherent : Coherent g
  described : Described g
  fenced : Fenced g

theorem Orderly.changed (h : Orderly s.graph) (c : Change) : Orderly (c.run r s).graph :=
  ⟨(c.step r h.coherent).2, c.described r h.coherent h.described, h.fenced.step h.coherent (c.step r h.coherent).1⟩

theorem Orderly.extended {g g' : Graph} (h : Orderly g) (hg : Extended g g') : Orderly g' :=
  ⟨hg.coherent h.coherent, hg.frame.described h.coherent h.described, h.fenced.extended h.coherent.intact hg⟩

theorem orderly_bootstrapped (refusals : Refusals) : Orderly (bootstrapped refusals).graph := by
  refine ⟨coherent_bootstrapped refusals, described_bootstrapped refusals, fun u hu => ?_, fun u v hv => ?_⟩
  · rw [(idle_bootstrapped refusals u typeName (by decide)).1] at hu
    cases hu
  · rw [edges_bootstrapped] at hv
    exact absurd hv OrderedSet.not_mem_empty

theorem Reachable.orderly (h : Reachable r refusals s) : Orderly s.graph := by
  induction h with
  | start => exact orderly_bootstrapped refusals
  | changed c _ ih => exact ih.changed c
  | extended _ hg _ ih => exact ih.extended hg

theorem reachable_after (r : Repository) (refusals : Refusals) (cs : List Change) :
    Reachable r refusals (after r (bootstrapped refusals) cs) := by
  induction cs using List.reverseRecOn with
  | nil => exact .start
  | append_singleton cs c ih =>
      rw [after_concat]
      exact ih.changed c

theorem Reachable.write {qs : List Quad} (h : Reachable r refusals s)
    (hblank : ∀ q ∈ qs, ∃ label, q.subject = .blank label) (hp : ∀ q ∈ qs, isEntityPredicate q.predicate = true)
    (operation : String) : Reachable r refusals (perform (Repository.write operation none [⟨none, qs, []⟩]) s).2 :=
  h.extended (extended_of_write hblank hp operation h.orderly.coherent.intact) (Steady.write _ _ _ s)

/-- Stores of which one comes from the other by what is written to the instances of a scope. -/
theorem sameReads_of_confined (hs : Orderly s.graph) (hs' : Orderly s'.graph) (hr : s'.refusals = s.refusals)
    (hschema : SameSchema s.graph s'.graph) (hc : ConfinedTo scope s.graph s'.graph) (hscope : scope ∉ scopes) :
    SameReads scopes s s' := by
  have halike : AlikeIn scopes s.graph s'.graph :=
    alikeIn_of_confined hs.fenced hscope hs'.fenced hs.coherent.intact hs'.coherent.intact hschema hc
  exact sameReads_of_alike halike hr hs.coherent hs'.coherent hs.described hs'.described

theorem sameReads_of_upsert (hs : Orderly s.graph) (hscope : scope ∉ scopes) (k : Guard) (name : String)
    (payload : List (String × Json)) (now : Int) :
    SameReads scopes s (Change.run r s (.upsertInstance k scope name payload now)) := by
  have hs' : Orderly (Change.run r s (.upsertInstance k scope name payload now)).graph := hs.changed _
  have hr := refusals_change r s (.upsertInstance k scope name payload now)
  obtain ⟨res, hrun⟩ : ∃ res, perform (r.upsertInstance k scope name payload now) s =
      (res, Change.run r s (.upsertInstance k scope name payload now)) := ⟨_, rfl⟩
  generalize Change.run r s (.upsertInstance k scope name payload now) = s' at hs' hr hrun ⊢
  rcases upsertInstance_cases hs.coherent hrun with
    ⟨he, -⟩ | ⟨t, record, parent, own, stub, -, -, -, -, -, -, hm, hschema⟩
  · refine sameReads_of_confined hs hs' hr ?_ ?_ hscope
    · exact he ▸ .refl s.graph
    · exact he ▸ .refl scope s.graph
  · exact sameReads_of_confined hs hs' hr hschema (confinedTo_of_recorded hs.fenced hm) hscope

theorem sameReads_of_deletion (hs : Orderly s.graph) (hscope : scope ∉ scopes) (k : Guard) (elapsedMs : Nat → Nat) :
    SameReads scopes s (Change.run r s (.deleteInstances k elapsedMs scope)) := by
  have hp : PurgedIn scope s.graph (Change.run r s (.deleteInstances k elapsedMs scope)).graph :=
    purgedIn_of_deleteInstances hs.coherent rfl
  exact sameReads_of_confined hs (hs.changed _) (refusals_change r s _) (sameSchema_of_purged hp.purged)
    (confinedTo_of_purged hp) hscope

/-- Neither a record written in a scope nor a deletion of its instances changes what is read of instances in other
scopes. -/
theorem sameReads_of_reachable (r : Repository) (refusals : Refusals) (s : Store) (h : Reachable r refusals s)
    (scope : String) (scopes : List String) (hscope : scope ∉ scopes) :
    (∀ k name payload now, SameReads scopes s (Change.run r s (.upsertInstance k scope name payload now))) ∧
      ∀ k elapsedMs, SameReads scopes s (Change.run r s (.deleteInstances k elapsedMs scope)) :=
  ⟨sameReads_of_upsert h.orderly hscope, sameReads_of_deletion h.orderly hscope⟩

section Neighbours

/-- An instance in each of two scopes. -/
def neighbours : List Change :=
  [.upsertSource ((MetadataSource.equipment "a" "s1").withColumns ["id"]),
    .createType ⟨0⟩ (((EquipmentType.new "rack" "0x1").withScope "s1").withAttribute (.identifier "key" "id")),
    .upsertInstance ⟨0⟩ "s1" "rack" [("id", .str "x")] 0,
    .upsertSource ((MetadataSource.equipment "b" "s2").withColumns ["id"]),
    .createType ⟨0⟩ (((EquipmentType.new "blade" "0x5").withScope "s2").withAttribute (.identifier "key" "id")),
    .upsertInstance ⟨0⟩ "s2" "blade" [("id", .str "y")] 0]

/-- A product in both scopes, with an edge to each of the instances. -/
def product : List Quad :=
  [.text (.blank "p") Vocabulary.scopes "s1", .text (.blank "p") Vocabulary.scopes "s2",
    .text (.blank "p") productTag "tag", .edge (.blank "p") productEquipment (.node ⟨4⟩),
    .edge (.blank "p") productEquipment (.node ⟨8⟩)]

/-- The store of the instances and the product. -/
def shared : Store :=
  (perform (write "products" none [⟨none, product, []⟩]) (after ⟨0, .standard⟩ (bootstrapped .none) neighbours)).2

theorem reachable_shared : Reachable ⟨0, .standard⟩ .none shared := by
  refine (reachable_after ⟨0, .standard⟩ .none neighbours).write (fun q hq => ⟨"p", ?_⟩) ?_ "products"
  · revert q
    decide
  · decide +kernel

set_option maxRecDepth 100000 in
theorem linked_shared : ⟨8⟩ ∈ shared.graph.edges ⟨9⟩ productEquipment ∧ Sited shared.graph "s2" ⟨8⟩ ∧
    shared.graph.inScopes ["s1"] ⟨9⟩ = true := by
  decide +kernel

/-- The store of the product: what is written to one of the instances is not seen from the scope of the other. -/
theorem sameReads_shared : Reachable ⟨0, .standard⟩ .none shared ∧ "s2" ∉ ["s1"] ∧
    ⟨8⟩ ∈ shared.graph.edges ⟨9⟩ productEquipment ∧
    (∀ k name payload now, SameReads ["s1"] shared
      (Change.run ⟨0, .standard⟩ shared (.upsertInstance k "s2" name payload now))) ∧
    ∀ k elapsedMs, SameReads ["s1"] shared (Change.run ⟨0, .standard⟩ shared (.deleteInstances k elapsedMs "s2")) :=
  ⟨reachable_shared, by decide, linked_shared.1,
    sameReads_of_reachable _ _ shared reachable_shared "s2" ["s1"] (by decide)⟩

end Neighbours

end Inventory.ScopeIsolation
