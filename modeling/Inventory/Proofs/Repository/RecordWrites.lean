import Inventory.Proofs.Repository.InstanceEffects
import Inventory.Proofs.Repository.Stored

/-!
What a record leaves alone: it is written to instances of its scope only, be they there or made for it.
-/

namespace Inventory.Repository

open Inventory.Graph Store Vocabulary

variable {g g' : Graph} {vars : Vars} {d : Draft} {u v w : Uid} {p scope name id time : String} {rec : Record}
  {parent : Option (String × String)} {receipt : Receipt}

theorem InstanceOf.sited (h : InstanceOf g scope name id w) : Sited g scope w := ⟨h.1, h.2.1⟩

/-- A node that a record has been written to: an instance of the scope that was there, or one made as such. -/
structure RecordedAt (g g' : Graph) (scope : String) (w : Uid) : Prop where
  sited : Sited g' scope w
  old : g.contains w = true → Sited g scope w ∧ Kept g g' w
  fresh : ¬g.contains w = true → g'.values w scopes = [.str scope]
  kind : g'.values w metadataType = g.values w metadataType
  edges : ∀ p, p ≠ Vocabulary.parent → g'.edges w p = g.edges w p

/-- A record that has been written in a scope. Whatever is not written to stays as it was. -/
def RecordStored (g g' : Graph) (scope : String) : Prop := ∀ w, Same g g' w ∨ RecordedAt g g' scope w

theorem same_of_not_recorded
    (hh : Draft.Holds vars ⟨g, .empty, .empty⟩ (upsertQuads vars rec scope name id time parent) d)
    (hw : w ∉ d.nodes vars (.var Record.instanceVar))
    (hp : ∀ k, parent = some k → madeFor vars d Record.parentVar ≠ some w) : Same g d.graph w := by
  have hown : madeFor vars d Record.instanceVar ≠ some w := fun h => hw (madeFor_eq_some.1 h).2
  intro p
  obtain ⟨hv, he⟩ := cells_of_upsert hh w p
  rw [hv, he, if_neg hw, if_neg hown, if_neg fun h => hw h.2.1]
  refine ⟨?_, rfl⟩
  cases parent with
  | none => rfl
  | some k => simp [if_neg (hp k rfl)]

theorem UpsertDraft.recordStored (h : UpsertDraft g scope name id parent rec time vars d) (hd : Declared g)
    (hr : ∀ f ∈ rec.values, f.predicate = identifier ∨ isAttributePredicate f.predicate = true) :
    RecordStored g d.graph scope := by
  have hm := h.instanceWritten hr hd
  obtain ⟨hown, hstub, -, ho, hh⟩ := h
  have hedges : ∀ w p, p ≠ Vocabulary.parent → d.graph.edges w p = g.edges w p := by
    intro w p hp
    rw [(cells_of_upsert hh w p).2, if_neg fun h => hp h.2.2.symm]
    rfl
  have hkind : ∀ w, d.graph.values w metadataType = g.values w metadataType := by
    intro w
    have hstamp : ∀ name id, stamp scope name id time metadataType = [] := fun _ _ => by simp +decide [stamp]
    rw [(cells_of_upsert hh w _).1, recorded_eq_nil hr (by decide) (by decide)]
    cases parent <;> simp [hstamp]
  intro w
  by_cases hw : w ∈ d.nodes vars (.var Record.instanceVar)
  · refine .inr ?_
    have hof := instanceOf_of_mem_nodes hm.owned (fun u hu => hm.old ((hown u).1 hu)) hw
    refine ⟨hof.sited, fun hc => ?_, fun hc => ?_, hkind w, hedges w⟩
    · exact ⟨((hown w).1 (ho.mem_bound hc hw)).sited, hm.kept hc⟩
    · obtain ⟨_, _, hst⟩ := hm.stamped hc (p := typeName) (by decide) (List.ne_nil_of_mem hof.1)
      exact hst.scope
  · by_cases hp : ∃ k, parent = some k ∧ madeFor vars d Record.parentVar = some w
    · obtain ⟨k, rfl, hp⟩ := hp
      have hst := hm.stubbed
      simp only [Option.bind_some, hp] at hst
      exact .inr ⟨(instanceOf_of_stamped hst.2.1).sited, fun hc => absurd hc hst.1, fun _ => hst.2.1.scope, hkind w,
        hedges w⟩
    · exact .inl (same_of_not_recorded hh hw fun k hk hmade => hp ⟨k, hk, hmade⟩)

theorem recordStored_of_execute {typeName : String} {parentType : Option String} {now : Int} {request : Store.Request}
    (hg : g.Intact) (hd : Declared g)
    (hr : ∀ f ∈ rec.values, f.predicate = identifier ∨ isAttributePredicate f.predicate = true)
    (hreq : rec.upsert scope typeName parentType now = .ok request) (h : execute g request = .ok (receipt, g')) :
    RecordStored g g' scope := by
  obtain ⟨parent, time, hp, rfl⟩ := request_of_upsert hreq
  obtain ⟨vars, d, hdraft, rfl⟩ := draft_of_upsert hg h
  exact hdraft.recordStored hd hr

end Inventory.Repository
