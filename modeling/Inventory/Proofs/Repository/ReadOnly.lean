import Inventory.Proofs.Repository.ScopedReads

/-!
Operations that only read. All that a repository reads it asks for by queries, so that stores which answer every query
alike give the same in each of its reads.
-/

namespace Inventory.Repository

variable {α β : Type} {x : Op α} {f : α → Op β} {s s' : Store} {r : Repository}

/-- Stores that answer every query alike. -/
structure AnswerAlike (s s' : Store) : Prop where
  refused : s'.refusals.query = s.refusals.query
  answers : ∀ q params, s'.graph.evaluate q params = s.graph.evaluate q params

theorem AnswerAlike.refl (s : Store) : AnswerAlike s s := ⟨rfl, fun _ _ => rfl⟩

theorem AnswerAlike.of_graph (hq : s'.refusals.query = s.refusals.query) (hg : s'.graph = s.graph) :
    AnswerAlike s s' := ⟨hq, fun q params => by rw [hg]⟩

/-- An operation that leaves a store as it is, and gives the same in all that answer alike. -/
def ReadOnly (x : Op α) : Prop :=
  ∀ s s', AnswerAlike s s' → ∃ r, perform x s = (r, s) ∧ perform x s' = (r, s')

namespace ReadOnly

theorem repeats (h : ReadOnly x) (hs : AnswerAlike s s') : Repeats x s s' := by
  obtain ⟨r, hr, hr'⟩ := h s s' hs
  rw [Repeats, hr, hr']

theorem pure (a : α) : ReadOnly (pure a) := fun _ _ _ => ⟨.ok a, rfl, rfl⟩

theorem throw (e : Failure) : ReadOnly (throw e : Op α) := fun _ _ _ => ⟨.error e, rfl, rfl⟩

theorem bind (hx : ReadOnly x) (hf : ∀ a, ReadOnly (f a)) : ReadOnly (x >>= f) := by
  intro s s' h
  obtain ⟨r, hr, hr'⟩ := hx s s' h
  rw [perform_bind, perform_bind, hr, hr']
  cases r with
  | error e => exact ⟨.error e, rfl, rfl⟩
  | ok a => exact hf a s s' h

theorem map (k : α → β) (hx : ReadOnly x) : ReadOnly (k <$> x) := by
  rw [map_eq_pure_bind]
  exact hx.bind fun a => pure (k a)

theorem tryCatch {k : Failure → Op α} (hx : ReadOnly x) (hk : ∀ e, ReadOnly (k e)) : ReadOnly (tryCatch x k) := by
  intro s s' h
  obtain ⟨r, hr, hr'⟩ := hx s s' h
  rw [perform_tryCatch, perform_tryCatch, hr, hr']
  cases r with
  | error e => exact hk e s s' h
  | ok a => exact ⟨.ok a, rfl, rfl⟩

theorem read (operation : String) (q : Query) (params : Query.Bindings) :
    ReadOnly (Repository.read operation q params) := by
  intro s s' h
  cases hq : s.refusals.query with
  | some e => exact ⟨_, perform_read_refused hq, perform_read_refused (h.refused.trans hq)⟩
  | none =>
      have hq' := h.refused.trans hq
      cases he : s.graph.evaluate q params with
      | error e => exact ⟨_, perform_read_error hq he, perform_read_error hq' ((h.answers q params).trans he)⟩
      | ok a => exact ⟨_, perform_read hq he, perform_read hq' ((h.answers q params).trans he)⟩

theorem reading (a : Except Failure α) : ReadOnly (Repository.reading a) := by
  cases a with
  | error e => exact throw e
  | ok a => exact pure a

theorem check (a : Except Violation α) : ReadOnly (Repository.check a) := by
  cases a with
  | error v => exact throw _
  | ok a => exact pure a

theorem orNotFound (what : String) (o : Option α) : ReadOnly (Repository.orNotFound what o) := by
  cases o with
  | none => exact throw _
  | some a => exact pure a

theorem verify (r : Repository) (k : Guard) (operation : String) : ReadOnly (r.verify k operation) := by
  unfold Repository.verify
  split
  · exact pure _
  · exact throw _

theorem typeUid (id : String) : ReadOnly (typeUid id) := orNotFound _ _

theorem loadSources (operation : String) (b : Query.Block) : ReadOnly (loadSources operation b) :=
  (read _ _ _).bind fun _ => reading _

theorem sourceByName? (name : String) (scopes : List String) : ReadOnly (sourceByName? name scopes) :=
  (loadSources _ _).map _

theorem sources (kind : MetadataKind) (scopes : List String) : ReadOnly (sources kind scopes) := loadSources _ _

theorem sourceById (id : String) (scopes : List String) : ReadOnly (sourceById id scopes) :=
  (orNotFound _ _).bind fun _ => (loadSources _ _).bind fun _ => orNotFound _ _

theorem loadTypes (operation : String) (b : Query.Block) : ReadOnly (loadTypes operation b) :=
  (read _ _ _).bind fun _ => reading _

theorem types (scopes : List String) : ReadOnly (types scopes) := loadTypes _ _

theorem typeByName (name : String) (scopes : List String) : ReadOnly (typeByName name scopes) :=
  (loadTypes _ _).bind fun _ => orNotFound _ _

theorem typeById (id : String) (scopes : List String) : ReadOnly (typeById id scopes) :=
  (typeUid id).bind fun _ => (loadTypes _ _).bind fun _ => orNotFound _ _

theorem typeChildren (id : String) (depth : Option Nat) (scopes : List String) :
    ReadOnly (typeChildren id depth scopes) :=
  (typeUid _).bind fun _ => (types scopes).bind fun _ => (read _ _ _).bind fun _ => (reading _).bind fun _ => pure _

theorem hasInstances (typeName : String) (scopes : List String) : ReadOnly (hasInstances typeName scopes) :=
  (read _ _ _).bind fun _ => pure _

theorem depthOr (scopes : List String) (depth : Option Nat) : ReadOnly (depthOr scopes depth) := by
  cases depth with
  | none => exact (types scopes).map _
  | some d => exact pure d

theorem descendantIds (id : String) (scopes : List String) : ReadOnly (descendantIds id scopes) := by
  refine ((typeChildren id none scopes).map _).tryCatch fun e => ?_
  split
  · exact pure _
  · exact throw _

theorem admitParent (t : EquipmentType) (change : Option String) (scopes : List String) :
    ReadOnly (admitParent t change scopes) := by
  cases change with
  | none => exact pure _
  | some p =>
      exact (types scopes).bind fun _ => (descendantIds t.id scopes).bind fun _ =>
        (hasInstances t.typeName scopes).bind fun _ => check _

theorem parentUid (p : Option String) : ReadOnly (p.mapM Repository.typeUid) := by
  cases p with
  | none => exact pure none
  | some p => exact (typeUid p).map some

end ReadOnly

/-- Each read of a repository gives the same in two stores. -/
structure SameAnswers (s s' : Store) : Prop where
  sources : ∀ kind scopes, Repeats (sources kind scopes) s s'
  sourceByName : ∀ name scopes, Repeats (sourceByName? name scopes) s s'
  sourceById : ∀ id scopes, Repeats (sourceById id scopes) s s'
  types : ∀ scopes, Repeats (types scopes) s s'
  typeByName : ∀ name scopes, Repeats (typeByName name scopes) s s'
  typeById : ∀ id scopes, Repeats (typeById id scopes) s s'
  typeChildren : ∀ id depth scopes, Repeats (typeChildren id depth scopes) s s'
  occupied : ∀ typeName scopes, Repeats (hasInstances typeName scopes) s s'
  instances : ∀ scopes, SameReads scopes s s'

theorem AnswerAlike.sameAnswers (h : AnswerAlike s s') : SameAnswers s s' where
  sources kind scopes := (ReadOnly.sources kind scopes).repeats h
  sourceByName name scopes := (ReadOnly.sourceByName? name scopes).repeats h
  sourceById id scopes := (ReadOnly.sourceById id scopes).repeats h
  types scopes := (ReadOnly.types scopes).repeats h
  typeByName name scopes := (ReadOnly.typeByName name scopes).repeats h
  typeById id scopes := (ReadOnly.typeById id scopes).repeats h
  typeChildren id depth scopes := (ReadOnly.typeChildren id depth scopes).repeats h
  occupied typeName scopes := (ReadOnly.hasInstances typeName scopes).repeats h
  instances scopes := by
    have hread : ∀ {α : Type} operation q params (k : Answer → Except Failure α),
        Repeats (read operation q params >>= fun a => reading (k a)) s s' := fun operation q params k =>
      ((ReadOnly.read operation q params).bind fun a => ReadOnly.reading (k a)).repeats h
    exact {
      list := fun t spec => hread _ _ _ _
      get := fun t identifier => hread _ _ _ _
      parents := fun t above anchor => hread _ _ _ _
      children := fun t below anchor spec => hread _ _ _ _
      hierarchy := fun anchor direction depth => ((ReadOnly.depthOr scopes depth).bind fun d =>
        (ReadOnly.read _ _ _).bind fun a => ReadOnly.reading _).repeats h
      topology := fun t anchor => hread _ _ _ _ }

end Inventory.Repository
