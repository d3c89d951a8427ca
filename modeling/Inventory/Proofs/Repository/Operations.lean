import Inventory.Proofs.Outcome
import Inventory.Repository.Basic

/-!
Runs of operations on a store. Everything an operation reads before it first writes leaves the store as it is.
-/

namespace Inventory.Repository

open Outcome

section Perform

variable {ε α β : Type} {x : ExceptT ε (StateM Store) α} {f : α → ExceptT ε (StateM Store) β} {s s' : Store}

/-- What an operation gives, and the store it leaves. -/
def perform (x : ExceptT ε (StateM Store) α) (s : Store) : Except ε α × Store := x.run s

@[simp]
theorem perform_pure (a : α) (s : Store) : perform (ε := ε) (pure a) s = (.ok a, s) := rfl

@[simp]
theorem perform_throw (e : ε) (s : Store) : perform (α := α) (throw e) s = (.error e, s) := rfl

@[simp]
theorem perform_get (s : Store) : perform (ε := ε) get s = (.ok s, s) := rfl

@[simp]
theorem perform_set (t s : Store) : perform (ε := ε) (set t) s = (.ok ⟨⟩, t) := rfl

@[simp]
theorem perform_modify (f : Store → Store) (s : Store) : perform (ε := ε) (modify f) s = (.ok ⟨⟩, f s) := rfl

theorem perform_bind (x : ExceptT ε (StateM Store) α) (f : α → ExceptT ε (StateM Store) β) (s : Store) :
    perform (x >>= f) s =
      match perform x s with
      | (.ok a, s') => perform (f a) s'
      | (.error e, s') => (.error e, s') := by
  have h : perform (x >>= f) s = match perform x s with
      | (r, s') => (ExceptT.bindCont f r : StateM Store (Except ε β)) s' := rfl
  rw [h]
  rcases perform x s with ⟨r, s'⟩
  cases r <;> rfl

theorem perform_bind_cases {r : Except ε β} (h : perform (x >>= f) s = (r, s')) :
    (∃ e, perform x s = (.error e, s') ∧ r = .error e) ∨
      ∃ a s₁, perform x s = (.ok a, s₁) ∧ perform (f a) s₁ = (r, s') := by
  rw [perform_bind] at h
  rcases hx : perform x s with ⟨r', s₁⟩
  rw [hx] at h
  cases r' with
  | error e =>
      cases h
      exact .inl ⟨e, rfl, rfl⟩
  | ok a => exact .inr ⟨a, s₁, rfl, h⟩

theorem perform_tryCatch (x : ExceptT ε (StateM Store) α) (h : ε → ExceptT ε (StateM Store) α) (s : Store) :
    perform (tryCatch x h) s =
      match perform x s with
      | (.ok a, s') => (.ok a, s')
      | (.error e, s') => perform (h e) s' := by
  have hr : perform (tryCatch x h) s = match perform x s with
      | (r, s') => ((match r with | .ok a => pure (.ok a) | .error e => h e) : StateM Store (Except ε α)) s' := rfl
  rw [hr]
  rcases perform x s with ⟨r, s'⟩
  cases r <;> rfl

theorem perform_refuse (e : Option StoreError) (s : Store) :
    perform (Store.refuse e) s = (match e with | some e => .error e | none => .ok (), s) := by
  cases e <;> rfl

theorem perform_step (operation : String) (a : Store.Action α) (s : Store) :
    perform (step operation a) s = ((perform a s).1.mapError (Failure.ofStore operation), (perform a s).2) := rfl

end Perform

variable {α β : Type} {x : Op α} {f : α → Op β} {s s' : Store} {P : α → Prop} {Q : β → Prop}

section Calls

variable {q : Query} {params : Query.Bindings} {request : Store.Request} {ss : List Schema.Statement} {g : Graph}

/-- A query is refused, or gives what it evaluates to. -/
theorem perform_storeQuery (q : Query) (params : Query.Bindings) (s : Store) :
    perform (Store.query q params) s =
      (match s.refusals.query with
        | some e => .error e
        | none => match s.graph.evaluate q params with
          | .ok (answer, _) => .ok answer
          | .error f => .error (.query f), s) := by
  rw [Store.query, perform_bind, perform_get]
  simp only [perform_bind, perform_refuse]
  cases s.refusals.query with
  | some e => rfl
  | none => cases s.graph.evaluate q params <;> rfl

/-- A request is refused, or fails, or is carried out; it is counted in any case. -/
theorem perform_storeExecute (request : Store.Request) (s : Store) :
    perform (Store.execute request) s =
      match s.refusals.execute s.executed with
      | some e => (.error e, { s with executed := s.executed + 1 })
      | none => match s.graph.execute request with
        | .error e => (.error e, { s with executed := s.executed + 1 })
        | .ok (receipt, g) => (.ok receipt, { s with graph := g, executed := s.executed + 1 }) := by
  rw [Store.execute, perform_bind, perform_get]
  simp only [perform_bind, perform_set, perform_refuse]
  cases s.refusals.execute s.executed with
  | some e => rfl
  | none => cases s.graph.execute request <;> rfl

theorem perform_storeAlter_refused {e : StoreError} (h : s.refusals.alter s.altered = some e) :
    perform (Store.alter ss) s = (.error e, { s with altered := s.altered + 1 }) := by
  rw [Store.alter, perform_bind, perform_get]
  simp only [perform_bind, perform_set, perform_refuse, h]

theorem perform_storeAlter {fault : Option SchemaFault} (h : s.refusals.alter s.altered = none)
    (hd : s.graph.declareAll ss = (fault, g)) :
    perform (Store.alter ss) s =
      (match fault with | some f => .error (.schema f) | none => .ok ⟨⟩,
        { s with graph := g, altered := s.altered + 1 }) := by
  rw [Store.alter, perform_bind, perform_get]
  simp only [perform_bind, perform_set, perform_refuse, perform_modify, h, hd]
  cases fault <;> rfl

theorem refusals_execute (request : Store.Request) (s : Store) :
    (perform (Store.execute request) s).2.refusals = s.refusals := by
  rw [perform_storeExecute]
  cases s.refusals.execute s.executed with
  | some e => rfl
  | none => cases s.graph.execute request <;> rfl

theorem refusals_alter (ss : List Schema.Statement) (s : Store) :
    (perform (Store.alter ss) s).2.refusals = s.refusals := by
  cases h : s.refusals.alter s.altered with
  | some e => rw [perform_storeAlter_refused h]
  | none => rw [perform_storeAlter h rfl]

end Calls

/-- An operation that leaves the store as it is, with what holds of whatever it gives. -/
structure Yields (x : Op α) (s : Store) (P : α → Prop) : Prop where
  same : (perform x s).2 = s
  gives : ∀ a, (perform x s).1 = .ok a → P a

namespace Yields

theorem pure {a : α} (h : P a) : Yields (pure a) s P := by
  refine ⟨rfl, fun b hb => ?_⟩
  cases hb
  exact h

theorem throw (e : Failure) : Yields (throw e) s P := by
  refine ⟨rfl, fun b hb => ?_⟩
  cases hb

theorem mono {R : α → Prop} (h : Yields x s P) (hR : ∀ a, P a → R a) : Yields x s R :=
  ⟨h.same, fun a ha => hR a (h.gives a ha)⟩

theorem cases {r : Except Failure α} (h : Yields x s P) (hr : perform x s = (r, s')) :
    s' = s ∧ ∀ a, r = .ok a → P a := by
  refine ⟨?_, fun a ha => h.gives a ?_⟩
  · rw [← h.same, hr]
  · rw [hr, ha]

theorem bind (hx : Yields x s P) (hf : ∀ a, P a → Yields (f a) s Q) : Yields (x >>= f) s Q := by
  have hb : ∀ r s', perform (x >>= f) s = (r, s') → s' = s ∧ ∀ b, r = .ok b → Q b := by
    intro r s' h
    rcases perform_bind_cases h with ⟨e, he, rfl⟩ | ⟨a, s₁, ha, hr⟩
    · exact ⟨(hx.cases he).1, by simp⟩
    · obtain ⟨rfl, hP⟩ := hx.cases ha
      exact (hf a (hP a rfl)).cases hr
  exact ⟨(hb _ _ rfl).1, (hb _ _ rfl).2⟩

theorem map {h : α → β} (hx : Yields x s P) (hh : ∀ a, P a → Q (h a)) : Yields (h <$> x) s Q := by
  rw [map_eq_pure_bind]
  exact hx.bind fun a ha => pure (hh a ha)

/-- The first step of a longer operation either fails or gives way to the rest. -/
theorem step {r : Except Failure β} (hx : Yields x s P) (h : perform (x >>= f) s = (r, s')) :
    (s' = s ∧ ∃ e, r = .error e) ∨ ∃ a, P a ∧ perform x s = (.ok a, s) ∧ perform (f a) s = (r, s') := by
  rcases perform_bind_cases h with ⟨e, he, rfl⟩ | ⟨a, s₁, ha, hr⟩
  · exact .inl ⟨(hx.cases he).1, e, rfl⟩
  · obtain ⟨rfl, hP⟩ := hx.cases ha
    exact .inr ⟨a, hP a rfl, ha, hr⟩

theorem check (r : Except Violation α) : Yields (Repository.check r) s fun a => r = .ok a := by
  cases r with
  | ok a => exact pure rfl
  | error v => exact throw _

theorem orNotFound (what : String) (o : Option α) : Yields (Repository.orNotFound what o) s fun a => o = some a := by
  cases o with
  | some a => exact pure rfl
  | none => exact throw _

theorem reading (r : Except Failure α) : Yields (Repository.reading r) s fun a => r = .ok a := by
  cases r with
  | ok a => exact pure rfl
  | error e => exact throw e

theorem tryCatch {h : Failure → Op α} (hx : Yields x s P)
    (hh : ∀ e, perform x s = (.error e, s) → Yields (h e) s P) : Yields (tryCatch x h) s P := by
  have hrun := perform_tryCatch x h s
  rcases hp : perform x s with ⟨r, s'⟩
  obtain ⟨rfl, hP⟩ := hx.cases hp
  rw [hp] at hrun
  cases r with
  | ok a =>
      constructor
      · rw [hrun]
      · intro b hb
        rw [hrun] at hb
        cases hb
        exact hP a rfl
  | error e =>
      constructor
      · rw [hrun]
        exact (hh e hp).same
      · intro b hb
        rw [hrun] at hb
        exact (hh e hp).gives b hb

theorem verify (r : Repository) (g : Guard) (operation : String) : Yields (r.verify g operation) s fun _ => True := by
  unfold Repository.verify
  split
  · exact pure trivial
  · exact throw _

theorem answered (operation : String) (q : Query) (params : Query.Bindings) :
    Yields (Repository.read operation q params) s fun answer =>
      s.refusals.query = none ∧ ∃ vars, s.graph.evaluate q params = .ok (answer, vars) := by
  refine ⟨?_, fun answer h => ?_⟩
  · rw [Repository.read, perform_step, perform_storeQuery]
  · rw [Repository.read, perform_step, mapError_ok_iff, perform_storeQuery] at h
    cases hq : s.refusals.query with
    | some e =>
        rw [hq] at h
        cases h
    | none =>
        rw [hq] at h
        cases he : s.graph.evaluate q params with
        | error f =>
            simp only [he] at h
            cases h
        | ok a =>
            simp only [he] at h
            cases h
            exact ⟨rfl, a.2, rfl⟩

theorem read (operation : String) (q : Query) (params : Query.Bindings) :
    Yields (Repository.read operation q params) s fun answer =>
      ∃ vars, s.graph.evaluate q params = .ok (answer, vars) :=
  (answered operation q params).mono fun _ h => h.2

end Yields

/-- An operation that leaves the refusals of a store as they are. -/
def Steady (x : Op α) : Prop := ∀ s, (perform x s).2.refusals = s.refusals

namespace Steady

theorem of_yields {P : Store → α → Prop} (h : ∀ s, Yields x s (P s)) : Steady x := fun s => by rw [(h s).same]

theorem pure (a : α) : Steady (pure a) := fun _ => rfl

theorem throw (e : Failure) : Steady (throw e : Op α) := fun _ => rfl

theorem bind (hx : Steady x) (hf : ∀ a, Steady (f a)) : Steady (x >>= f) := by
  intro s
  rw [perform_bind]
  have hs := hx s
  rcases hp : perform x s with ⟨r, s'⟩
  rw [hp] at hs
  cases r with
  | ok a => exact (hf a s').trans hs
  | error e => exact hs

theorem map (h : α → β) (hx : Steady x) : Steady (h <$> x) := by
  rw [map_eq_pure_bind]
  exact hx.bind fun a => pure (h a)

theorem tryCatch {h : Failure → Op α} (hx : Steady x) (hh : ∀ e, Steady (h e)) : Steady (tryCatch x h) := by
  intro s
  rw [perform_tryCatch]
  have hs := hx s
  rcases hp : perform x s with ⟨r, s'⟩
  rw [hp] at hs
  cases r with
  | ok a => exact hs
  | error e => exact (hh e s').trans hs

theorem write (operation : String) (q : Option Query) (ms : List Store.Mutation) : Steady (write operation q ms) := by
  intro s
  rw [Repository.write, perform_step]
  exact refusals_execute _ s

theorem alter (operation : String) (ss : List Schema.Statement) : Steady (alter operation ss) := by
  intro s
  rw [Repository.alter, perform_step]
  exact refusals_alter ss s

end Steady

/-- What holds of the failure of an operation that fails. -/
def Fails (x : Op α) (s : Store) (E : Failure → Prop) : Prop := ∀ e, (perform x s).1 = .error e → E e

namespace Fails

variable {E : Failure → Prop}

theorem pure (a : α) : Fails (pure a) s E := by
  intro e h
  cases h

theorem bind (hx : Fails x s E) (hy : Yields x s P) (hf : ∀ a, P a → Fails (f a) s E) : Fails (x >>= f) s E := by
  intro e h
  rcases hp : perform x s with ⟨r, s'⟩
  obtain ⟨rfl, hP⟩ := hy.cases hp
  rw [perform_bind, hp] at h
  cases r with
  | error e' =>
      cases h
      exact hx e (by rw [hp])
  | ok a => exact hf a (hP a rfl) e h

theorem orNotFound (what : String) (o : Option α) (h : E (.notFound what)) :
    Fails (Repository.orNotFound what o) s E := by
  intro e he
  cases o with
  | some a => cases he
  | none =>
      cases he
      exact h

theorem reading {r : Except Failure α} (h : ∀ e, r = .error e → E e) : Fails (Repository.reading r) s E := by
  intro e he
  cases r with
  | ok a => cases he
  | error e' =>
      cases he
      exact h e rfl

theorem read (operation : String) (q : Query) (params : Query.Bindings) (h : ∀ e, E (.ofStore operation e)) :
    Fails (Repository.read operation q params) s E := by
  intro e he
  rw [Repository.read, perform_step] at he
  cases hr : (perform (Store.query q params) s).1 with
  | ok a =>
      rw [hr] at he
      cases he
  | error e' =>
      rw [hr] at he
      cases he
      exact h e'

end Fails

@[simp]
theorem perform_reading (r : Except Failure α) (s : Store) : perform (reading r) s = (r, s) := by
  cases r <;> rfl

theorem perform_read {operation : String} {q : Query} {params : Query.Bindings} {answer : Answer} {vars : Graph.Vars}
    (hr : s.refusals.query = none) (he : s.graph.evaluate q params = .ok (answer, vars)) :
    perform (read operation q params) s = (.ok answer, s) := by
  rw [read, perform_step, perform_storeQuery, hr, he]
  rfl

theorem perform_read_error {operation : String} {q : Query} {params : Query.Bindings} {e : QueryFault}
    (hr : s.refusals.query = none) (he : s.graph.evaluate q params = .error e) :
    perform (read operation q params) s = (.error (.internal operation (.store (.query e))), s) := by
  rw [read, perform_step, perform_storeQuery, hr, he]
  rfl

theorem perform_read_refused {operation : String} {q : Query} {params : Query.Bindings} {e : StoreError}
    (hr : s.refusals.query = some e) : perform (read operation q params) s = (.error (.ofStore operation e), s) := by
  rw [read, perform_step, perform_storeQuery, hr]
  rfl

theorem perform_execute {operation : String} {request : Store.Request} {r : Except Failure Graph.Receipt}
    (h : perform (step operation (Store.execute request)) s = (r, s')) :
    (s'.graph = s.graph ∧ ∃ e, r = .error e) ∨
      ∃ receipt, s.graph.execute request = .ok (receipt, s'.graph) ∧ r = .ok receipt := by
  rw [perform_step, perform_storeExecute] at h
  cases hq : s.refusals.execute s.executed with
  | some e =>
      rw [hq] at h
      cases h
      exact .inl ⟨rfl, _, rfl⟩
  | none =>
      rw [hq] at h
      cases he : s.graph.execute request with
      | error e =>
          simp only [he] at h
          cases h
          exact .inl ⟨rfl, _, rfl⟩
      | ok a =>
          simp only [he] at h
          cases h
          exact .inr ⟨a.1, rfl, rfl⟩

/-- A request before whatever comes next either fails and leaves the graph as it is, or gives way to the rest. -/
theorem perform_execute_bind {operation : String} {request : Store.Request} {f : Graph.Receipt → Op β}
    {r : Except Failure β} (h : perform (step operation (Store.execute request) >>= f) s = (r, s')) :
    (s'.graph = s.graph ∧ ∃ e, r = .error e) ∨
      ∃ receipt s₁, s.graph.execute request = .ok (receipt, s₁.graph) ∧ perform (f receipt) s₁ = (r, s') := by
  rcases perform_bind_cases h with ⟨e, he, rfl⟩ | ⟨receipt, s₁, hr, h⟩
  · rcases perform_execute he with ⟨hg, -⟩ | ⟨receipt, -, hok⟩
    · exact .inl ⟨hg, e, rfl⟩
    · cases hok
  · rcases perform_execute hr with ⟨-, e, he⟩ | ⟨receipt', he, hok⟩
    · cases he
    · cases hok
      exact .inr ⟨receipt, s₁, he, h⟩

theorem perform_execute_refused {operation : String} {request : Store.Request} {e : StoreError}
    (h : s.refusals.execute s.executed = some e) : perform (step operation (Store.execute request)) s =
      (.error (.ofStore operation e), { s with executed := s.executed + 1 }) := by
  rw [perform_step, perform_storeExecute, h]
  rfl

theorem perform_execute_ok {operation : String} {request : Store.Request} {receipt : Graph.Receipt} {g' : Graph}
    (h : s.refusals.execute s.executed = none) (he : s.graph.execute request = .ok (receipt, g')) :
    perform (step operation (Store.execute request)) s =
      (.ok receipt, { s with graph := g', executed := s.executed + 1 }) := by
  rw [perform_step, perform_storeExecute, h, he]
  rfl

section Altering

variable {operation : String} {ss : List Schema.Statement} {g : Graph}

/-- Declarations that are refused may still have declared what stands before the one refused. -/
theorem perform_alter {r : Except Failure Unit} (h : perform (alter operation ss) s = (r, s')) :
    s'.graph = s.graph ∨ s'.graph = (s.graph.declareAll ss).2 := by
  rw [alter, perform_step] at h
  cases hq : s.refusals.alter s.altered with
  | some e =>
      rw [perform_storeAlter_refused hq] at h
      cases h
      exact .inl rfl
  | none =>
      rw [perform_storeAlter hq rfl] at h
      cases h
      exact .inr rfl

theorem perform_alter_ok (h : perform (alter operation ss) s = (.ok ⟨⟩, s')) :
    s.graph.declareAll ss = (none, s'.graph) := by
  rw [alter, perform_step] at h
  cases hq : s.refusals.alter s.altered with
  | some e =>
      rw [perform_storeAlter_refused hq] at h
      cases h
  | none =>
      rcases hd : s.graph.declareAll ss with ⟨fault, g⟩
      rw [perform_storeAlter hq hd] at h
      cases fault <;> cases h
      rfl

/-- Declarations before whatever comes next either fail, with some of them made or none, or give way to the rest. -/
theorem perform_alter_bind {f : Unit → Op β} {r : Except Failure β}
    (h : perform (alter operation ss >>= f) s = (r, s')) :
    ((s'.graph = s.graph ∨ s'.graph = (s.graph.declareAll ss).2) ∧ ∃ e, r = .error e) ∨
      ∃ s₁, s.graph.declareAll ss = (none, s₁.graph) ∧ perform (f ⟨⟩) s₁ = (r, s') := by
  rcases perform_bind_cases h with ⟨e, he, rfl⟩ | ⟨⟨⟩, s₁, hd, h⟩
  · exact .inl ⟨perform_alter he, e, rfl⟩
  · exact .inr ⟨s₁, perform_alter_ok hd, h⟩

end Altering

end Inventory.Repository
