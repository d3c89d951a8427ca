import Inventory.Proofs.Repository.ReadOnly
import Inventory.Proofs.Repository.Redeclaration
import Inventory.Proofs.SchemaAgreement

/-!
Operations that a store breaks off by refusing a request or an alteration. A type is declared before it is written, so
that it may have been declared and not written; nothing that is read shows it, and the operation tried again declares
it again.
-/

namespace Inventory.Retries

open Repository Inventory.Graph Schema SchemaAgreement

variable {α : Type} {r : Repository} {s s' : Store} {operation : String} {request : Store.Request}
  {ss : List Statement} {k : Receipt → Op α} {x : Op α} {g g₁ : Graph} {refusals : Refusals}

/-- A store from which nothing is refused any more. -/
def willing (s : Store) : Store := { s with refusals := .none }

/-- Some request or alteration that was made between two moments of a store has been refused. -/
def Refused (s s' : Store) : Prop :=
  (∃ n, s.executed ≤ n ∧ n < s'.executed ∧ (s.refusals.execute n).isSome = true) ∨
    ∃ n, s.altered ≤ n ∧ n < s'.altered ∧ (s.refusals.alter n).isSome = true

/-- An operation that gives the same in two stores, and leaves them with the same nodes and the same declarations. -/
def EndsAlike (x : Op α) (s s' : Store) : Prop :=
  (perform x s').1 = (perform x s).1 ∧ (perform x s').2.graph = (perform x s).2.graph

/-- An operation that fails, after which every query is answered as before, and which ends as it would have if it is
tried again while nothing is refused. -/
structure Undone (x : Op α) (s : Store) : Prop where
  failed : ∃ e, (perform x s).1 = .error e
  unseen : AnswerAlike s (perform x s).2
  again : EndsAlike x (willing s) (willing (perform x s).2)

/-- An operation that is undone when some request or alteration of it is refused. -/
def Recovers (x : Op α) (s : Store) : Prop := Refused s (perform x s).2 → Undone x s

/-- An operation that can be tried again when some request or alteration of it has been refused: it has failed, each
read of the repository gives what it gave before, and to repeat it gives what it would have given, and leaves what it
would have left, had it not been tried. -/
def Retriable (x : Op α) (s : Store) : Prop :=
  Refused s (perform x s).2 → (∃ e, (perform x s).1 = .error e) ∧ SameAnswers s (perform x s).2 ∧
    EndsAlike x (willing s) (willing (perform x s).2)

theorem Recovers.retriable (h : Recovers x s) : Retriable x s :=
  fun hr => ⟨(h hr).failed, (h hr).unseen.sameAnswers, (h hr).again⟩

/-- All operations that make or change a single thing can be tried again. -/
structure AllRetriable (r : Repository) (s : Store) : Prop where
  upsertSource : ∀ m, Retriable (upsertSource m) s
  createType : ∀ k t, Retriable (r.createType k t) s
  updateType : ∀ k id parent attributes scopes, Retriable (r.updateType k id parent attributes scopes) s
  deleteType : ∀ k name scope, Retriable (r.deleteType k name scope) s
  upsertInstance : ∀ k scope name payload now, Retriable (r.upsertInstance k scope name payload now) s

section Calls

theorem perform_execute_error {e : StoreError} (h : s.refusals.execute s.executed = none)
    (he : s.graph.execute request = .error e) : perform (step operation (Store.execute request)) s =
      (.error (.ofStore operation e), { s with executed := s.executed + 1 }) := by
  rw [perform_step, perform_storeExecute, h, he]
  rfl

theorem perform_alter_refused {e : StoreError} (h : s.refusals.alter s.altered = some e) :
    perform (alter operation ss) s = (.error (.ofStore operation e), { s with altered := s.altered + 1 }) := by
  rw [alter, perform_step, perform_storeAlter_refused h]
  rfl

theorem perform_alter_declared (h : s.refusals.alter s.altered = none) (hd : s.graph.declareAll ss = (none, g)) :
    perform (alter operation ss) s = (.ok ⟨⟩, { s with graph := g, altered := s.altered + 1 }) := by
  rw [alter, perform_step, perform_storeAlter h hd]
  rfl

theorem counted_execute (operation : String) (request : Store.Request) (hk : ∀ receipt, ReadOnly (k receipt))
    (s : Store) :
    (perform (step operation (Store.execute request) >>= k) s).2.executed = s.executed + 1 ∧
      (perform (step operation (Store.execute request) >>= k) s).2.altered = s.altered := by
  rw [perform_bind]
  cases hx : s.refusals.execute s.executed with
  | some e =>
      rw [perform_execute_refused hx]
      exact ⟨rfl, rfl⟩
  | none =>
      cases he : s.graph.execute request with
      | error e =>
          rw [perform_execute_error hx he]
          exact ⟨rfl, rfl⟩
      | ok a =>
          rw [perform_execute_ok hx he]
          obtain ⟨res, hr, -⟩ := hk a.1 _ _ (.refl { s with graph := a.2, executed := s.executed + 1 })
          simp only [hr]
          exact ⟨trivial, trivial⟩

/-- A request and what is read after it, where nothing is refused, depend on the graph alone. -/
theorem endsAlike_execute (hk : ∀ receipt, ReadOnly (k receipt)) (hs : s.refusals = .none) (hs' : s'.refusals = .none)
    (hg : s'.graph = s.graph) : EndsAlike (step operation (Store.execute request) >>= k) s s' := by
  have hn : s.refusals.execute s.executed = none := by rw [hs]; rfl
  have hn' : s'.refusals.execute s'.executed = none := by rw [hs']; rfl
  rw [EndsAlike, perform_bind, perform_bind]
  cases he : s.graph.execute request with
  | error e =>
      rw [perform_execute_error hn he, perform_execute_error hn' (hg ▸ he)]
      exact ⟨rfl, hg⟩
  | ok a =>
      obtain ⟨receipt, g⟩ := a
      rw [perform_execute_ok hn he, perform_execute_ok hn' (hg ▸ he)]
      obtain ⟨res, hr, hr'⟩ := hk receipt { s with graph := g, executed := s.executed + 1 }
        { s' with graph := g, executed := s'.executed + 1 } (.of_graph (by rw [hs, hs']) rfl)
      simp only [hr, hr']
      exact ⟨trivial, trivial⟩

/-- So do declarations with a request after them; it is enough that they come to the same. -/
theorem endsAlike_alter (hk : ∀ receipt, ReadOnly (k receipt)) (hs : s.refusals = .none) (hs' : s'.refusals = .none)
    (hd : s.graph.declareAll ss = (none, g)) (hd' : s'.graph.declareAll ss = (none, g)) :
    EndsAlike (alter operation ss >>= fun _ => step operation (Store.execute request) >>= k) s s' := by
  have hn : s.refusals.alter s.altered = none := by rw [hs]; rfl
  have hn' : s'.refusals.alter s'.altered = none := by rw [hs']; rfl
  rw [EndsAlike, perform_bind, perform_bind, perform_alter_declared hn hd, perform_alter_declared hn' hd']
  change EndsAlike (step operation (Store.execute request) >>= k) { s with graph := g, altered := s.altered + 1 }
    { s' with graph := g, altered := s'.altered + 1 }
  exact endsAlike_execute hk hs hs' rfl

end Calls

section Recovery

theorem not_refused_self (s : Store) : ¬Refused s s := by
  rintro (⟨n, h, h', -⟩ | ⟨n, h, h', -⟩) <;> omega

theorem not_refused_of_next (he : s.refusals.execute s.executed = none) (hn : s'.executed = s.executed + 1)
    (ha : s'.altered = s.altered ∨ s'.altered = s.altered + 1 ∧ s.refusals.alter s.altered = none) :
    ¬Refused s s' := by
  rintro (⟨n, hle, hlt, h⟩ | ⟨n, hle, hlt, h⟩)
  · obtain rfl : n = s.executed := by omega
    rw [he] at h
    cases h
  · rcases ha with ha | ⟨ha, hnone⟩
    · omega
    · obtain rfl : n = s.altered := by omega
      rw [hnone] at h
      cases h

/-- What is only read comes to the same before and after. -/
theorem Recovers.bind {β : Type} {x : Op β} {f : β → Op α} (hq : s.refusals.query = none) (hx : ReadOnly x)
    (hf : ∀ b, Recovers (f b) s) : Recovers (x >>= f) s := by
  obtain ⟨res, hr, -⟩ := hx s s (.refl s)
  unfold Recovers
  have hp := perform_bind x f s
  rw [hr] at hp
  cases res with
  | error e =>
      rw [hp]
      exact fun h => absurd h (not_refused_self s)
  | ok b =>
      simp only at hp
      rw [hp]
      intro h
      have hu := hf b h
      -- the retry reads before it writes, and has to read what the first attempt read
      have hb : ∀ s', AnswerAlike s s' → perform (x >>= f) (willing s') = perform (f b) (willing s') := by
        intro s' hs'
        obtain ⟨res, h₁, h₂⟩ := hx s (willing s') ⟨hq.symm, hs'.answers⟩
        obtain rfl : .ok b = res := congrArg Prod.fst (hr.symm.trans h₁)
        rw [perform_bind, h₂]
      refine ⟨hp ▸ hu.failed, hp ▸ hu.unseen, ?_⟩
      rw [hp, EndsAlike, hb s (.refl s), hb _ hu.unseen]
      exact hu.again

theorem Undone.of_error {e : Failure} (h : perform x s = (.error e, s')) (hu : AnswerAlike s s')
    (ha : EndsAlike x (willing s) (willing s')) : Undone x s := by
  refine ⟨⟨e, by rw [h]⟩, ?_, ?_⟩
  · rwa [h]
  · rwa [h]

theorem Recovers.execute (hk : ∀ receipt, ReadOnly (k receipt)) :
    Recovers (step operation (Store.execute request) >>= k) s := by
  cases hx : s.refusals.execute s.executed with
  | some e =>
      have hp : perform (step operation (Store.execute request) >>= k) s =
          (.error (.ofStore operation e), { s with executed := s.executed + 1 }) := by
        rw [perform_bind, perform_execute_refused hx]
      exact fun _ => .of_error hp (.of_graph rfl rfl) (endsAlike_execute hk rfl rfl rfl)
  | none =>
      obtain ⟨he, ha⟩ := counted_execute operation request hk s
      exact fun h => absurd h (not_refused_of_next hx he (.inl ha))

/-- Where declarations are refused nothing has changed, and where the request after them is, they have been made. -/
theorem Recovers.alter (hk : ∀ receipt, ReadOnly (k receipt)) (hd : s.graph.declareAll ss = (none, g))
    (hd' : g.declareAll ss = (none, g)) (hg : ∀ q params, g.evaluate q params = s.graph.evaluate q params) :
    Recovers (alter operation ss >>= fun _ => step operation (Store.execute request) >>= k) s := by
  cases ha : s.refusals.alter s.altered with
  | some e =>
      have hp : perform (Repository.alter operation ss >>= fun _ => step operation (Store.execute request) >>= k) s =
          (.error (.ofStore operation e), { s with altered := s.altered + 1 }) := by
        rw [perform_bind, perform_alter_refused ha]
      exact fun _ => .of_error hp (.of_graph rfl rfl) (endsAlike_alter hk rfl rfl hd hd)
  | none =>
      have hp := perform_bind (Repository.alter operation ss)
        (fun _ => step operation (Store.execute request) >>= k) s
      rw [perform_alter_declared ha hd] at hp
      cases hx : s.refusals.execute s.executed with
      | some e =>
          have hp' : perform (step operation (Store.execute request) >>= k)
              { s with graph := g, altered := s.altered + 1 } = (.error (.ofStore operation e),
                { s with graph := g, altered := s.altered + 1, executed := s.executed + 1 }) := by
            rw [perform_bind, perform_execute_refused (s := { s with graph := g, altered := s.altered + 1 }) hx]
          -- the declarations stay behind: `hg` hides them from queries, and `hd'` has them made again
          exact fun _ => .of_error (hp.trans hp') ⟨rfl, hg⟩ (endsAlike_alter hk rfl rfl hd hd')
      | none =>
          obtain ⟨he, ha'⟩ := counted_execute operation request hk
            { s with graph := g, altered := s.altered + 1 }
          intro h
          rw [hp] at h
          exact absurd h (not_refused_of_next hx he (.inr ⟨ha', ha⟩))

end Recovery

section Operations

theorem recovers_upsertSource (m : MetadataSource) : Recovers (upsertSource m) s := by
  unfold upsertSource
  rw [discard_bind]
  refine Recovers.execute fun _ => (ReadOnly.sourceByName? _ _).bind fun found => ?_
  split
  · exact .pure _
  · exact .throw _

variable (hq : s.refusals.query = none)

include hq

theorem recovers_createType (hv : Valued s.graph) (hs : SingleValued s.graph) (k : Guard) (t : EquipmentType) :
    Recovers (r.createType k t) s := by
  unfold createType
  refine .bind hq (.verify r k _) fun _ => .bind hq (.sourceById _ _) fun source => ?_
  refine .bind hq (.types _) fun existing => .bind hq (.check _) fun _ => .bind hq (.check _) fun _ => ?_
  refine .bind hq (.check _) fun _ => .bind hq (.orNotFound _ _) fun w => .bind hq (.parentUid _) fun parent => ?_
  refine Recovers.alter (fun receipt => ?_) (declareAll_eq hv _ _) (declareAll_declaredIn hv _ _)
    ((declareAll_ok _ _).1.evaluate (isList_declaredIn hv hs _ _))
  split
  · exact .throw _
  · exact (ReadOnly.reading _).bind fun _ => .pure _

theorem recovers_updateType (hv : Valued s.graph) (hs : SingleValued s.graph) (k : Guard) (id : String)
    (parent : Option String) (as : List Attribute) (scopes : List String) :
    Recovers (r.updateType k id parent as scopes) s := by
  unfold updateType
  refine .bind hq (.verify r k _) fun _ => .bind hq (.typeById _ _) fun existing => ?_
  refine .bind hq (.sourceById _ _) fun source => .bind hq (.admitParent _ _ _) fun _ => ?_
  refine .bind hq (.check _) fun _ => .bind hq (.typeUid _) fun owner => .bind hq (.parentUid _) fun parent => ?_
  exact Recovers.alter (fun receipt => ((ReadOnly.reading _).map _).bind fun _ => .typeById _ _)
    (declareAll_eq hv _ _) (declareAll_declaredIn hv _ _) ((declareAll_ok _ _).1.evaluate (isList_declaredIn hv hs _ _))

theorem recovers_deleteType (k : Guard) (name scope : String) : Recovers (r.deleteType k name scope) s := by
  unfold deleteType
  refine .bind hq (.verify r k _) fun _ => .bind hq (.typeByName _ _) fun existing => .bind hq (.types _) fun all => ?_
  refine .bind hq (.hasInstances _ _) fun occupied => .bind hq (.check _) fun _ => .bind hq (.typeUid _) fun u => ?_
  rw [discard, map_const, Function.comp_apply, map_eq_pure_bind]
  exact Recovers.execute fun _ => .pure _

theorem recovers_upsertInstance (k : Guard) (scope name : String) (payload : List (String × Json)) (now : Int) :
    Recovers (r.upsertInstance k scope name payload now) s := by
  unfold upsertInstance
  refine .bind hq (.verify r k _) fun _ => .bind hq (.typeByName _ _) fun t => ?_
  refine .bind hq (.check _) fun record => .bind hq (.check _) fun q => ?_
  rw [discard_bind]
  exact Recovers.execute fun _ => .pure _

end Operations

theorem singleValued_after (hs : Coherent s.graph) (hm : Maintained s.graph) (h : SingleValued s.graph)
    (cs : List Change) : SingleValued (after r s cs).graph := by
  induction cs generalizing s with
  | nil => exact h
  | cons c cs ih =>
      refine ih (c.step r hs).2 (hm.change r c hs) ?_
      rcases c.schema r hs hm.described with ⟨hsame, -⟩ | ⟨name, as, hdecl, -⟩
      · exact h.of_sameSchema hsame
      · exact (singleValued_declaredIn hm.valued h name as).of_sameSchema (sameSchema_of_declares hdecl)

/-- Whatever a store refuses of them, and whatever it has refused before, operations can be tried again. -/
theorem retriable_after (r : Repository) (hq : refusals.query = none) (cs : List Change) :
    AllRetriable r (after r (bootstrapped refusals) cs) := by
  have hs := coherent_bootstrapped refusals
  have hm : Maintained (bootstrapped refusals).graph :=
    ⟨described_bootstrapped refusals, valued_bootstrapped refusals⟩
  have hvalued := (maintained_after (r := r) hs hm cs).valued
  have hsingle := singleValued_after (r := r) hs hm (singleValued_bootstrapped refusals) cs
  have hq : (after r (bootstrapped refusals) cs).refusals.query = none := by
    rw [refusals_after]
    exact hq
  exact {
    upsertSource := fun m => (recovers_upsertSource m).retriable
    createType := fun k t => (recovers_createType hq hvalued hsingle k t).retriable
    updateType := fun k id parent as scopes => (recovers_updateType hq hvalued hsingle k id parent as scopes).retriable
    deleteType := fun k name scope => (recovers_deleteType hq k name scope).retriable
    upsertInstance := fun k scope name payload now => (recovers_upsertInstance hq k scope name payload now).retriable }

section Rack

def repository : Repository := ⟨0, .standard⟩

/-- Refuses the second request. -/
def brokenOff : Refusals :=
  { Refusals.none with execute := fun n => if n = 1 then some (.unavailable "no space left") else none }

def sourced : Store :=
  after repository (bootstrapped brokenOff) [.upsertSource ((MetadataSource.equipment "a" "s1").withColumns ["id"])]

def rack : EquipmentType := ((EquipmentType.new "rack" "0x1").withScope "s1").withAttribute (.identifier "key" "id")

/-- A type that has been declared and not written is not seen, and is made when it is made again. -/
theorem retriable_rack : Refused sourced (perform (repository.createType ⟨0⟩ rack) sourced).2 ∧
    (perform (repository.createType ⟨0⟩ rack) sourced).2.graph.types ≠ sourced.graph.types ∧
      SameAnswers sourced (perform (repository.createType ⟨0⟩ rack) sourced).2 ∧
        EndsAlike (repository.createType ⟨0⟩ rack) (willing sourced)
          (willing (perform (repository.createType ⟨0⟩ rack) sourced).2) ∧
            (perform (repository.createType ⟨0⟩ rack) (willing sourced)).1.isOk = true := by
  obtain ⟨hcalls, htypes, hok⟩ :
      (sourced.executed ≤ 1 ∧ 1 < (perform (repository.createType ⟨0⟩ rack) sourced).2.executed ∧
        (sourced.refusals.execute 1).isSome = true) ∧
      (perform (repository.createType ⟨0⟩ rack) sourced).2.graph.types ≠ sourced.graph.types ∧
      (perform (repository.createType ⟨0⟩ rack) (willing sourced)).1.isOk = true := by
    decide +kernel
  have hrefused : Refused sourced (perform (repository.createType ⟨0⟩ rack) sourced).2 := .inl ⟨1, hcalls⟩
  have hall : AllRetriable repository sourced := retriable_after repository rfl _
  obtain ⟨-, hsame, hagain⟩ := hall.createType ⟨0⟩ rack hrefused
  exact ⟨hrefused, htypes, hsame, hagain, hok⟩

end Rack

end Inventory.Retries
