import Inventory.Graph.Evaluation
import Inventory.Store.Request

/-!
Requests carried out on a graph. A request that fails leaves no trace, because it gives no graph.
-/

namespace Inventory.Graph

open Query Store

/-- A graph under a request, with the nodes made for blank labels and for variables without nodes. -/
structure Draft where
  graph : Graph
  blanks : Table String Uid
  fresh : Table String Uid

abbrev Step := Except MutationFault

/-- A new node. -/
def Draft.allocate (d : Draft) : Uid × Draft :=
  let (u, g) := d.graph.allocate
  (u, { d with graph := g })

/-- The nodes of a subject. Only where something is set are nodes made for it. -/
def resolve (vars : Vars) (make : Bool) (d : Draft) : Subject → Step (List Uid × Draft)
  | .node u => if d.graph.contains u then .ok ([u], d) else .error (.noSuchNode u)
  | .blank label =>
    match d.blanks.get? label with
    | some u => .ok ([u], d)
    | none =>
      if make then
        let (u, d) := d.allocate
        .ok ([u], { d with blanks := d.blanks.insert label u })
      else .ok ([], d)
  | .var name =>
    match vars.get? name with
    | none => .error (.unboundVariable name)
    | some s =>
      match s.items, d.fresh.get? name with
      | v :: vs, _ => .ok (v :: vs, d)
      | [], some u => .ok ([u], d)
      | [], none =>
        if make then
          let (u, d) := d.allocate
          .ok ([u], { d with fresh := d.fresh.insert name u })
        else .ok ([], d)

def Draft.update (d : Draft) (us : List Uid) (f : Graph → Uid → Graph) : Draft :=
  { d with graph := us.foldl f d.graph }

def setQuad (vars : Vars) (d : Draft) (q : Quad) : Step Draft :=
  if q.predicate = anyPredicate then .error .wildcardPredicate
  else do
    let (us, d) ← resolve vars true d q.subject
    match q.object with
    | .value v => return d.update us fun g u => g.setValue u q.predicate v
    | .node target =>
      let (targets, d) ← resolve vars true d target
      return d.update us fun g u => targets.foldl (fun g t => g.setEdge u q.predicate t) g
    | .any => .error (.wildcardObject q.predicate)

def deleteQuad (vars : Vars) (d : Draft) (q : Quad) : Step Draft := do
  let (us, d) ← resolve vars false d q.subject
  match q.object with
  | .any =>
    if q.predicate = anyPredicate then return d.update us clearAll
    else return d.update us fun g u => g.clearPredicate u q.predicate
  | .value v => return d.update us fun g u => g.removeValue u q.predicate v
  | .node target =>
    if us.isEmpty then return d
    else
      let (targets, d) ← resolve vars false d target
      return d.update us fun g u => targets.foldl (fun g t => g.removeEdge u q.predicate t) g

/-- Whether a condition holds of what the query has bound. -/
def conditionHolds (vars : Vars) : Condition → Bool
  | .empty name => ((vars.get? name).getD .empty).isEmpty
  | .notEmpty name => !((vars.get? name).getD .empty).isEmpty

def applyMutation (vars : Vars) (d : Draft) (m : Mutation) : Step Draft :=
  if m.condition.all (conditionHolds vars) then do
    let d ← m.delete.foldlM (deleteQuad vars) d
    m.set.foldlM (setQuad vars) d
  else .ok d

/-- What a request answers: the rows of its query, and the nodes made for its blank labels. -/
structure Receipt where
  answer : Answer
  assigned : Table String Uid

/-- The graph after a request. -/
def execute (g : Graph) (r : Request) : Except StoreError (Receipt × Graph) := do
  let (answer, vars) ← (match r.query with
    | some q => evaluate g q r.vars
    | none => .ok (.empty, .empty)).mapError .query
  let d ← (r.mutations.foldlM (applyMutation vars) ⟨g, .empty, .empty⟩).mapError .mutation
  return (⟨answer, d.blanks⟩, d.graph)

end Inventory.Graph
