import Inventory.Graph.Basic
import Inventory.Graph.Comparison
import Inventory.Query.Answer
import Inventory.Text.Pattern.Size
import Inventory.Vocabulary

/-!
What a query means on a graph. Blocks are taken in order, and each may use the variables that those before it
have bound. Nodes without the value to sort by come last in either direction, and equal ones by uid.
-/

namespace Inventory.Graph

open Query Text

/-- The nodes bound to variables. -/
abbrev Vars := Table String UidSet

abbrev Eval := Except QueryFault

/-- The nodes bound to a variable, together with more. -/
def Vars.extend (vars : Vars) (name : String) (us : List Uid) : Vars :=
  vars.insert name (((vars.get? name).getD .empty).insertAll us)

def Vars.extend? (vars : Vars) (name : Option String) (us : List Uid) : Vars :=
  match name with
  | some name => vars.extend name us
  | none => vars

def refNodes (vars : Vars) : NodeRef → Eval (List Uid)
  | .node u => .ok [u]
  | .var name =>
    match vars.get? name with
    | some s => .ok s.items
    | none => .error (.unboundVariable name)

def refSet (vars : Vars) (refs : List NodeRef) : Eval UidSet :=
  (refs.mapM (refNodes vars)).map fun us => .ofList us.flatten

/-- The items that pass a test, in their order; the first error of the test ends it. -/
def sift (test : Uid → Eval Bool) : List Uid → Eval (List Uid)
  | [] => .ok []
  | u :: us => do
    let ok ← test u
    let rest ← sift test us
    return if ok then u :: rest else rest

def startNodes (g : Graph) (vars : Vars) : Root → Eval (List Uid)
  | .eq p v => .ok (g.uids.filter fun u => Comparison.valuesMatch (g.values u p) v)
  | .has p => .ok (g.uids.filter (g.has · p))
  | .type name => .ok (g.uids.filter fun u => (g.values u Vocabulary.nodeType).any (Json.str name).same)
  | .uid refs => (refSet vars refs).map fun s => s.items.filter g.contains

def matchesPattern (ignoreCase : Bool) (ts : List Pattern.Token) : Json → Bool
  | .str s => Pattern.isMatch ignoreCase ts s
  | _ => false

/-- Why a text that is no pattern is none. -/
def patternFault (ignoreCase : Bool) (pattern : String) : PatternFault :=
  if (Pattern.parse? ignoreCase pattern.toList).isSome then .tooLarge pattern else .unreadable pattern

mutual

/-- Whether a node passes a filter. The parts of `and` and `or` are tried in order until one decides. -/
def holds (g : Graph) (vars : Vars) (u : Uid) : Filter → Eval Bool
  | .eq p v => .ok (Comparison.valuesMatch (g.values u p) v)
  | .ge p v => .ok ((g.values u p).any fun s => Comparison.reaches s v)
  | .regex p pattern ignoreCase =>
    match Pattern.compile? ignoreCase pattern.toList with
    | some ts => .ok ((g.values u p).any (matchesPattern ignoreCase ts))
    | none => .error (.invalidPattern (patternFault ignoreCase pattern))
  | .uid refs => (refSet vars refs).map (·.contains u)
  | .has p => .ok (g.has u p)
  | .and parts => holdsAll g vars u parts
  | .or parts => holdsAny g vars u parts
  | .not inner => (holds g vars u inner).map (!·)

def holdsAll (g : Graph) (vars : Vars) (u : Uid) : List Filter → Eval Bool
  | [] => .ok true
  | f :: fs => do if ← holds g vars u f then holdsAll g vars u fs else .ok false

def holdsAny (g : Graph) (vars : Vars) (u : Uid) : List Filter → Eval Bool
  | [] => .ok false
  | f :: fs => do if ← holds g vars u f then .ok true else holdsAny g vars u fs

end

def passes (g : Graph) (vars : Vars) (f : Option Filter) (u : Uid) : Eval Bool :=
  match f with
  | some f => holds g vars u f
  | none => .ok true

/-- The order of two nodes in a sorted block. -/
def nodeOrder (g : Graph) (o : Order) (u v : Uid) : Ordering :=
  let byUid := compare u.value v.value
  match (g.values u o.predicate).head?, (g.values v o.predicate).head? with
  | none, none => byUid
  | none, some _ => .gt
  | some _, none => .lt
  | some x, some y =>
    let natural := Comparison.compareValues x y
    (match o.direction with
      | .asc => natural
      | .desc => natural.swap).then byUid

def sorted (g : Graph) (o : Option Order) (us : List Uid) : List Uid :=
  match o with
  | some o => us.mergeSort fun u v => nodeOrder g o u v != .gt
  | none => us

def pageArg (params : Bindings) : PageArg → Eval Nat
  | .literal n => .ok n
  | .var name =>
    match params.get? name with
    | none => .error (.unboundParameter name)
    | some raw =>
      match Numeral.readUnsigned? 10 64 raw.toList with
      | some n => .ok n
      | none => .error (.notACount name raw)

/-- The nodes of a page. -/
def cut (params : Bindings) (b : Block) (us : List Uid) : Eval (List Uid) := do
  let offset ← b.offset.mapM (pageArg params)
  let first ← b.first.mapM (pageArg params)
  let rest := us.drop (offset.getD 0)
  return match first with
    | some n => rest.take n
    | none => rest

/-- The nodes that one hop reaches from a node. -/
def hop (g : Graph) (vars : Vars) (edge : Edge) (filter : Option Filter) (u : Uid) : Eval (List Uid) :=
  sift (passes g vars filter) (g.targets u edge)

mutual

/-- Follows a hop from some nodes and then the hops from there, binding variables on the way. -/
def traverse (g : Graph) (vars : Vars) (us : List Uid) : Traversal → Eval Vars
  | ⟨edge, filter, bind, children⟩ => do
    let reached := OrderedSet.ofList (← us.mapM (hop g vars edge filter)).flatten
    traverseAll g (vars.extend? bind reached.items) reached.items children

def traverseAll (g : Graph) (vars : Vars) (us : List Uid) : List Traversal → Eval Vars
  | [] => .ok vars
  | t :: ts => do traverseAll g (← traverse g vars us t) us ts

end

/-- The state of repeated hops: what has been visited, what is bound, and what was reached last. -/
structure Expansion where
  visited : UidSet
  vars : Vars
  reached : List Uid

/-- Takes in one node reached by a hop, unless it has been visited and loops are not allowed. -/
def Expansion.take (allowLoop : Bool) (bind : Option String) (e : Expansion) (u : Uid) : Expansion :=
  if !allowLoop && e.visited.contains u then e
  else ⟨e.visited.insert u, e.vars.extend? bind [u], e.reached ++ [u]⟩

/-- Each hop from one node. -/
def expandNode (g : Graph) (allowLoop : Bool) (u : Uid) : List Traversal → Expansion → Eval Expansion
  | [], e => .ok e
  | t :: ts, e => do
    let us ← hop g e.vars t.edge t.filter u
    expandNode g allowLoop u ts (us.foldl (Expansion.take allowLoop t.bind) e)

/-- Each hop from each node of a frontier. -/
def expandFrontier (g : Graph) (allowLoop : Bool) (ts : List Traversal) : List Uid → Expansion → Eval Expansion
  | [], e => .ok e
  | u :: us, e => do expandFrontier g allowLoop ts us (← expandNode g allowLoop u ts e)

/-- At most so many hops from a frontier. -/
def expand (g : Graph) (allowLoop : Bool) (ts : List Traversal) : Nat → List Uid → UidSet → Vars → Eval Vars
  | 0, _, _, vars => .ok vars
  | depth + 1, frontier, visited, vars => do
    let e ← expandFrontier g allowLoop ts frontier ⟨visited, vars, []⟩
    if e.reached.isEmpty then return e.vars
    else expand g allowLoop ts depth e.reached e.visited e.vars

/-- Repeats hops from some nodes. Their variables are bound even if nothing is reached. -/
def recur (g : Graph) (vars : Vars) (us : List Uid) (r : Recursion) (ts : List Traversal) : Eval Vars :=
  let vars := ts.foldl (fun vars t => vars.extend? t.bind []) vars
  expand g r.allowLoop ts r.depth us (.ofList us) vars

/-- The value of a predicate in a row: what the predicate holds, or else the uids at its edges. -/
def fieldValue? (g : Graph) (u : Uid) (p : String) : Option Json :=
  if p = Vocabulary.uid then some u.toJson
  else
    match g.values u p with
    | v :: vs => some (if g.isList p then .arr (v :: vs) else v)
    | [] =>
      let s := g.edges u p
      if s.isEmpty then none else some (.arr (s.items.map Uid.toJson))

mutual

/-- The fields of a row that a selection gives. -/
def selected (g : Graph) (u : Uid) : Selection → List (String × Json)
  | .field label p => (fieldValue? g u p).toList.map fun v => (label, v)
  | .count _ => []
  | .edge label e selections =>
    match g.targets u e with
    | [] => []
    | vs => [(label, .arr (vs.map fun v => .ofFields (selectedAll g v selections)))]

def selectedAll (g : Graph) (u : Uid) : List Selection → List (String × Json)
  | [] => []
  | s :: ss => selected g u s ++ selectedAll g u ss

end

def row (g : Graph) (u : Uid) (selections : List Selection) : Json := .ofFields (selectedAll g u selections)

def countLabel? : Selection → Option String
  | .count label => some label
  | _ => none

/-- The rows of a block: one for all nodes if only counts are selected, and else one for each node. -/
def project (g : Graph) (us : List Uid) (selections : List Selection) : List Json :=
  match selections.mapM countLabel? with
  | some (label :: labels) => [.ofFields ((label :: labels).map fun l => (l, .ofNat us.length))]
  | _ => us.map fun u => g.row u selections

/-- The nodes of a block. -/
def blockNodes (g : Graph) (params : Bindings) (vars : Vars) (b : Block) : Eval (List Uid) := do
  let start ← startNodes g vars b.root
  let kept ← sift (passes g vars b.filter) start
  cut params b (sorted g b.order kept)

/-- Binds the variables of a block, and gives its nodes. -/
def evalBlock (g : Graph) (params : Bindings) (vars : Vars) (b : Block) : Eval (List Uid × Vars) := do
  let us ← blockNodes g params vars b
  let vars := vars.extend? b.bind us
  let vars ← match b.recursion with
    | some r => recur g vars us r b.traversals
    | none => traverseAll g vars us b.traversals
  return (us, vars)

def evalBlocks (g : Graph) (params : Bindings) : Vars → Answer → List Block → Eval (Answer × Vars)
  | vars, answer, [] => .ok (answer, vars)
  | vars, answer, b :: bs => do
    let (us, vars) ← evalBlock g params vars b
    let answer := match b.name with
      | some name => answer.insert name (project g us b.selections)
      | none => answer
    evalBlocks g params vars answer bs

/-- The rows of the named blocks of a query, and what its variables are bound to. -/
def evaluate (g : Graph) (q : Query) (params : Bindings) : Eval (Answer × Vars) :=
  evalBlocks g params .empty .empty q.blocks

end Inventory.Graph
