import MiniDB.Foundation.Mutex
import MiniDB.Foundation.UnorderedMap
import Mathlib.Data.Finset.Card

/-!
# The deadlock detector

The wait graph maps a transaction to the set of transactions it waits for. Both
containers are unordered; an order of entries or of successors in the model is
one iteration order, and `Reorders` relates two orders of the same graph. The
recursion of `DFSCycle` takes a fuel argument, and `none` is a recursion deeper
than the fuel.
-/

namespace MiniDB.Concurrency

open Foundation

/-- `txn_id_t`. -/
abbrev TxnId := Int

/-- `wait_graph_`. The successor sets are lists in their iteration order. -/
abbrev WaitGraph := UnorderedMap TxnId (List TxnId)

namespace WaitGraph

/-- `from` waits for `to`. -/
def Edge (graph : WaitGraph) (source target : TxnId) : Prop :=
  ∃ successors, graph.lookup source = some successors ∧ target ∈ successors

/-- The same graph, iterated in another order. -/
def Reorders (graph other : WaitGraph) : Prop :=
  ∀ txn, Option.Rel List.Perm (graph.lookup txn) (other.lookup txn)

/-- `AddEdge`: `wait_graph_[from].insert(to)`. -/
def addEdge (graph : WaitGraph) (source target : TxnId) : WaitGraph :=
  let (successors, graph) := graph.subscript source
  graph.insert source (successors.insert target)

/-- `RemoveEdge`; an entry that becomes empty is dropped. -/
def removeEdge (graph : WaitGraph) (source target : TxnId) : WaitGraph :=
  match graph.lookup source with
  | none => graph
  | some successors =>
    let remaining := successors.erase target
    if remaining = [] then graph.erase source else graph.insert source remaining

/-- The loop of `RemoveTxn` that takes the transaction out of every successor set. -/
def eraseTarget (graph : WaitGraph) (txn : TxnId) : WaitGraph :=
  graph.keys.foldl (fun graph source =>
    graph.insert source ((graph.valueAt source).erase txn)) graph

/-- The loop of `RemoveTxn` that drops the empty entries. -/
def eraseEmpty (graph : WaitGraph) : WaitGraph :=
  graph.keys.foldl (fun graph source =>
    if graph.valueAt source = [] then graph.erase source else graph) graph

/-- `RemoveTxn`. -/
def removeTxn (graph : WaitGraph) (txn : TxnId) : WaitGraph :=
  eraseEmpty (eraseTarget (graph.erase txn) txn)

/-- What the search carries along: the sets and vectors `DFSCycle` takes by reference. -/
structure Search where
  visited : Finset TxnId := ∅
  recStack : Finset TxnId := ∅
  path : List TxnId := []
  cycle : List TxnId := []

namespace Search

/-- The first three statements of `DFSCycle`. -/
def enter (search : Search) (node : TxnId) : Search :=
  { search with
    visited := insert node search.visited
    recStack := insert node search.recStack
    path := search.path ++ [node] }

/-- `rec_stack.erase(node); path.pop_back();`. -/
def leave (search : Search) (node : TxnId) : Search :=
  { search with recStack := search.recStack.erase node, path := search.path.dropLast }

/-- The cycle that an edge back to `next` closes: the path from the first `next`
on, and `next` again. -/
def close (search : Search) (next : TxnId) : Search :=
  { search with cycle := search.path.dropWhile (· ≠ next) ++ [next] }

end Search

/-- The loop of `DFSCycle` over the successors of `node`, with the recursive call
as a parameter. A successful recursive call returns at once, without leaving. -/
def dfsSuccessors (recur : TxnId → Search → Option (Bool × Search)) (node : TxnId) :
    List TxnId → Search → Option (Bool × Search)
  | [], search => some (false, search.leave node)
  | next :: rest, search =>
    if next ∉ search.visited then
      match recur next search with
      | none => none
      | some (true, after) => some (true, after)
      | some (false, after) => dfsSuccessors recur node rest after
    else if next ∈ search.recStack then
      some (true, (search.close next).leave node)
    else
      dfsSuccessors recur node rest search

/-- `DFSCycle`. -/
def dfsCycle (graph : WaitGraph) : Nat → TxnId → Search → Option (Bool × Search)
  | 0, _, _ => none
  | fuel + 1, node, search =>
    dfsSuccessors (dfsCycle graph fuel) node (graph.valueAt node) (search.enter node)

/-- The loop over the entries of the graph in `HasDeadlock` and `DetectCycle`. -/
def searchRoots (graph : WaitGraph) (fuel : Nat) : List TxnId → Search → Option (Bool × Search)
  | [], search => some (false, search)
  | root :: rest, search =>
    if root ∉ search.visited then
      match dfsCycle graph fuel root search with
      | none => none
      | some (true, after) => some (true, after)
      | some (false, after) => searchRoots graph fuel rest after
    else
      searchRoots graph fuel rest search

/-- Every transaction that occurs in the graph. -/
def vertices (graph : WaitGraph) : Finset TxnId :=
  (graph.keys ++ graph.entries.flatMap fun entry => entry.2).toFinset

/-- Run the search from every root, with one level of recursion for each vertex. -/
def search (graph : WaitGraph) : Option (Bool × Search) :=
  graph.searchRoots graph.vertices.card graph.keys {}

end WaitGraph

/-- `DeadLockDetector`; `lock_manager_` is stored and never used. -/
structure DeadLockDetector where
  waitGraph : WaitGraph := ∅
  mtx : Mutex := .unlocked

namespace DeadLockDetector

instance : Guarded DeadLockDetector where
  mutex detector := detector.mtx
  setMutex detector mutex := { detector with mtx := mutex }

/-- `DeadLockDetector::AddEdge`. -/
def addEdge (detector : DeadLockDetector) (source target : TxnId) : DeadLockDetector :=
  lockGuard' (fun inner => { inner with waitGraph := inner.waitGraph.addEdge source target })
    detector

/-- `DeadLockDetector::RemoveEdge`. -/
def removeEdge (detector : DeadLockDetector) (source target : TxnId) : DeadLockDetector :=
  lockGuard' (fun inner => { inner with waitGraph := inner.waitGraph.removeEdge source target })
    detector

/-- `DeadLockDetector::RemoveTxn`. -/
def removeTxn (detector : DeadLockDetector) (txn : TxnId) : DeadLockDetector :=
  lockGuard' (fun inner => { inner with waitGraph := inner.waitGraph.removeTxn txn }) detector

/-- `DeadLockDetector::HasDeadlock`. -/
def hasDeadlock (detector : DeadLockDetector) : Option Bool × DeadLockDetector :=
  lockGuard (fun inner => (inner.waitGraph.search.map fun result => result.1, inner)) detector

/-- `DeadLockDetector::DetectCycle`: the answer and the contents of `cycle`, which
is cleared before the search. -/
def detectCycle (detector : DeadLockDetector) : Option (Bool × List TxnId) × DeadLockDetector :=
  lockGuard (fun inner =>
    (inner.waitGraph.search.map fun result => (result.1, result.2.cycle), inner)) detector

/-- `DeadLockDetector::GetVictim`: the largest id on the cycle found. -/
def getVictim (detector : DeadLockDetector) : Option (Option TxnId) × DeadLockDetector :=
  match detector.detectCycle with
  | (none, after) => (none, after)
  | (some (false, _), after) => (some none, after)
  | (some (true, []), after) => (some none, after)
  | (some (true, first :: rest), after) => (some (some ((first :: rest).foldl max first)), after)

/-- The calls that change the wait graph. -/
inductive Call where
  | addEdge (source target : TxnId)
  | removeEdge (source target : TxnId)
  | removeTxn (txn : TxnId)
deriving DecidableEq

/-- One call. -/
def step (detector : DeadLockDetector) : Call → DeadLockDetector
  | .addEdge source target => detector.addEdge source target
  | .removeEdge source target => detector.removeEdge source target
  | .removeTxn txn => detector.removeTxn txn

end DeadLockDetector

end MiniDB.Concurrency
