import MiniDB.Executors.SeqScanExecutor
import MiniDB.Index.IndexIterator

/-!
# The index scan

`IndexScanExecutor` goes over the entries of an index and brings their tuples from
the table. The constructor with a start key does what the other one does.
-/

namespace MiniDB.Executors

open Foundation Buffer PoolProgram Storage Index

/-- `IndexScanExecutor`. -/
structure IndexScanExecutor where
  index : BPlusTree
  table : TableHeap
  indexIter : IndexIterator := {}
  indexEnd : IndexIterator := {}
  initialized : Bool := false

namespace IndexScanExecutor

/-- `IndexScanExecutor::Init`. -/
def init (fuel : Nat) (executor : IndexScanExecutor) : PoolProgram (Option IndexScanExecutor) := do
  match ← executor.index.begin fuel with
  | (none, _) => return none
  | (some leaf, index) =>
    return some { executor with index, indexIter := .atLeaf leaf, indexEnd := BPlusTree.finish
                                initialized := true }

/-- `Next` once it is initialized. -/
def nextRow (row : Row) (executor : IndexScanExecutor) :
    PoolProgram (Option (Bool × Row) × IndexScanExecutor) := do
  if executor.indexIter.equals executor.indexEnd then
    return (some (false, row), executor)
  else
    let currentRid ← executor.indexIter.getRid
    match ← TableHeap.getTuple currentRid row.1 with
    | none => return (none, executor)
    | some (false, tuple) => return (some (false, (tuple, row.2)), executor)
    | some (true, tuple) =>
      let indexIter ← executor.indexIter.advance
      return (some (true, (tuple, currentRid)), { executor with indexIter })

/-- `IndexScanExecutor::Next`. -/
def next (fuel : Nat) (row : Row) (executor : IndexScanExecutor) :
    PoolProgram (Option (Bool × Row) × IndexScanExecutor) := do
  if executor.initialized then
    executor.nextRow row
  else
    match ← executor.init fuel with
    | none => return (none, executor)
    | some executor => executor.nextRow row

instance : Executor IndexScanExecutor where
  init := init
  next := next

end IndexScanExecutor

end MiniDB.Executors
