import MiniDB.Executors.SeqScanExecutor
import MiniDB.Index.BPlusTree

/-!
# The insertion

`InsertExecutor` inserts the rows of a child executor, or those of a list, into a
table and its indexes. It holds the table and the indexes by value, so the indexes
of one executor are different trees. What `Insert` of an index returns is ignored.
-/

namespace MiniDB.Executors

open Foundation Buffer PoolProgram Storage Index

/-- `BATCH_INSERT_SIZE`. -/
def batchInsertSize : Nat := 1000

/-- `InsertExecutor`, with a child of the given kind or none. -/
structure InsertExecutor (E : Type) where
  table : TableHeap
  indexes : List BPlusTree
  childExecutor : Option E := none
  directInsertTuples : List Tuple := []
  directInsertIndex : Nat := 0
  initialized : Bool := false
  finished : Bool := false
  batchCount : Nat := 0

namespace InsertExecutor

variable {E : Type} [Executor E]

/-- `InsertExecutor::Init`. -/
def init (fuel : Nat) (executor : InsertExecutor E) : PoolProgram (Option (InsertExecutor E)) := do
  match executor.childExecutor with
  | none => return some { executor with initialized := true, finished := false }
  | some child =>
    match ← Executor.init fuel child with
    | none => return none
    | some child =>
      return some { executor with childExecutor := some child, initialized := true, finished := false }

/-- The tuple that is inserted next, if there is one. -/
def takeTuple (fuel : Nat) (executor : InsertExecutor E) :
    PoolProgram (Option (Option Tuple) × InsertExecutor E) :=
  match executor.childExecutor with
  | some child => do
    match ← Executor.next fuel ({}, {}) child with
    | (none, child) => return (none, { executor with childExecutor := some child })
    | (some (hasTuple, row), child) =>
      return (some (if hasTuple then some row.1 else none),
        { executor with childExecutor := some child })
  | none =>
    match executor.directInsertTuples[executor.directInsertIndex]? with
    | none => return (some none, executor)
    | some tuple =>
      return (some (some tuple),
        { executor with directInsertIndex := executor.directInsertIndex + 1 })

/-- `InsertExecutor::ExtractKeyFromTuple`. -/
def extractKeyFromTuple (tuple : Tuple) : Int := tuple.getIntValue 0

/-- A row more in the batch, which is flushed when it is complete. -/
def countRow (executor : InsertExecutor E) : PoolProgram (InsertExecutor E) := do
  let batchCount := executor.batchCount + 1
  if batchInsertSize ≤ batchCount then
    TableHeap.flushBatch
    return { executor with batchCount := 0 }
  else
    return { executor with batchCount }

/-- `Insert` into one index after another. `none` is one that did not return. -/
def insertEach (fuel : Nat) (key : Int) (rid : RID) :
    List BPlusTree → PoolProgram (Option (List BPlusTree))
  | [] => return some []
  | index :: indexes => do
    match ← index.insert fuel key rid with
    | (none, _) => return none
    | (some _, index) =>
      let indexes ← insertEach fuel key rid indexes
      return indexes.map fun indexes => index :: indexes

/-- The tuple goes into the table and the indexes. -/
def insertRow (fuel : Nat) (row : Row) (insertTuple : Tuple) (executor : InsertExecutor E) :
    PoolProgram (Option (Bool × Row) × InsertExecutor E) := do
  match ← executor.table.insertTuple insertTuple with
  | (none, table) => return (some (false, row), { executor with table })
  | (some insertedRid, table) =>
    let executor ← countRow { executor with table }
    let key := extractKeyFromTuple insertTuple
    match ← insertEach fuel key insertedRid executor.indexes with
    | none => return (none, executor)
    | some indexes => return (some (true, (insertTuple, insertedRid)), { executor with indexes })

/-- `Next` once it is initialized. -/
def nextRow (fuel : Nat) (row : Row) (executor : InsertExecutor E) :
    PoolProgram (Option (Bool × Row) × InsertExecutor E) := do
  if executor.finished then
    return (some (false, row), executor)
  else
    match ← executor.takeTuple fuel with
    | (none, executor) => return (none, executor)
    | (some none, executor) => return (some (false, row), { executor with finished := true })
    | (some (some insertTuple), executor) => executor.insertRow fuel row insertTuple

/-- `InsertExecutor::Next`. -/
def next (fuel : Nat) (row : Row) (executor : InsertExecutor E) :
    PoolProgram (Option (Bool × Row) × InsertExecutor E) := do
  if executor.initialized then
    executor.nextRow fuel row
  else
    match ← executor.init fuel with
    | none => return (none, executor)
    | some executor => executor.nextRow fuel row

instance : Executor (InsertExecutor E) where
  init := init
  next := next

end InsertExecutor

end MiniDB.Executors
