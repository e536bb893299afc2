import MiniDB.Storage.LayerManager
import MiniDB.Storage.TableIterator

/-!
# Executors and the sequential scan

An executor has `Init` and `Next`. `Next` works on a tuple and a RID of its caller
and says whether it has set them; an outcome of `none` is a call that did not end
within its fuel or has no defined result. `SeqScanExecutor` returns the rows of a
heap, with an optional filter on the layer of the page.
-/

namespace MiniDB.Executors

open Foundation Buffer PoolProgram Storage

/-- What `Next` hands out: the tuple and its RID. -/
abbrev Row := Tuple × RID

/-- `Executor`. -/
class Executor (E : Type) where
  init : (fuel : Nat) → E → PoolProgram (Option E)
  next : (fuel : Nat) → Row → E → PoolProgram (Option (Bool × Row) × E)

/-- `Next` until it returns false, into one tuple and RID: the rows. -/
def drain {E : Type} [Executor E] :
    (fuel : Nat) → Row → E → PoolProgram (Option (List Row) × E)
  | 0, _, executor => return (none, executor)
  | fuel + 1, row, executor => do
    match ← Executor.next (fuel + 1) row executor with
    | (none, executor) => return (none, executor)
    | (some (false, _), executor) => return (some [], executor)
    | (some (true, row), executor) =>
      let (rows, executor) ← drain fuel row executor
      return (rows.map fun rows => row :: rows, executor)

/-- `Init`, and then `Next` until it returns false. -/
def collect {E : Type} [Executor E] (fuel : Nat) (row : Row) (executor : E) :
    PoolProgram (Option (List Row) × E) := do
  match ← Executor.init fuel executor with
  | none => return (none, executor)
  | some executor => drain fuel row executor

/-- `DataLayer`. -/
inductive DataLayer where
  | hot
  | cold
  | both
deriving DecidableEq, Repr

/-- `SeqScanExecutor`. -/
structure SeqScanExecutor where
  table : TableHeap
  iter : TableIterator
  initialized : Bool := true
  layerManager : Option LayerManager := none
  targetLayer : DataLayer := .both

namespace SeqScanExecutor

/-- `SeqScanExecutor::SeqScanExecutor(table)`. -/
def new (table : TableHeap) : SeqScanExecutor := { table, iter := table.begin }

/-- `SeqScanExecutor::SeqScanExecutor(table, layer_mgr, target)`. -/
def newLayer (table : TableHeap) (layerManager : Option LayerManager) (targetLayer : DataLayer) :
    SeqScanExecutor :=
  { table, iter := table.begin, layerManager, targetLayer }

/-- `SeqScanExecutor::Init`. -/
def init (executor : SeqScanExecutor) : SeqScanExecutor :=
  { executor with iter := executor.table.begin, initialized := true }

/-- The page is not of the layer that is asked for. -/
def skips (executor : SeqScanExecutor) (pageId : Int) : Bool :=
  match executor.layerManager, executor.targetLayer with
  | some manager, .hot => !(manager.isPageHot pageId).1
  | some manager, .cold => (manager.isPageHot pageId).1
  | _, _ => false

/-- The loop of `Next`. -/
def nextLoop : (fuel : Nat) → Row → SeqScanExecutor →
    PoolProgram (Option (Bool × Row) × SeqScanExecutor)
  | 0, _, executor => return (none, executor)
  | fuel + 1, row, executor =>
    if executor.iter.equals TableHeap.finish then
      return (some (false, row), executor)
    else do
      match ← executor.iter.deref with
      | none => return (none, executor)
      | some tuple =>
        let rid := executor.iter.currentRid
        let iter ← executor.iter.advance
        let executor := { executor with iter }
        if executor.skips rid.pageId then
          nextLoop fuel (tuple, row.2) executor
        else
          return (some (true, (tuple, rid)), executor)

/-- `SeqScanExecutor::Next`. -/
def next (fuel : Nat) (row : Row) (executor : SeqScanExecutor) :
    PoolProgram (Option (Bool × Row) × SeqScanExecutor) :=
  nextLoop fuel row (if executor.initialized then executor else executor.init)

instance : Executor SeqScanExecutor where
  init _ executor := return some executor.init
  next := next

end SeqScanExecutor

end MiniDB.Executors
