import MiniDB.Executors.IndexScanExecutor
import MiniDB.Executors.InsertExecutor
import MiniDB.Executors.SortedPairs

/-!
# `Next` without `Init`

An executor that remembers whether it was initialized calls `Init` in its first `Next`,
and `Init` initializes its children. The constructor of a scan does what its `Init` does.
A sort remembers nothing: its `Next` reads the rows that `Init` has collected, and there
are none before.
-/

namespace MiniDB.Executors

open Foundation Buffer PoolProgram Storage Index

variable {E : Type} [Executor E]

/-! ## Executors that initialize themselves -/

/-- An executor with a flag that `Init` sets and that `Next` asks for. -/
structure Lazy (E : Type) [Executor E] where
  isInitialized : E → Bool
  /-- `Next` once it is initialized. -/
  body : Nat → Row → E → PoolProgram (Option (Bool × Row) × E)
  next_lazy : LazyNext isInitialized body
  init_sets : ∀ (fuel : Nat) (executor : E) (pool : BufferPool DiskManager) (after : E),
    (run (Executor.init fuel executor) pool).1 = some after → isInitialized after = true

namespace Lazy

variable (lazy : Lazy E) {executor after : E} {pool later : BufferPool DiskManager}

/-- The first `Next` is `Init` and the `Next` after it. -/
theorem next_fresh (fresh : lazy.isInitialized executor = false) {fuel : Nat}
    (started : run (Executor.init fuel executor) pool = (some after, later)) (row : Row) :
    run (Executor.next fuel row executor) pool = run (Executor.next fuel row after) later := by
  have isSet := lazy.init_sets fuel executor pool after (congrArg Prod.fst started)
  rw [lazy.next_lazy, fresh, lazy.next_lazy fuel row after, isSet]
  simp only [Bool.false_eq_true, if_false, if_true, run_bind, started]

/-- A first `Next` whose `Init` has no defined result has none either. -/
theorem next_fresh_undefined (fresh : lazy.isInitialized executor = false) {fuel : Nat}
    (started : run (Executor.init fuel executor) pool = (none, later)) (row : Row) :
    run (Executor.next fuel row executor) pool = ((none, executor), later) := by
  rw [lazy.next_lazy, fresh]
  simp only [Bool.false_eq_true, if_false, run_bind, started, run_pure]

/-- Draining by `Next` alone gives the rows that `Init` and draining give. -/
theorem drain_fresh (fresh : lazy.isInitialized executor = false) (fuel : Nat) (row : Row)
    (pool : BufferPool DiskManager) :
    (run (drain fuel row executor) pool).1.1 = (run (collect fuel row executor) pool).1.1 := by
  obtain ⟨⟨started, later⟩, ran⟩ : ∃ outcome, run (Executor.init fuel executor) pool = outcome :=
    ⟨_, rfl⟩
  rw [collect, run_bind, ran]
  cases fuel with
  | zero => cases started <;> rfl
  | succ fuel =>
    cases started with
    | none =>
      rw [drain_succ, lazy.next_fresh_undefined fresh ran]
      rfl
    | some after =>
      dsimp only
      rw [drain_succ, drain_succ, lazy.next_fresh fresh ran]

end Lazy

theorem InsertExecutor.next_lazy :
    LazyNext (E := InsertExecutor E) InsertExecutor.initialized InsertExecutor.nextRow := by
  intro fuel row executor
  change InsertExecutor.next fuel row executor = _
  unfold InsertExecutor.next
  congr 2
  funext outcome
  cases outcome <;> rfl

/-- `InsertExecutor` initializes itself. -/
def InsertExecutor.lazy : Lazy (InsertExecutor E) where
  isInitialized := InsertExecutor.initialized
  body := InsertExecutor.nextRow
  next_lazy := InsertExecutor.next_lazy
  init_sets fuel executor pool after started := by
    simp only [Executor.init, InsertExecutor.init] at started
    split at started
    · simp only [run_pure, Option.some.injEq] at started
      rw [← started]
    · simp only [run_bind] at started
      split at started
      · simp at started
      · simp only [run_pure, Option.some.injEq] at started
        rw [← started]

theorem IndexScanExecutor.next_lazy :
    LazyNext IndexScanExecutor.initialized fun _ => IndexScanExecutor.nextRow := by
  intro fuel row executor
  change IndexScanExecutor.next fuel row executor = _
  unfold IndexScanExecutor.next
  congr 2
  funext outcome
  cases outcome <;> rfl

/-- `IndexScanExecutor` initializes itself. -/
def IndexScanExecutor.lazy : Lazy IndexScanExecutor where
  isInitialized := IndexScanExecutor.initialized
  body _ := IndexScanExecutor.nextRow
  next_lazy := IndexScanExecutor.next_lazy
  init_sets fuel executor pool after started := by
    simp only [Executor.init, IndexScanExecutor.init, run_bind] at started
    split at started
    · simp at started
    · simp only [run_pure, Option.some.injEq] at started
      rw [← started]

/-- `MergeExecutor` initializes itself. -/
def MergeExecutor.lazy {Hot Cold : Type} [Executor Hot] [Executor Cold] :
    Lazy (MergeExecutor Hot Cold) where
  isInitialized := MergeExecutor.initialized
  body := MergeExecutor.nextRow
  next_lazy := MergeExecutor.next_lazy
  init_sets fuel executor pool after started := by
    simp only [Executor.init, MergeExecutor.init, run_bind] at started
    split at started
    · simp at started
    · rw [run_bind] at started
      split at started
      · simp at started
      · simp only [run_pure, Option.some.injEq] at started
        rw [← started]

theorem JoinExecutor.nextLeft_initialized {Left Right : Type} [Executor Left] [Executor Right]
    {fuel : Nat} {executor after : JoinExecutor Left Right} {pool : BufferPool DiskManager}
    (moved : (run (executor.nextLeft fuel) pool).1 = some after) :
    after.initialized = executor.initialized := by
  simp only [JoinExecutor.nextLeft, run_bind] at moved
  split at moved
  · simp at moved
  · simp only [run_pure, Option.some.injEq] at moved
    rw [← moved]

/-- `JoinExecutor` initializes itself. -/
def JoinExecutor.lazy {Left Right : Type} [Executor Left] [Executor Right] :
    Lazy (JoinExecutor Left Right) where
  isInitialized := JoinExecutor.initialized
  body := JoinExecutor.nextLoop
  next_lazy := JoinExecutor.next_lazy
  init_sets fuel executor pool after started := by
    simp only [Executor.init, JoinExecutor.init, run_bind] at started
    split at started
    · simp at started
    · rw [run_bind] at started
      split at started
      · simp at started
      · exact JoinExecutor.nextLeft_initialized started

/-- `AggregationExecutor` initializes itself. -/
def AggregationExecutor.lazy : Lazy (AggregationExecutor E) where
  isInitialized := AggregationExecutor.initialized
  body _ row executor := return AggregationExecutor.nextRow row executor
  next_lazy := AggregationExecutor.next_lazy
  init_sets fuel executor pool after started := by
    simp only [Executor.init, AggregationExecutor.init, run_bind] at started
    split at started
    · simp at started
    · rw [run_bind] at started
      split at started
      · simp at started
      · split at started
        · simp at started
        · simp only [run_pure, Option.some.injEq] at started
          rw [← started]

/-! ## A sort -/

section Sorting

variable {sort : StdSort} {sorter : SortExecutor sort E} {fuel : Nat}
  {pool : BufferPool DiskManager}

/-- A sort that was not initialized has no rows. -/
theorem SortExecutor.drain_fresh (fresh : sorter.sorted = []) (row : Row) :
    (run (drain (fuel + 1) row sorter) pool).1.1 = some [] := by
  have ended : run (Executor.next (fuel + 1) row sorter) pool = ((some (false, row), sorter), pool) := by
    rw [SortExecutor.run_next, SortExecutor.next, fresh]
    rfl
  rw [drain_succ, ended]

/-- An initialized sort has no rows exactly when its child has none. -/
theorem SortExecutor.collect_eq_nil_iff (row : Row) :
    (run (collect fuel row sorter) pool).1.1 = some [] ↔
      (run (collect fuel ({}, {}) sorter.child) pool).1.1 = some [] := by
  obtain ⟨⟨⟨reported, child⟩, later⟩, ran⟩ :
      ∃ outcome, run (collect fuel ({}, {}) sorter.child) pool = outcome := ⟨_, rfl⟩
  rw [ran]
  cases reported with
  | none =>
    have undefined : run (Executor.init fuel sorter) pool = (none, later) := by
      rw [SortExecutor.run_init, ran]
    rw [collect, run_bind, undefined]
    exact Iff.rfl
  | some reported =>
    rw [SortExecutor.run_collect row ran]
    constructor
    · intro empty
      obtain ⟨sorted, isSorted, pairs⟩ := Option.map_eq_some_iff.mp empty
      have perm := sortTuples_perm isSorted
      rw [List.map_eq_nil_iff.mp pairs, List.nil_perm, List.map_eq_nil_iff] at perm
      exact congrArg some perm
    · intro empty
      rw [Option.some.inj empty]
      rfl

end Sorting

/-! ## Trees -/

/-- An executor tree of any of the executors. The children of a merge may be null, and
an insertion has a child or a list. Each executor has its own table and indexes. -/
inductive ExecutorTree where
  | seqScan (table : TableHeap) (layerManager : Option LayerManager) (targetLayer : DataLayer)
  | indexScan (index : BPlusTree) (table : TableHeap)
  | insert (table : TableHeap) (indexes : List BPlusTree) (child : ExecutorTree)
  | insertTuples (table : TableHeap) (indexes : List BPlusTree) (tuples : List Tuple)
  | merge (hot cold : ExecutorTree) (hasHot hasCold : Bool)
  | join (left right : ExecutorTree)
  | aggregation (child : ExecutorTree) (aggType : AggregationType) (keyOffset : UInt64)
  | sort (child : ExecutorTree) (keyOffset : UInt64)

namespace ExecutorTree

/-- The type of the tree. -/
def Exec (sort : StdSort) : ExecutorTree → Type
  | seqScan _ _ _ => SeqScanExecutor
  | indexScan _ _ => IndexScanExecutor
  | insert _ _ child => InsertExecutor (child.Exec sort)
  | insertTuples _ _ _ => InsertExecutor SeqScanExecutor
  | merge hot cold _ _ => MergeExecutor (hot.Exec sort) (cold.Exec sort)
  | join left right => JoinExecutor (left.Exec sort) (right.Exec sort)
  | aggregation child _ _ => AggregationExecutor (child.Exec sort)
  | ExecutorTree.sort child _ => SortExecutor sort (child.Exec sort)

instance executor (sort : StdSort) : (tree : ExecutorTree) → Executor (tree.Exec sort)
  | seqScan _ _ _ => inferInstanceAs (Executor SeqScanExecutor)
  | indexScan _ _ => inferInstanceAs (Executor IndexScanExecutor)
  | insert _ _ child =>
    let _ := executor sort child
    inferInstanceAs (Executor (InsertExecutor (child.Exec sort)))
  | insertTuples _ _ _ => inferInstanceAs (Executor (InsertExecutor SeqScanExecutor))
  | merge hot cold _ _ =>
    let _ := executor sort hot
    let _ := executor sort cold
    inferInstanceAs (Executor (MergeExecutor (hot.Exec sort) (cold.Exec sort)))
  | join left right =>
    let _ := executor sort left
    let _ := executor sort right
    inferInstanceAs (Executor (JoinExecutor (left.Exec sort) (right.Exec sort)))
  | aggregation child _ _ =>
    let _ := executor sort child
    inferInstanceAs (Executor (AggregationExecutor (child.Exec sort)))
  | ExecutorTree.sort child _ =>
    let _ := executor sort child
    inferInstanceAs (Executor (SortExecutor sort (child.Exec sort)))

/-- The tree as its constructors leave it. -/
def build (sort : StdSort) : (tree : ExecutorTree) → tree.Exec sort
  | seqScan table layerManager targetLayer =>
    SeqScanExecutor.newLayer table layerManager targetLayer
  | indexScan index table => { index, table : IndexScanExecutor }
  | insert table indexes child =>
    { table, indexes, childExecutor := some (child.build sort) : InsertExecutor _ }
  | insertTuples table indexes tuples =>
    { table, indexes, directInsertTuples := tuples : InsertExecutor SeqScanExecutor }
  | merge hot cold hasHot hasCold =>
    { hotExecutor := if hasHot then some (hot.build sort) else none
      coldExecutor := if hasCold then some (cold.build sort) else none : MergeExecutor _ _ }
  | join left right => { left := left.build sort, right := right.build sort : JoinExecutor _ _ }
  | aggregation child aggType keyOffset =>
    { child := child.build sort, aggType, keyOffset : AggregationExecutor _ }
  | ExecutorTree.sort child keyOffset =>
    { child := child.build sort, keyOffset : SortExecutor _ _ }

/-- Draining the tree by `Next` alone. -/
def rowsByNext (sort : StdSort) (tree : ExecutorTree) (fuel : Nat) (row : Row)
    (pool : BufferPool DiskManager) : Option (List Row) :=
  (run (drain fuel row (tree.build sort)) pool).1.1

/-- `Init`, and then draining the tree. -/
def rowsByInit (sort : StdSort) (tree : ExecutorTree) (fuel : Nat) (row : Row)
    (pool : BufferPool DiskManager) : Option (List Row) :=
  (run (collect fuel row (tree.build sort)) pool).1.1

/-- The root is no sort, or it is a sort whose child has no rows. -/
def NothingToSort (sort : StdSort) (fuel : Nat) (pool : BufferPool DiskManager) :
    ExecutorTree → Prop
  | ExecutorTree.sort child _ => child.rowsByInit sort fuel ({}, {}) pool = some []
  | _ => True

/-- Draining a freshly built tree by `Next` alone gives the rows that `Init` and draining
give, exactly when the root is no sort or has nothing to sort. -/
theorem rowsByNext_eq_iff (sort : StdSort) (tree : ExecutorTree) (fuel : Nat) (row : Row)
    (pool : BufferPool DiskManager) :
    tree.rowsByNext sort (fuel + 1) row pool = tree.rowsByInit sort (fuel + 1) row pool ↔
      tree.NothingToSort sort (fuel + 1) pool := by
  cases tree with
  | seqScan table layerManager targetLayer => exact iff_of_true rfl trivial
  | indexScan index table =>
    exact iff_of_true (IndexScanExecutor.lazy.drain_fresh rfl _ row pool) trivial
  | insert table indexes child =>
    exact iff_of_true (InsertExecutor.lazy.drain_fresh rfl _ row pool) trivial
  | insertTuples table indexes tuples =>
    exact iff_of_true (InsertExecutor.lazy.drain_fresh rfl _ row pool) trivial
  | merge hot cold hasHot hasCold =>
    exact iff_of_true (MergeExecutor.lazy.drain_fresh rfl _ row pool) trivial
  | join left right =>
    exact iff_of_true (JoinExecutor.lazy.drain_fresh rfl _ row pool) trivial
  | aggregation child aggType keyOffset =>
    exact iff_of_true (AggregationExecutor.lazy.drain_fresh rfl _ row pool) trivial
  | sort child keyOffset =>
    have drained : (ExecutorTree.sort child keyOffset).rowsByNext sort (fuel + 1) row pool =
        some [] := SortExecutor.drain_fresh rfl row
    rw [drained, eq_comm]
    exact SortExecutor.collect_eq_nil_iff row

/-- The rows of a table, counted, and the count sorted. -/
def sortedCount : ExecutorTree :=
  .sort (.aggregation (.seqScan { firstPageId := -1, lastPageId := -1 } none .both) .count 0) 0

/-- One row with a count of zero, which `Next` alone never hands out. -/
theorem rowsByNext_sortedCount :
    let pool := BufferPool.new 1 (DiskManager.new (some {}))
    sortedCount.rowsByNext .insertion 9 ({}, {}) pool = some [] ∧
      ∃ row, sortedCount.rowsByInit .insertion 9 ({}, {}) pool = some [row] ∧
        content row = [0, 0, 0, 0] := by
  intro pool
  refine ⟨SortExecutor.drain_fresh rfl _, ?_⟩
  have contents : (sortedCount.rowsByInit .insertion 9 ({}, {}) pool).map (List.map content) =
      some [[0, 0, 0, 0]] := by
    decide +kernel
  obtain ⟨rows, drained, counted⟩ := Option.map_eq_some_iff.mp contents
  obtain ⟨row, rfl, isCount⟩ := List.map_eq_singleton_iff.mp counted
  exact ⟨row, drained, isCount⟩

end ExecutorTree

end MiniDB.Executors
