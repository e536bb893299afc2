import Mathlib.Data.List.Sort
import MiniDB.Executors.GatherStreams
import MiniDB.Executors.JoinStreams
import MiniDB.Executors.LayeredScan

/-!
# Executor trees start over

A `Plan` is the shape of an executor tree, and `Plan.build` the tree as its
constructors leave it. What a tree hands out is a function of the shape and of the
pages alone: `Plan.output` computes it from the contents of tuples, the bytes up to
their size. Whatever calls were made before, `Init` leads back to its start.
-/

namespace MiniDB.Executors

open Foundation Buffer PoolProgram Storage

/-! ## The contents of tuples -/

/-- The bytes of a tuple up to its size. -/
def content (row : Row) : List UInt8 := (List.range row.1.size).map row.1.data

/-- A tuple with these bytes. -/
def ofContent (bytes : List UInt8) : Tuple :=
  { data := fun index => bytes.getD index 0, size := bytes.length }

/-- `GetIntValue` of a tuple with these bytes. -/
def contentKey (keyOffset : UInt64) (bytes : List UInt8) : Option Int :=
  intValue (ofContent bytes) keyOffset

/-- What a join makes of two tuples with these bytes. -/
def joinContent (left right : List UInt8) : Option (List UInt8) :=
  if Tuple.maxSize < left.length then none
  else some (left ++ right.take (Tuple.maxSize - left.length))

/-- The bytes of an `int`. -/
def intContent (value : Int) : List UInt8 := (List.range 4).map (Bytes.intByte value)

theorem length_content (row : Row) : (content row).length = row.1.size := by simp [content]

theorem getElem?_content (row : Row) {index : Nat} (inside : index < row.1.size) :
    (content row)[index]? = some (row.1.data index) := by
  simp [content, inside]

/-- The key of a tuple depends on its content only. -/
theorem contentKey_content (keyOffset : UInt64) (row : Row) :
    contentKey keyOffset (content row) = intValue row.1 keyOffset := by
  unfold contentKey intValue ofContent
  simp only [length_content]
  by_cases inside : (keyOffset + 4).toNat ≤ row.1.size
  · rw [if_pos inside, if_pos inside]
    by_cases small : keyOffset.toNat + 4 ≤ Tuple.maxSize
    · rw [if_pos small, if_pos small]
      have noWrap : (keyOffset + 4).toNat = keyOffset.toNat + 4 := by
        rw [UInt64.toNat_add]
        refine Nat.mod_eq_of_lt ?_
        unfold Tuple.maxSize at small
        simp only [UInt64.toNat_ofNat]
        omega
      refine congrArg some (Bytes.readInt_congr fun i isByte => ?_)
      rw [List.getD_eq_getElem?_getD, getElem?_content row (by omega)]
      rfl
    · rw [if_neg small, if_neg small]
  · rw [if_neg inside, if_neg inside]

/-- The content of a join depends on the contents of the two rows only. -/
theorem joinTuple_content (target : Tuple) (left right : Row) (rid : RID) :
    (joinTuple target left.1 right.1).map (fun tuple => content (tuple, rid)) =
      joinContent (content left) (content right) := by
  unfold joinTuple joinContent
  rw [length_content]
  by_cases large : Tuple.maxSize < left.1.size
  · rw [if_pos large, if_pos large]
    rfl
  · rw [if_neg large, if_neg large]
    have copied : (if left.1.size + right.1.size ≤ Tuple.maxSize then right.1.size
        else Tuple.maxSize - left.1.size) = min (Tuple.maxSize - left.1.size) right.1.size := by
      split <;> omega
    have fits : left.1.size + min (Tuple.maxSize - left.1.size) right.1.size ≤ Tuple.maxSize := by
      omega
    simp only [copied, Option.map_some, content, Tuple.setSize, if_pos fits, List.range_add,
      List.map_append, List.map_map, ← List.map_take, List.take_range]
    congr 2
    · refine List.map_congr_left fun index inside => ?_
      rw [Bytes.copy_outside (.inl (List.mem_range.mp inside)), ← Nat.zero_add index,
        Bytes.copy_inside (List.mem_range.mp inside), Nat.zero_add]
    · exact List.map_congr_left fun index inside => Bytes.copy_inside (List.mem_range.mp inside)

/-- The content of the row of an aggregation. -/
theorem content_result (row : Row) (value : Int) :
    content ({ row.1.setSize 4 with data := (row.1.setSize 4).data.writeInt 0 value }, {}) =
      intContent value := by
  have size : (row.1.setSize 4).size = 4 := by
    rw [Tuple.setSize, if_pos (by decide)]
  unfold content intContent
  simp only [size]
  refine List.map_congr_left fun index inside => ?_
  rw [Bytes.writeInt, ← Nat.zero_add index, Bytes.copy_inside (List.mem_range.mp inside),
    Nat.zero_add]

/-! ## Plans -/

/-- The shape of an executor tree. The children of a merge may be null. -/
inductive Plan where
  | seqScan (table : TableHeap) (layerManager : Option LayerManager) (targetLayer : DataLayer)
  | merge (hot cold : Plan) (hasHot hasCold : Bool)
  | join (left right : Plan)
  | aggregation (child : Plan) (aggType : AggregationType) (keyOffset : UInt64)
  | sort (child : Plan) (keyOffset : UInt64)

namespace Plan

/-- The type of the tree. -/
def Exec (sort : StdSort) : Plan → Type
  | seqScan _ _ _ => SeqScanExecutor
  | merge hot cold _ _ => MergeExecutor (hot.Exec sort) (cold.Exec sort)
  | join left right => JoinExecutor (left.Exec sort) (right.Exec sort)
  | aggregation child _ _ => AggregationExecutor (child.Exec sort)
  | Plan.sort child _ => SortExecutor sort (child.Exec sort)

instance executor (sort : StdSort) : (plan : Plan) → Executor (plan.Exec sort)
  | seqScan _ _ _ => inferInstanceAs (Executor SeqScanExecutor)
  | merge hot cold _ _ =>
    let _ := executor sort hot
    let _ := executor sort cold
    inferInstanceAs (Executor (MergeExecutor (hot.Exec sort) (cold.Exec sort)))
  | join left right =>
    let _ := executor sort left
    let _ := executor sort right
    inferInstanceAs (Executor (JoinExecutor (left.Exec sort) (right.Exec sort)))
  | aggregation child _ _ =>
    let _ := executor sort child
    inferInstanceAs (Executor (AggregationExecutor (child.Exec sort)))
  | Plan.sort child _ =>
    let _ := executor sort child
    inferInstanceAs (Executor (SortExecutor sort (child.Exec sort)))

/-- The tree as its constructors leave it. -/
def build (sort : StdSort) : (plan : Plan) → plan.Exec sort
  | seqScan table layerManager targetLayer =>
    SeqScanExecutor.newLayer table layerManager targetLayer
  | merge hot cold hasHot hasCold =>
    { hotExecutor := if hasHot then some (hot.build sort) else none
      coldExecutor := if hasCold then some (cold.build sort) else none : MergeExecutor _ _ }
  | join left right => { left := left.build sort, right := right.build sort : JoinExecutor _ _ }
  | aggregation child aggType keyOffset =>
    { child := child.build sort, aggType, keyOffset : AggregationExecutor _ }
  | Plan.sort child keyOffset => { child := child.build sort, keyOffset : SortExecutor _ _ }

/-- The tables that the tree reads. -/
def tables : Plan → List TableHeap
  | seqScan table _ _ => [table]
  | merge hot cold _ _ => hot.tables ++ cold.tables
  | join left right => left.tables ++ right.tables
  | aggregation child _ _ => child.tables
  | Plan.sort child _ => child.tables

/-- The contents of the tuples that the tree hands out, given the bytes of the pages. -/
def output (sort : StdSort) (pages : Int → Bytes) : Plan → Option (Output (List UInt8))
  | seqScan table layerManager targetLayer =>
    let rows := (tableOutput table (pages table.firstPageId)).filter
      (keepsRow layerManager targetLayer)
    some { rows with rows := rows.rows.map content }
  | merge hot cold hasHot hasCold =>
    mergeOutput
      (if hasHot then hot.output sort pages else some { rows := [], complete := true })
      (if hasCold then cold.output sort pages else some { rows := [], complete := true })
  | join left right => joinOutput joinContent (left.output sort pages) (right.output sort pages)
  | aggregation child aggType keyOffset =>
    aggregationOutput (contentKey keyOffset) intContent aggType (child.output sort pages)
  | Plan.sort child keyOffset =>
    sortOutput sort (contentKey keyOffset) id (child.output sort pages)

/-- Enough fuel for each call. -/
def bound (sort : StdSort) (pages : Int → Bytes) : Plan → Nat
  | seqScan table _ _ => slotCount (pages table.firstPageId) + 1
  | merge hot cold _ _ => hot.bound sort pages + cold.bound sort pages
  | join left right =>
    left.bound sort pages + right.bound sort pages + rowCount (left.output sort pages) + 2
  | aggregation child _ _ => child.bound sort pages + rowCount (child.output sort pages) + 1
  | Plan.sort child _ => child.bound sort pages + rowCount (child.output sort pages) + 1

/-- A tree of this shape, in any state that calls can lead to. -/
def Fits (sort : StdSort) (pages : Int → Bytes) : (plan : Plan) → plan.Exec sort → Prop
  | seqScan table layerManager targetLayer =>
    ScanFits table (pages table.firstPageId) layerManager targetLayer
  | merge hot cold hasHot hasCold =>
    MergeFits (if hasHot then ChildFits (hot.Fits sort pages) else fun child => child = none)
      (if hasCold then ChildFits (cold.Fits sort pages) else fun child => child = none)
  | join left right => JoinFits (left.Fits sort pages) (right.Fits sort pages)
  | aggregation child aggType keyOffset =>
    AggregationFits (child.Fits sort pages) aggType keyOffset
  | Plan.sort child keyOffset => SortFits sort (child.Fits sort pages) keyOffset

variable {sort : StdSort} {pages : Int → Bytes} {ready : BufferPool DiskManager → Prop}

/-- A child of a merge that may be null. -/
theorem child_restarts {plan : Plan} {limit : Nat} (present : Bool)
    (restarts : Restarts ready content (plan.Fits sort pages) limit (plan.output sort pages)) :
    Restarts ready content
      (if present then ChildFits (plan.Fits sort pages) else fun child => child = none) limit
      (if present then plan.output sort pages else some { rows := [], complete := true }) := by
  cases present with
  | true => exact restarts.child
  | false => exact null_restarts

/-- `Init` brings a tree back to the start of its output. -/
theorem restarts (plan : Plan)
    (delivers : ∀ table ∈ plan.tables, 0 ≤ table.firstPageId →
      Delivers ready table.firstPageId (pages table.firstPageId)) :
    Restarts ready content (plan.Fits sort pages) (plan.bound sort pages)
      (plan.output sort pages) := by
  induction plan with
  | seqScan table layerManager targetLayer =>
    exact (scan_restarts layerManager targetLayer
      (delivers table (List.mem_singleton.mpr rfl))).map content
  | merge hot cold hasHot hasCold hotRestarts coldRestarts =>
    have fromHot := hotRestarts fun table member =>
      delivers table (List.mem_append.mpr (.inl member))
    have fromCold := coldRestarts fun table member =>
      delivers table (List.mem_append.mpr (.inr member))
    exact merge_restarts (child_restarts hasHot (fromHot.mono (Nat.le_add_right _ _)))
      (child_restarts hasCold (fromCold.mono (Nat.le_add_left _ _)))
  | join left right leftRestarts rightRestarts =>
    have fromLeft := leftRestarts fun table member =>
      delivers table (List.mem_append.mpr (.inl member))
    have fromRight := rightRestarts fun table member =>
      delivers table (List.mem_append.mpr (.inr member))
    exact join_restarts
      (fun target leftRow rightRow => joinTuple_content target leftRow rightRow leftRow.1.rid)
      (fromLeft.mono (Nat.le_add_right _ _)) (fromRight.mono (Nat.le_add_left _ _))
  | aggregation child aggType keyOffset childRestarts =>
    exact aggregation_restarts (contentKey_content keyOffset) content_result
      (childRestarts delivers)
  | sort child keyOffset childRestarts =>
    exact sort_restarts (contentKey_content keyOffset) (fun row => rfl) (childRestarts delivers)

/-- The tree as its constructors leave it fits. -/
theorem fits_build (plan : Plan) : plan.Fits sort pages (plan.build sort) := by
  induction plan with
  | seqScan table layerManager targetLayer => exact ScanFits.new ..
  | merge hot cold hasHot hasCold hotFits coldFits =>
    refine MergeFits.mk ?_ ?_
    · cases hasHot with
      | true => exact ⟨_, rfl, hotFits⟩
      | false => rfl
    · cases hasCold with
      | true => exact ⟨_, rfl, coldFits⟩
      | false => rfl
  | join left right leftFits rightFits => exact JoinFits.mk leftFits rightFits
  | aggregation child aggType keyOffset childFits => exact AggregationFits.mk childFits rfl rfl
  | sort child keyOffset childFits => exact SortFits.mk childFits rfl

/-- The contents that draining the tree gives. -/
def contents (sort : StdSort) (pages : Int → Bytes) (plan : Plan) : Option (List (List UInt8)) :=
  (plan.output sort pages).bind Output.drained

end Plan

/-! ## Starting over -/

/-- A call of an executor. -/
inductive Call where
  | init (fuel : Nat)
  | next (fuel : Nat) (row : Row)

/-- The executor after some calls. -/
def afterCalls {E : Type} [Executor E] : List Call → E → PoolProgram E
  | [], executor => return executor
  | .init fuel :: calls, executor => do
    match ← Executor.init fuel executor with
    | none => afterCalls calls executor
    | some executor => afterCalls calls executor
  | .next fuel row :: calls, executor => do
    let (_, executor) ← Executor.next fuel row executor
    afterCalls calls executor

/-- Calls keep the pool ready and the executor fit. -/
theorem Keeps.afterCalls {E : Type} [Executor E] {ready : BufferPool DiskManager → Prop}
    {fits : E → Prop} (keeps : Keeps ready fits) (calls : List Call) {executor : E}
    {pool : BufferPool DiskManager} (isFit : fits executor) (isReady : ready pool) :
    ready (run (afterCalls calls executor) pool).2 ∧
      fits (run (afterCalls calls executor) pool).1 := by
  induction calls generalizing executor pool with
  | nil => exact ⟨isReady, isFit⟩
  | cons call calls ih =>
    cases call with
    | init fuel =>
      have kept := keeps.init fuel executor pool isFit isReady
      simp only [MiniDB.Executors.afterCalls, run_bind]
      generalize run (Executor.init fuel executor) pool = ran at kept ⊢
      obtain ⟨_ | after, later⟩ := ran
      · exact ih isFit kept.1
      · exact ih (kept.2 after rfl) kept.1
    | next fuel row =>
      have kept := keeps.next fuel row executor pool isFit isReady
      simp only [MiniDB.Executors.afterCalls, run_bind]
      exact ih kept.2 kept.1

/-- Whatever calls of `Init` and `Next` were made before, `Init` and draining give the
contents that a freshly built tree gives. They are undefined only where reading a tuple
leads outside of it or a total overflows. -/
theorem restart_contents (sort : StdSort) (plan : Plan) (pages : Int → Bytes)
    (ready : BufferPool DiskManager → Prop)
    (delivers : ∀ table ∈ plan.tables, 0 ≤ table.firstPageId →
      Delivers ready table.firstPageId (pages table.firstPageId))
    (calls : List Call) (fuel : Nat)
    (enough : plan.bound sort pages + rowCount (plan.output sort pages) < fuel)
    (row freshRow : Row) (pool freshPool : BufferPool DiskManager) (isReady : ready pool)
    (isFreshReady : ready freshPool) :
    let before := run (afterCalls calls (plan.build sort)) pool
    (run (collect fuel row before.1) before.2).1.1.map (List.map content) =
        plan.contents sort pages ∧
      (run (collect fuel freshRow (plan.build sort)) freshPool).1.1.map (List.map content) =
        plan.contents sort pages := by
  intro before
  have restarts := @Plan.restarts sort pages ready plan delivers
  obtain ⟨readyBefore, fitBefore⟩ :=
    restarts.keeps.afterCalls calls (Plan.fits_build plan) isReady
  exact ⟨restarts.collect row enough fitBefore readyBefore,
    restarts.collect freshRow enough (Plan.fits_build plan) isFreshReady⟩

/-- Keys in order, and equal keys in the order of their positions. -/
def StdSort.insertion : StdSort where
  order keys := (List.range keys.length).insertionSort fun first second =>
    keys.getD first 0 ≤ keys.getD second 0
  perm keys := List.perm_insertionSort _ _
  sorted keys := by
    have total : Std.Total fun first second => keys.getD first 0 ≤ keys.getD second 0 :=
      ⟨fun first second => Int.le_total _ _⟩
    have trans : IsTrans Nat fun first second => keys.getD first 0 ≤ keys.getD second 0 :=
      ⟨fun first second third => Int.le_trans⟩
    exact List.pairwise_map.mpr (List.pairwise_insertionSort _ _)

/-- The rows of a table, each joined with their number, in the order of a key. -/
def Plan.countedRows (table : TableHeap) (manager : LayerManager) : Plan :=
  .sort (.join (.merge (.seqScan table (some manager) .hot) (.seqScan table (some manager) .cold)
    true true) (.aggregation (.seqScan table none .both) .count 0)) 0

/-- Two rows on a hot page, after a first run was left in the middle. -/
theorem restart_contents_countedRows :
    let outcome := run (fill [HeapHistory.intPair 20 8, HeapHistory.intPair 12 8])
      (BufferPool.new 1 (DiskManager.new (some {})))
    let plan := Plan.countedRows { firstPageId := 0, lastPageId := 0 } { hotPageIds := {0} }
    let before := run (afterCalls [.init 60, .next 60 ({}, {})] (plan.build .insertion)) outcome.2
    outcome.1.2 = { firstPageId := 0, lastPageId := 0 } ∧
      (run (collect 60 ({}, {}) before.1) before.2).1.1.map (List.map content) =
        some [[12, 0, 0, 0, 8, 0, 0, 0, 2, 0, 0, 0], [20, 0, 0, 0, 8, 0, 0, 0, 2, 0, 0, 0]] := by
  have settled : (BufferPool.new 1 (DiskManager.new (some {}))).frames.Settled :=
    Frames.settled_empty _ (by decide)
  obtain ⟨isReady, deliversFirst⟩ := delivers_fill settled (by decide +kernel)
    ((fitAll_iff [HeapHistory.intPair 20 8, HeapHistory.intPair 12 8] (List.cons_ne_nil _ _) _ _).mpr
      (by decide))
  have heap : (run (fill [HeapHistory.intPair 20 8, HeapHistory.intPair 12 8])
      (BufferPool.new 1 (DiskManager.new (some {})))).1.2 =
        { firstPageId := 0, lastPageId := 0 } := by
    decide +kernel
  generalize run (fill [HeapHistory.intPair 20 8, HeapHistory.intPair 12 8])
    (BufferPool.new 1 (DiskManager.new (some {}))) = outcome at isReady deliversFirst heap ⊢
  rw [heap] at deliversFirst
  have delivers : ∀ table ∈ (Plan.countedRows { firstPageId := 0, lastPageId := 0 }
        { hotPageIds := {0} }).tables, 0 ≤ table.firstPageId →
      Delivers (Holding outcome.2.frames.contents) table.firstPageId
        (firstPageOf [HeapHistory.intPair 20 8, HeapHistory.intPair 12 8]) := by
    intro table member _
    obtain rfl : table = { firstPageId := 0, lastPageId := 0 } := by
      simpa [Plan.countedRows, Plan.tables] using member
    exact deliversFirst
  have restarted := (restart_contents .insertion
    (Plan.countedRows { firstPageId := 0, lastPageId := 0 } { hotPageIds := {0} })
    (fun _ => firstPageOf [HeapHistory.intPair 20 8, HeapHistory.intPair 12 8]) _ delivers
    [.init 60, .next 60 ({}, {})] 60 (by decide +kernel) ({}, {}) ({}, {}) outcome.2 outcome.2
    isReady isReady).1
  refine ⟨heap, restarted.trans ?_⟩
  decide +kernel

end MiniDB.Executors
