import MiniDB.Executors.QueryOperators
import MiniDB.Executors.Streams

/-!
# The rows of an aggregation and of a sort

Both drain their child in `Init`, and restart if it does. An aggregation hands out one
row with its result, and a sort the tuples of its child in the order of their keys.
What is known of a row is a parameter; it has to fix the key.
-/

namespace MiniDB.Executors

open Foundation Buffer PoolProgram Storage

variable {ready : BufferPool DiskManager → Prop} {View : Type} {view : Row → View} {bound : Nat}
  {fuel : Nat} {row : Row} {pool : BufferPool DiskManager}

variable {E ChildView : Type} [Executor E] {childView : Row → ChildView} {childFits : E → Prop}
  {output : Option (Output ChildView)} {key : ChildView → Option Int}

/-! ## AggregationExecutor -/

/-- The loop of `AggregationExecutor::Init` over values that may not be defined. -/
def Totals.addValues : Totals → List (Option Int) → Option Totals
  | totals, [] => some totals
  | totals, value :: values => do
    let totals ← totals.add (← value)
    totals.addValues values

theorem Totals.addAll_eq (keyOffset : UInt64) (totals : Totals) (tuples : List Tuple) :
    totals.addAll keyOffset tuples =
      totals.addValues (tuples.map fun tuple => intValue tuple keyOffset) := by
  induction tuples generalizing totals with
  | nil => rfl
  | cons tuple tuples ih =>
    simp only [Totals.addAll, List.map_cons, Totals.addValues, ih]

/-- What is left of the totals of an earlier run is not read. -/
theorem Totals.result_addValues (totals : Totals) (aggType : AggregationType)
    (values : List (Option Int)) :
    (({ totals with count := 0, sum := 0, hasValue := false } : Totals).addValues values).map
        (fun totals => totals.result aggType) =
      (({} : Totals).addValues values).map fun totals => totals.result aggType := by
  cases values with
  | nil => cases aggType <;> rfl
  | cons value values => rfl

/-- The value of an aggregation over the rows of its child. -/
def aggregated (key : ChildView → Option Int) (aggType : AggregationType)
    (child : Option (Output ChildView)) : Option Int := do
  let rows ← child.bind Output.drained
  let totals ← ({} : Totals).addValues (rows.map key)
  return totals.result aggType

/-- The single row of an aggregation. -/
def aggregationOutput (key : ChildView → Option Int) (emit : Int → View)
    (aggType : AggregationType) (child : Option (Output ChildView)) : Option (Output View) :=
  (aggregated key aggType child).map fun value => { rows := [emit value], complete := true }

/-- The child fits, and what is computed is fixed. -/
structure AggregationFits (childFits : E → Prop) (aggType : AggregationType) (keyOffset : UInt64)
    (executor : AggregationExecutor E) : Prop where
  child : childFits executor.child
  aggType : executor.aggType = aggType
  keyOffset : executor.keyOffset = keyOffset

variable {aggType : AggregationType} {keyOffset : UInt64} {executor : AggregationExecutor E}

theorem AggregationExecutor.run_init :
    run (Executor.init fuel executor) pool =
      match run (collect fuel ({}, {}) executor.child) pool with
      | ((none, _), later) => (none, later)
      | ((some rows, child), later) =>
        ((({ executor.totals with count := 0, sum := 0, hasValue := false } : Totals).addValues
          (rows.map fun row => intValue row.1 executor.keyOffset)).map fun totals =>
            { executor with child, totals, done := false, initialized := true }, later) := by
  change run (AggregationExecutor.init fuel executor) pool = _
  simp only [AggregationExecutor.init, collect, run_bind]
  rcases run (Executor.init fuel executor.child) pool with ⟨_ | started, later⟩
  · rfl
  · simp only [run_bind]
    rcases run (drain fuel ({}, {}) started) later with ⟨⟨_ | rows, after⟩, later⟩
    · rfl
    · simp only [Totals.addAll_eq, List.map_map, Function.comp_def]
      cases ({ executor.totals with count := 0, sum := 0, hasValue := false } : Totals).addValues
        (rows.map fun row => intValue row.1 executor.keyOffset) <;> rfl

theorem AggregationFits.init (child : Keeps ready childFits)
    (isFit : AggregationFits childFits aggType keyOffset executor) (isReady : ready pool) :
    ready (run (Executor.init fuel executor) pool).2 ∧
      ∀ after, (run (Executor.init fuel executor) pool).1 = some after →
        AggregationFits childFits aggType keyOffset after := by
  have kept := child.collect fuel ({}, {}) isFit.child isReady
  rw [AggregationExecutor.run_init]
  generalize run (collect fuel ({}, {}) executor.child) pool = ran at kept ⊢
  obtain ⟨⟨_ | rows, moved⟩, later⟩ := ran
  · exact ⟨kept.1, fun after started => by simp at started⟩
  · refine ⟨kept.1, fun after started => ?_⟩
    obtain ⟨totals, _, rfl⟩ := Option.map_eq_some_iff.mp started
    exact ⟨kept.2, isFit.aggType, isFit.keyOffset⟩

theorem AggregationExecutor.next_lazy :
    LazyNext (E := AggregationExecutor E) AggregationExecutor.initialized
      fun _ row executor => return AggregationExecutor.nextRow row executor := by
  intro fuel row executor
  change AggregationExecutor.next fuel row executor = _
  unfold AggregationExecutor.next
  congr 2
  funext outcome
  cases outcome <;> rfl

theorem aggregation_keeps (child : Keeps ready childFits) :
    Keeps ready (AggregationFits childFits aggType keyOffset) := by
  refine Keeps.of_lazy AggregationExecutor.next_lazy
    (fun _ _ _ isFit isReady => isFit.init child isReady)
    (fun _ row executor pool isFit isReady => ?_)
  rw [run_pure, AggregationExecutor.nextRow]
  split
  · exact ⟨isReady, isFit⟩
  · exact ⟨isReady, isFit.child, isFit.aggType, isFit.keyOffset⟩

theorem AggregationExecutor.run_next_initialized (initialized : executor.initialized = true) :
    run (Executor.next fuel row executor) pool = (AggregationExecutor.nextRow row executor, pool) := by
  change run (AggregationExecutor.next fuel row executor) pool = _
  rw [AggregationExecutor.next, if_pos initialized, run_pure]

/-- `Init` of an aggregation computes its value. -/
theorem AggregationFits.result_init (keyed : ∀ row, key (childView row) = intValue row.1 keyOffset)
    (child : Restarts ready childView childFits bound output)
    (enough : bound + rowCount output < fuel)
    (isFit : AggregationFits childFits aggType keyOffset executor) (isReady : ready pool) :
    (run (Executor.init fuel executor) pool).1.map (fun after => after.totals.result aggType) =
        aggregated key aggType output ∧
      ∀ after, (run (Executor.init fuel executor) pool).1 = some after →
        after.initialized = true ∧ after.done = false := by
  have collected := child.collect ({}, {}) enough isFit.child isReady
  rw [AggregationExecutor.run_init]
  generalize run (collect fuel ({}, {}) executor.child) pool = ran at collected ⊢
  obtain ⟨⟨_ | rows, moved⟩, later⟩ := ran
  · refine ⟨?_, fun after started => by simp at started⟩
    rw [aggregated, ← collected]
    rfl
  · have sameKeys : rows.map (fun row => intValue row.1 executor.keyOffset) =
        (rows.map childView).map key := by
      simp only [List.map_map, Function.comp_def, keyed, isFit.keyOffset]
    refine ⟨?_, fun after started => ?_⟩
    · have sameResult := Totals.result_addValues executor.totals aggType ((rows.map childView).map key)
      rw [aggregated, ← collected]
      simp only [sameKeys, Option.map_map, Function.comp_def, Option.map_some]
      rw [sameResult, Option.map_eq_bind]
      rfl
    · obtain ⟨totals, _, rfl⟩ := Option.map_eq_some_iff.mp started
      exact ⟨rfl, rfl⟩

/-- An aggregation restarts if its child does. -/
theorem aggregation_restarts {emit : Int → View}
    (keyed : ∀ row, key (childView row) = intValue row.1 keyOffset)
    (emitted : ∀ (row : Row) (value : Int),
      view ({ row.1.setSize 4 with data := (row.1.setSize 4).data.writeInt 0 value }, {}) = emit value)
    (child : Restarts ready childView childFits bound output) :
    Restarts ready view (AggregationFits childFits aggType keyOffset)
      (bound + rowCount output + 1) (aggregationOutput key emit aggType output) where
  keeps := aggregation_keeps child.keeps
  undefined isNone fuel executor pool enough isFit isReady := by
    obtain ⟨result, -⟩ := isFit.result_init keyed child enough isReady
    rw [Option.map_eq_none_iff.mp isNone] at result
    exact Option.map_eq_none_iff.mp result
  starts out defined fuel executor pool enough isFit isReady := by
    obtain ⟨result, fresh⟩ := isFit.result_init keyed child enough isReady
    obtain ⟨value, isValue, rfl⟩ := Option.map_eq_some_iff.mp defined
    rw [isValue] at result
    obtain ⟨after, started, isResult⟩ := Option.map_eq_some_iff.mp result
    obtain ⟨initialized, notDone⟩ := fresh after started
    have fitAfter := (isFit.init child.keeps isReady).2 after started
    refine ⟨after, started, fun fuel row pool _ _ => ?_⟩
    simp only [AggregationExecutor.run_next_initialized initialized, AggregationExecutor.nextRow,
      notDone, Bool.false_eq_true, if_false]
    refine ⟨⟨_, rfl, ?_⟩, fun fuel row pool _ _ => ⟨row, ?_⟩⟩
    · rw [AggregationExecutor.resultRow, fitAfter.aggType, isResult]
      exact emitted row value
    · rw [AggregationExecutor.run_next_initialized]
      · rfl
      · exact initialized

/-! ## SortExecutor -/

variable {sort : StdSort}

/-- What `std::sort` makes of rows; where there are fewer than two, no key is read. -/
def sortedViews (sort : StdSort) (key : ChildView → Option Int) (rows : List ChildView) :
    Option (List ChildView) :=
  if rows.length < 2 then some rows
  else (rows.mapM key).map fun keys => (sort.order keys).filterMap fun index => rows[index]?

/-- The rows of a sort. -/
def sortOutput (sort : StdSort) (key : ChildView → Option Int) (look : ChildView → View)
    (child : Option (Output ChildView)) : Option (Output View) :=
  ((child.bind Output.drained).bind (sortedViews sort key)).map fun sorted =>
    { rows := sorted.map look, complete := true }

theorem length_of_mapM {keys : List Int} {rows : List ChildView}
    (all : rows.mapM key = some keys) : keys.length = rows.length := by
  induction rows generalizing keys with
  | nil =>
    obtain rfl : [] = keys := by simpa using all
    rfl
  | cons row rows ih =>
    obtain ⟨first, _, rest, isRest, rfl⟩ :
        ∃ first, key row = some first ∧ ∃ rest, rows.mapM key = some rest ∧ first :: rest = keys := by
      simpa [List.mapM_cons, Option.bind_eq_some_iff] using all
    simp [ih isRest]

/-- The sorted tuples, seen through what is known of the rows. -/
theorem sortTuples_map {look : ChildView → View}
    (keyed : ∀ row, key (childView row) = intValue row.1 keyOffset)
    (looked : ∀ row, look (childView row) = view (row.1, row.1.rid)) (rows : List Row) :
    (sortTuples sort keyOffset (rows.map Prod.fst)).map
        (List.map fun tuple => view (tuple, tuple.rid)) =
      (sortedViews sort key (rows.map childView)).map (List.map look) := by
  have sameKeys : (rows.map Prod.fst).mapM (fun tuple => intValue tuple keyOffset) =
      (rows.map childView).mapM key := by
    simp only [List.mapM_map, Function.comp_def, keyed]
  unfold sortTuples sortedViews
  rw [List.length_map, List.length_map, sameKeys]
  split
  · simp only [Option.map_some, List.map_map, Function.comp_def, looked]
  · cases all : (rows.map childView).mapM key with
    | none => rfl
    | some keys =>
      have sameLength : keys.length = rows.length := by rw [length_of_mapM all, List.length_map]
      simp only [Option.map_some, Option.some.injEq, List.map_filterMap, List.map_map]
      rw [← List.filterMap_eq_map]
      refine List.filterMap_congr fun index isIndex => ?_
      have inside : index < rows.length := by
        rw [← sameLength]
        exact List.mem_range.mp ((sort.perm keys).mem_iff.mp isIndex)
      simp [inside, looked]

/-- The child fits, and the key is fixed. -/
structure SortFits (sort : StdSort) (childFits : E → Prop) (keyOffset : UInt64)
    (executor : SortExecutor sort E) : Prop where
  child : childFits executor.child
  keyOffset : executor.keyOffset = keyOffset

variable {sorter : SortExecutor sort E}

theorem SortExecutor.run_init :
    run (Executor.init fuel sorter) pool =
      match run (collect fuel ({}, {}) sorter.child) pool with
      | ((none, _), later) => (none, later)
      | ((some rows, child), later) =>
        ((sortTuples sort sorter.keyOffset (rows.map Prod.fst)).map fun sorted =>
          { sorter with child, sorted, cursor := 0 }, later) := by
  change run (SortExecutor.init fuel sorter) pool = _
  simp only [SortExecutor.init, collect, run_bind]
  rcases run (Executor.init fuel sorter.child) pool with ⟨_ | started, later⟩
  · rfl
  · simp only [run_bind]
    rcases run (drain fuel ({}, {}) started) later with ⟨⟨_ | rows, after⟩, later⟩
    · rfl
    · dsimp only
      cases sortTuples sort sorter.keyOffset (rows.map Prod.fst) <;> rfl

theorem SortExecutor.run_next :
    run (Executor.next fuel row sorter) pool = (SortExecutor.next row sorter, pool) :=
  rfl

theorem sort_keeps (child : Keeps ready childFits) :
    Keeps ready (SortFits sort childFits keyOffset) where
  init fuel sorter pool isFit isReady := by
    have kept := child.collect fuel ({}, {}) isFit.child isReady
    rw [SortExecutor.run_init]
    generalize run (collect fuel ({}, {}) sorter.child) pool = ran at kept ⊢
    obtain ⟨⟨_ | rows, moved⟩, later⟩ := ran
    · exact ⟨kept.1, fun after started => by simp at started⟩
    · refine ⟨kept.1, fun after started => ?_⟩
      obtain ⟨sorted, _, rfl⟩ := Option.map_eq_some_iff.mp started
      exact ⟨kept.2, isFit.keyOffset⟩
  next fuel row sorter pool isFit isReady := by
    rw [SortExecutor.run_next, SortExecutor.next]
    split
    · exact ⟨isReady, isFit⟩
    · exact ⟨isReady, isFit.child, isFit.keyOffset⟩

/-- A sort hands out what it has sorted, from its cursor on. -/
theorem sort_streams {rest : List Tuple} (isRest : sorter.sorted.drop sorter.cursor = rest) :
    Streams ready view bound true (rest.map fun tuple => view (tuple, tuple.rid)) sorter := by
  induction rest generalizing sorter with
  | nil =>
    intro fuel row pool _ _
    have beyond : sorter.sorted[sorter.cursor]? = none :=
      List.getElem?_eq_none (List.drop_eq_nil_iff.mp isRest)
    rw [SortExecutor.run_next, SortExecutor.next, beyond]
    exact ⟨row, rfl⟩
  | cons tuple rest ih =>
    intro fuel row pool _ _
    have found : sorter.sorted[sorter.cursor]? = some tuple := by
      rw [← List.head?_drop, isRest, List.head?_cons]
    rw [SortExecutor.run_next, SortExecutor.next, found]
    refine ⟨⟨_, rfl, rfl⟩, ih ?_⟩
    rw [← List.drop_drop, isRest]
    rfl

/-- `Init` of a sort sorts the rows of its child. -/
theorem SortFits.sorted_init {look : ChildView → View}
    (keyed : ∀ row, key (childView row) = intValue row.1 keyOffset)
    (looked : ∀ row, look (childView row) = view (row.1, row.1.rid))
    (child : Restarts ready childView childFits bound output)
    (enough : bound + rowCount output < fuel) (isFit : SortFits sort childFits keyOffset sorter)
    (isReady : ready pool) :
    (run (Executor.init fuel sorter) pool).1.map
        (fun after => after.sorted.map fun tuple => view (tuple, tuple.rid)) =
        ((output.bind Output.drained).bind (sortedViews sort key)).map (List.map look) ∧
      ∀ after, (run (Executor.init fuel sorter) pool).1 = some after → after.cursor = 0 := by
  have collected := child.collect ({}, {}) enough isFit.child isReady
  rw [SortExecutor.run_init]
  generalize run (collect fuel ({}, {}) sorter.child) pool = ran at collected ⊢
  obtain ⟨⟨_ | rows, moved⟩, later⟩ := ran
  · refine ⟨?_, fun after started => by simp at started⟩
    rw [← collected]
    rfl
  · refine ⟨?_, fun after started => ?_⟩
    · rw [← collected]
      simp only [Option.map_some, Option.bind_some, Option.map_map, Function.comp_def]
      rw [← sortTuples_map keyed looked rows, isFit.keyOffset]
    · obtain ⟨sorted, _, rfl⟩ := Option.map_eq_some_iff.mp started
      rfl

/-- A sort restarts if its child does. -/
theorem sort_restarts {look : ChildView → View}
    (keyed : ∀ row, key (childView row) = intValue row.1 keyOffset)
    (looked : ∀ row, look (childView row) = view (row.1, row.1.rid))
    (child : Restarts ready childView childFits bound output) :
    Restarts ready view (SortFits sort childFits keyOffset) (bound + rowCount output + 1)
      (sortOutput sort key look output) where
  keeps := sort_keeps child.keeps
  undefined isNone fuel sorter pool enough isFit isReady := by
    obtain ⟨result, -⟩ := isFit.sorted_init keyed looked child enough isReady
    rw [Option.map_eq_none_iff.mp isNone] at result
    exact Option.map_eq_none_iff.mp result
  starts out defined fuel sorter pool enough isFit isReady := by
    obtain ⟨result, atStart⟩ := isFit.sorted_init keyed looked child enough isReady
    obtain ⟨sorted, isSorted, rfl⟩ := Option.map_eq_some_iff.mp defined
    rw [isSorted] at result
    obtain ⟨after, started, isResult⟩ := Option.map_eq_some_iff.mp result
    refine ⟨after, started, ?_⟩
    rw [← isResult]
    refine sort_streams ?_
    rw [atStart after started, List.drop_zero]

end MiniDB.Executors
