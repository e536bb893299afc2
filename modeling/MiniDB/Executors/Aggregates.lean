import Mathlib.Algebra.Order.BigOperators.Group.List
import Mathlib.Algebra.Ring.Int.Defs
import Mathlib.Order.Bounds.Basic
import MiniDB.Executors.Restart

/-!
# The values of aggregations

Of fewer than 2^31 `int` values the count, the extremes and the truncated average are
`int` values again, and the 64-bit total does not overflow. The total itself is handed
out as an `int`, and need not be one.
-/

namespace MiniDB.Executors

open Foundation Buffer PoolProgram Storage

/-! ## What is aggregated -/

/-- The value that an aggregation of these values stands for. -/
def Aggregates (values : List Int) : AggregationType → Int → Prop
  | .count, value => value = values.length
  | .sum, value => value = values.sum
  | .avg, value => value = if values = [] then 0 else values.sum.tdiv values.length
  | .min, value => if values = [] then value = 0 else IsLeast {other | other ∈ values} value
  | .max, value => if values = [] then value = 0 else IsGreatest {other | other ∈ values} value

section Values

variable {values : List Int} {value low high : Int} {tuple : Tuple} {keyOffset : UInt64}

theorem isInt_intValue (read : intValue tuple keyOffset = some value) : IsInt value := by
  unfold intValue at read
  split at read
  · split at read
    · obtain rfl := Option.some.inj read
      exact Bytes.readInt_range _ _
    · simp at read
  · obtain rfl := Option.some.inj read
    decide

/-- Up to an offset of the largest size, `GetIntValue` stays inside its tuple. -/
theorem exists_intValue (sized : tuple.size ≤ Tuple.maxSize)
    (inside : keyOffset.toNat ≤ Tuple.maxSize) : ∃ value, intValue tuple keyOffset = some value := by
  have noWrap : (keyOffset + 4).toNat = keyOffset.toNat + 4 := by
    rw [UInt64.toNat_add]
    unfold Tuple.maxSize at inside
    simp only [UInt64.toNat_ofNat]
    omega
  unfold intValue
  split
  · next read =>
    rw [if_pos (by omega)]
    exact ⟨_, rfl⟩
  · exact ⟨0, rfl⟩

/-- There is a list of the keys where each of them is defined. -/
theorem exists_values {α : Type} {items : List α} {key : α → Option Int}
    (defined : ∀ item ∈ items, ∃ value, key item = some value) :
    ∃ values : List Int, items.map key = values.map some := by
  induction items with
  | nil => exact ⟨[], rfl⟩
  | cons item items ih =>
    obtain ⟨value, isValue⟩ := defined item List.mem_cons_self
    obtain ⟨values, areValues⟩ :=
      ih fun other member => defined other (List.mem_cons_of_mem item member)
    exact ⟨value :: values, by rw [List.map_cons, isValue, areValues, List.map_cons]⟩

theorem isInt_of_map_eq {rows : List Row}
    (same : rows.map (fun row => intValue row.1 keyOffset) = values.map some) :
    ∀ value ∈ values, IsInt value := by
  intro value member
  have stored : some value ∈ rows.map fun row => intValue row.1 keyOffset := by
    rw [same]
    exact List.mem_map_of_mem member
  obtain ⟨row, -, read⟩ := List.mem_map.mp stored
  exact isInt_intValue read

/-! ## Bounds -/

theorem sum_bounds (above : ∀ value ∈ values, low ≤ value) (below : ∀ value ∈ values, value ≤ high) :
    low * values.length ≤ values.sum ∧ values.sum ≤ high * values.length := by
  have least : values.length * low ≤ values.sum := List.card_nsmul_le_sum values low above
  have greatest : values.sum ≤ values.length * high := List.sum_le_card_nsmul values high below
  rw [Int.mul_comm] at least greatest
  exact ⟨least, greatest⟩

/-- The truncated average lies between the bounds of the values. -/
theorem average_bounds (nonempty : values ≠ []) (above : ∀ value ∈ values, low ≤ value)
    (below : ∀ value ∈ values, value ≤ high) :
    low ≤ values.sum.tdiv values.length ∧ values.sum.tdiv values.length ≤ high := by
  obtain ⟨least, greatest⟩ := sum_bounds above below
  have positive : (0 : Int) < values.length := Int.natCast_pos.mpr (List.length_pos_iff.mpr nonempty)
  refine ⟨Int.le_tdiv_of_mul_le positive least, ?_⟩
  -- rounding toward zero is the same on both sides of zero
  have mirrored : -high ≤ (-values.sum).tdiv values.length := by
    refine Int.le_tdiv_of_mul_le positive ?_
    rw [Int.neg_mul]
    exact Int.neg_le_neg greatest
  rw [Int.neg_tdiv] at mirrored
  exact Int.neg_le_neg_iff.mp mirrored

/-- The total of fewer than 2^31 values of an `int` fits 64 bits. -/
theorem isInt64_sum (ints : ∀ value ∈ values, IsInt value) (few : values.length < 2147483648) :
    IsInt64 values.sum := by
  obtain ⟨least, greatest⟩ := sum_bounds (fun value member => (ints value member).1)
    fun value member => (ints value member).2
  unfold IsInt64
  omega

theorem castInt_eq (isInt : IsInt value) : castInt value = value := by
  unfold IsInt at isInt
  unfold castInt
  omega

end Values

/-! ## The totals -/

/-- The totals of these values. -/
structure Totals.Of (values : List Int) (totals : Totals) : Prop where
  count : totals.count = values.length
  sum : totals.sum = values.sum
  hasValue : totals.hasValue = !values.isEmpty
  least : values ≠ [] → IsLeast {value | value ∈ values} totals.minVal
  greatest : values ≠ [] → IsGreatest {value | value ∈ values} totals.maxVal

namespace Totals.Of

variable {values seen : List Int} {value : Int} {totals : Totals}

theorem start (totals : Totals) :
    Of [] { totals with count := 0, sum := 0, hasValue := false } where
  count := rfl
  sum := rfl
  hasValue := rfl
  least nonempty := absurd rfl nonempty
  greatest nonempty := absurd rfl nonempty

theorem members_append (values : List Int) (value : Int) :
    {other | other ∈ values ++ [value]} = insert value {other | other ∈ values} := by
  ext other
  simp [or_comm]

/-- The least value, with one more. -/
theorem isLeast_add (of : Of values totals) (value : Int) :
    IsLeast {other | other ∈ values ++ [value]}
      (if totals.hasValue && decide (totals.minVal ≤ value) then totals.minVal else value) := by
  rw [members_append, of.hasValue]
  cases values with
  | nil => simp
  | cons first rest =>
    have least := (of.least (List.cons_ne_nil first rest)).insert value
    rw [min_comm, min_def] at least
    simpa using least

/-- The greatest value, with one more. -/
theorem isGreatest_add (of : Of values totals) (value : Int) :
    IsGreatest {other | other ∈ values ++ [value]}
      (if totals.hasValue && decide (value ≤ totals.maxVal) then totals.maxVal else value) := by
  rw [members_append, of.hasValue]
  cases values with
  | nil => simp
  | cons first rest =>
    have greatest := (of.greatest (List.cons_ne_nil first rest)).insert value
    rw [max_def] at greatest
    simpa using greatest

/-- One more value. -/
theorem add (of : Of values totals) (ints : ∀ other ∈ values ++ [value], IsInt other)
    (few : (values ++ [value]).length < 2147483648) :
    ∃ after, totals.add value = some after ∧ Of (values ++ [value]) after := by
  have total := isInt64_sum ints few
  rw [List.sum_append, List.sum_singleton, ← of.sum] at total
  have counted : IsInt64 (totals.count + 1) := by
    rw [List.length_append, List.length_singleton] at few
    rw [of.count]
    unfold IsInt64
    omega
  refine ⟨_, if_pos ⟨counted, total⟩, ?_⟩
  exact
    { count := by rw [of.count, List.length_append, List.length_singleton]; rfl
      sum := by rw [of.sum, List.sum_append, List.sum_singleton]
      hasValue := by simp
      least := fun _ => of.isLeast_add value
      greatest := fun _ => of.isGreatest_add value }

/-- The loop of `AggregationExecutor::Init`. -/
theorem addValues (of : Of seen totals) (ints : ∀ value ∈ seen ++ values, IsInt value)
    (few : (seen ++ values).length < 2147483648) :
    ∃ after, totals.addValues (values.map some) = some after ∧ Of (seen ++ values) after := by
  induction values generalizing seen totals with
  | nil =>
    rw [List.append_nil]
    exact ⟨totals, rfl, of⟩
  | cons value values ih =>
    rw [List.append_cons] at ints few ⊢
    have intsNow : ∀ other ∈ seen ++ [value], IsInt other :=
      fun other member => ints other (List.mem_append_left values member)
    have fewNow : (seen ++ [value]).length < 2147483648 := by
      rw [List.length_append] at few
      omega
    obtain ⟨next, added, ofNext⟩ := of.add intsNow fewNow
    obtain ⟨after, rest, ofAfter⟩ := ih ofNext ints few
    refine ⟨after, ?_, ofAfter⟩
    rw [List.map_cons, Totals.addValues]
    simp only [Option.bind_eq_bind, Option.bind_some, added, rest]

theorem count_eq_zero_iff (of : Of values totals) : totals.count = 0 ↔ values = [] := by
  rw [of.count, Int.natCast_eq_zero, List.length_eq_zero_iff]

/-- The results of the totals are those of the values, and `int` values. -/
theorem aggregates_result (of : Of values totals) (ints : ∀ value ∈ values, IsInt value)
    (few : values.length < 2147483648) {aggType : AggregationType} (notSum : aggType ≠ .sum) :
    Aggregates values aggType (totals.result aggType) ∧ IsInt (totals.result aggType) := by
  have zero : IsInt 0 := by decide
  cases aggType with
  | count =>
    have isInt : IsInt totals.count := by
      rw [of.count]
      unfold IsInt
      omega
    rw [Totals.result, castInt_eq isInt]
    exact ⟨of.count, isInt⟩
  | sum => exact absurd rfl notSum
  | avg =>
    rw [Totals.result, Aggregates]
    by_cases empty : values = []
    · rw [if_pos (of.count_eq_zero_iff.mpr empty), if_pos empty]
      exact ⟨rfl, zero⟩
    · rw [if_neg (mt of.count_eq_zero_iff.mp empty), if_neg empty, of.sum, of.count]
      have isInt : IsInt (values.sum.tdiv values.length) :=
        average_bounds empty (fun value member => (ints value member).1)
          fun value member => (ints value member).2
      rw [castInt_eq isInt]
      exact ⟨rfl, isInt⟩
  | min =>
    rw [Totals.result, Aggregates, of.hasValue]
    cases values with
    | nil => exact ⟨rfl, zero⟩
    | cons first rest =>
      have least := of.least (List.cons_ne_nil first rest)
      exact ⟨least, ints totals.minVal least.1⟩
  | max =>
    rw [Totals.result, Aggregates, of.hasValue]
    cases values with
    | nil => exact ⟨rfl, zero⟩
    | cons first rest =>
      have greatest := of.greatest (List.cons_ne_nil first rest)
      exact ⟨greatest, ints totals.maxVal greatest.1⟩

end Totals.Of

/-! ## The row of an aggregation -/

variable {E : Type} [Executor E]

/-- After `Init` the executor hands out one row, an `int` of this value, and no other. -/
def Answers (fuel : Nat) (executor : AggregationExecutor E) (pool : BufferPool DiskManager)
    (value : Int) : Prop :=
  ∃ after later, run (Executor.init fuel executor) pool = (some after, later) ∧
    ∀ fuel row (pool : BufferPool DiskManager), ∃ tuple finished,
      run (Executor.next fuel row after) pool = ((some (true, (tuple, {})), finished), pool) ∧
        tuple.size = 4 ∧ tuple.data.readInt 0 = value ∧
        ∀ fuel row (pool : BufferPool DiskManager),
          run (Executor.next fuel row finished) pool = ((some (false, row), finished), pool)

variable {fuel : Nat} {executor : AggregationExecutor E} {pool later : BufferPool DiskManager}
  {rows : List Row} {child : E} {values : List Int} {value : Int}

/-- The row that is handed out is an `int`. -/
theorem Answers.isInt (answers : Answers fuel executor pool value) : IsInt value := by
  obtain ⟨after, later, -, handsOut⟩ := answers
  obtain ⟨tuple, finished, -, -, stored, -⟩ := handsOut 0 ({}, {}) later
  rw [← stored]
  exact Bytes.readInt_range _ _

/-- An initialized executor hands out its result. -/
theorem answers_result {after : AggregationExecutor E}
    (started : run (Executor.init fuel executor) pool = (some after, later))
    (initialized : after.initialized = true) (notDone : after.done = false)
    (isInt : IsInt (after.totals.result after.aggType)) :
    Answers fuel executor pool (after.totals.result after.aggType) := by
  refine ⟨after, later, started, fun fuel row pool => ?_⟩
  refine ⟨(after.resultRow row).1, { after with done := true }, ?_, ?_, ?_, fun fuel row pool => ?_⟩
  · rw [AggregationExecutor.run_next_initialized initialized, AggregationExecutor.nextRow,
      if_neg (by simp [notDone])]
    rfl
  · rw [AggregationExecutor.resultRow, Tuple.setSize, if_pos (by decide)]
  · exact Bytes.readInt_writeInt isInt
  · have still : ({ after with done := true } : AggregationExecutor E).initialized = true :=
      initialized
    rw [AggregationExecutor.run_next_initialized still]
    rfl

/-- `Init` over the rows of the child. -/
theorem exists_totals
    (ran : run (collect fuel ({}, {}) executor.child) pool = ((some rows, child), later))
    (few : rows.length < 2147483648)
    (same : rows.map (fun row => intValue row.1 executor.keyOffset) = values.map some) :
    ∃ totals, totals.Of values ∧ run (Executor.init fuel executor) pool =
      (some { executor with child, totals, done := false, initialized := true }, later) := by
  have ints := isInt_of_map_eq same
  have sameLength : rows.length = values.length := by
    have lengths := congrArg List.length same
    rwa [List.length_map, List.length_map] at lengths
  obtain ⟨totals, added, of⟩ :=
    (Totals.Of.start executor.totals).addValues ints (by rwa [List.nil_append, ← sameLength])
  refine ⟨totals, of, ?_⟩
  rw [AggregationExecutor.run_init, ran]
  simp only [same, added, Option.map_some]

/-- A pool with a table of two rows that have these values at offset 16. The first row
starts with the slot entries that are stored over it. -/
def twoValues (first second : Int) : TableHeap × BufferPool DiskManager :=
  let outcome := run
    (fill [ofContent ([12, 20, 32, 20, first].flatMap intContent),
      ofContent ([0, 0, 0, 0, second].flatMap intContent)])
    (BufferPool.new 1 (DiskManager.new (some {})))
  (outcome.1.2, outcome.2)

/-- An aggregation of the values of such a table. -/
def overTwoValues (aggType : AggregationType) (table : TableHeap) :
    AggregationExecutor SeqScanExecutor :=
  { child := SeqScanExecutor.newLayer table none .both, aggType, keyOffset := 16 }

/-- Draining such a table, given the values that come back. -/
theorem exists_rows {aggType : AggregationType} {first second : Int}
    (keys : (run (collect 20 ({}, {}) (overTwoValues aggType (twoValues first second).1).child)
      (twoValues first second).2).1.1.map (fun rows => rows.map fun row => intValue row.1 16) =
        some ([first, second].map some)) :
    ∃ rows child later,
      run (collect 20 ({}, {}) (overTwoValues aggType (twoValues first second).1).child)
        (twoValues first second).2 = ((some rows, child), later) ∧
      rows.map (fun row => intValue row.1 16) = [first, second].map some ∧ rows.length = 2 := by
  generalize run (collect 20 ({}, {}) (overTwoValues aggType (twoValues first second).1).child)
    (twoValues first second).2 = ran at keys ⊢
  obtain ⟨⟨answer, child⟩, later⟩ := ran
  obtain ⟨rows, rfl, values⟩ := Option.map_eq_some_iff.mp keys
  have lengths := congrArg List.length values
  rw [List.length_map] at lengths
  exact ⟨rows, child, later, rfl, values, lengths⟩

/-- COUNT, MIN, MAX and AVG over the rows of any child are exact, without an overflow of
the total or a cut in the cast, and the average lies between the extremes. -/
theorem aggregation_exact (executor : AggregationExecutor E) (kind : executor.aggType ≠ .sum)
    (ran : run (collect fuel ({}, {}) executor.child) pool = ((some rows, child), later))
    (few : rows.length < 2147483648) (sized : ∀ row ∈ rows, row.1.size ≤ Tuple.maxSize)
    (inside : executor.keyOffset.toNat ≤ Tuple.maxSize) :
    ∃ values : List Int,
      rows.map (fun row => intValue row.1 executor.keyOffset) = values.map some ∧
      (∃ value, Aggregates values executor.aggType value ∧ Answers fuel executor pool value) ∧
      (values ≠ [] → ∀ least average greatest, Aggregates values .min least →
        Aggregates values .avg average → Aggregates values .max greatest →
        least ≤ average ∧ average ≤ greatest) := by
  obtain ⟨values, same⟩ := exists_values fun row member =>
    exists_intValue (sized row member) inside
  have ints := isInt_of_map_eq same
  have fewValues : values.length < 2147483648 := by
    have lengths := congrArg List.length same
    rw [List.length_map, List.length_map] at lengths
    rwa [← lengths]
  obtain ⟨totals, of, started⟩ := exists_totals ran few same
  obtain ⟨aggregates, isInt⟩ := of.aggregates_result ints fewValues kind
  refine ⟨values, same, ⟨_, aggregates, answers_result started rfl rfl isInt⟩, ?_⟩
  intro nonempty least average greatest isLeast isAverage isGreatest
  simp only [Aggregates, if_neg nonempty] at isLeast isAverage isGreatest
  rw [isAverage]
  exact average_bounds nonempty (fun value member => isLeast.2 member)
    fun value member => isGreatest.2 member

/-- The average of -7 and 4 is rounded toward zero. -/
theorem aggregation_exact_negative :
    Answers 20 (overTwoValues .avg (twoValues (-7) 4).1) (twoValues (-7) 4).2 (-1) := by
  obtain ⟨rows, child, later, ran, keys, few⟩ :
      ∃ rows child later, run (collect 20 ({}, {}) (overTwoValues .avg (twoValues (-7) 4).1).child)
          (twoValues (-7) 4).2 = ((some rows, child), later) ∧
        rows.map (fun row => intValue row.1 16) = [-7, 4].map some ∧ rows.length = 2 :=
    exists_rows (by decide +kernel)
  have sizes : (run (collect 20 ({}, {}) (overTwoValues .avg (twoValues (-7) 4).1).child)
      (twoValues (-7) 4).2).1.1.map (fun rows => rows.map fun row => row.1.size) =
        some [20, 20] := by
    decide +kernel
  rw [ran] at sizes
  have sized : ∀ row ∈ rows, row.1.size ≤ Tuple.maxSize := by
    intro row member
    have size : row.1.size ∈ [20, 20] := by
      rw [← Option.some.inj sizes]
      exact List.mem_map_of_mem member
    have twenty : row.1.size = 20 := by simpa using size
    rw [twenty]
    decide
  obtain ⟨values, same, ⟨value, average, answers⟩, -⟩ := aggregation_exact
    (overTwoValues .avg (twoValues (-7) 4).1) (by decide) ran (by omega) sized (by decide)
  obtain rfl : values = [-7, 4] :=
    List.map_injective_iff.mpr (Option.some_injective Int) (same.symm.trans keys)
  obtain rfl : value = -1 := average
  exact answers

/-- SUM is the sum of the values of the rows exactly when these values are defined and
their sum is an `int`. -/
theorem sum_exact_iff (executor : AggregationExecutor E) (kind : executor.aggType = .sum)
    (ran : run (collect fuel ({}, {}) executor.child) pool = ((some rows, child), later))
    (few : rows.length < 2147483648) :
    (∃ values : List Int,
        rows.map (fun row => intValue row.1 executor.keyOffset) = values.map some ∧
        Answers fuel executor pool values.sum) ↔
      ∃ values : List Int,
        rows.map (fun row => intValue row.1 executor.keyOffset) = values.map some ∧
        IsInt values.sum := by
  constructor
  · rintro ⟨values, same, answers⟩
    exact ⟨values, same, answers.isInt⟩
  · rintro ⟨values, same, isInt⟩
    obtain ⟨totals, of, started⟩ := exists_totals ran few same
    have result : totals.result executor.aggType = values.sum := by
      rw [kind, Totals.result, of.sum, castInt_eq isInt]
    refine ⟨values, same, ?_⟩
    rw [← result] at isInt ⊢
    exact answers_result started rfl rfl isInt

/-- A sum that fits. -/
theorem sum_exact_iff_negative :
    Answers 20 (overTwoValues .sum (twoValues (-7) 4).1) (twoValues (-7) 4).2 (-3) := by
  obtain ⟨rows, child, later, ran, keys, few⟩ :
      ∃ rows child later, run (collect 20 ({}, {}) (overTwoValues .sum (twoValues (-7) 4).1).child)
          (twoValues (-7) 4).2 = ((some rows, child), later) ∧
        rows.map (fun row => intValue row.1 16) = [-7, 4].map some ∧ rows.length = 2 :=
    exists_rows (by decide +kernel)
  obtain ⟨values, same, answers⟩ := (sum_exact_iff (overTwoValues .sum (twoValues (-7) 4).1) rfl
    ran (by omega)).mpr ⟨[-7, 4], keys, by decide⟩
  obtain rfl : values = [-7, 4] :=
    List.map_injective_iff.mpr (Option.some_injective Int) (same.symm.trans keys)
  exact answers

/-- The sum of 2147483647 and 1 is handed out as -2147483648. -/
theorem sum_wraps :
    let table := twoValues 2147483647 1
    let executor := overTwoValues .sum table.1
    (∃ rows child later, run (collect 20 ({}, {}) executor.child) table.2 =
        ((some rows, child), later) ∧
      rows.map (fun row => intValue row.1 executor.keyOffset) = [2147483647, 1].map some) ∧
      Answers 20 executor table.2 (-2147483648) ∧
      ¬ Answers 20 executor table.2 ([2147483647, 1] : List Int).sum := by
  intro table executor
  obtain ⟨rows, child, later, ran, keys, few⟩ :
      ∃ rows child later, run (collect 20 ({}, {}) executor.child) table.2 =
          ((some rows, child), later) ∧
        rows.map (fun row => intValue row.1 16) = [2147483647, 1].map some ∧ rows.length = 2 :=
    exists_rows (by decide +kernel)
  obtain ⟨totals, of, started⟩ := exists_totals ran (by omega) keys
  have wrapped : totals.result executor.aggType = -2147483648 := by
    change castInt totals.sum = -2147483648
    rw [of.sum]
    decide
  refine ⟨⟨rows, child, later, ran, keys⟩, ?_, fun answers => absurd answers.isInt (by decide)⟩
  have isInt : IsInt (totals.result executor.aggType) := by
    rw [wrapped]
    decide
  rw [← wrapped]
  exact answers_result started rfl rfl isInt

end MiniDB.Executors
