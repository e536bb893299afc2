import MiniDB.Executors.SeqScanExecutor

/-!
# The operators of a query

`MergeExecutor`, `JoinExecutor`, `AggregationExecutor` and `SortExecutor` work on
the rows of their children. A null `RID*` is a RID that nobody reads. An outcome of
`none` is, besides a call that did not end within its fuel, an access outside a
tuple or an overflow of a signed integer. `std::sort` is a parameter that sees the
keys only.
-/

namespace MiniDB.Executors

open Foundation Buffer PoolProgram Storage

variable {E : Type} [Executor E]

/-! ## Tuples -/

/-- `Tuple::GetIntValue` for any `size_t`; `offset + sizeof(int)` wraps around. `none`
is a read outside `data_`. -/
def intValue (tuple : Tuple) (offset : UInt64) : Option Int :=
  if (offset + 4).toNat ≤ tuple.size then
    if offset.toNat + 4 ≤ Tuple.maxSize then some (tuple.data.readInt offset.toNat) else none
  else some 0

/-- What `JoinExecutor::Next` copies into its target: the left bytes and as many of
the right ones as there is room for. `none` is a left tuple that is too large. The
sizes are those of tuples, at most `MAX_SIZE` each, so that their `size_t` sum does
not wrap around. -/
def joinTuple (target left right : Tuple) : Option Tuple :=
  if Tuple.maxSize < left.size then none
  else
    let copyRight :=
      if left.size + right.size ≤ Tuple.maxSize then right.size else Tuple.maxSize - left.size
    let data := (target.data.copy 0 left.data left.size).copy left.size right.data copyRight
    some ({ target with data }.setSize (left.size + copyRight))

/-! ## MergeExecutor -/

/-- `MergeExecutor`; a child may be null. -/
structure MergeExecutor (Hot Cold : Type) where
  hotExecutor : Option Hot
  coldExecutor : Option Cold
  useHot : Bool := true
  hotDone : Bool := false
  coldDone : Bool := false
  initialized : Bool := false

namespace MergeExecutor

variable {Hot Cold : Type} [Executor Hot] [Executor Cold]

/-- `Init` of a child that may be null. -/
def initChild (fuel : Nat) : Option E → PoolProgram (Option (Option E))
  | none => return some none
  | some child => do
    let child ← Executor.init fuel child
    return child.map some

/-- `MergeExecutor::Init`. -/
def init (fuel : Nat) (executor : MergeExecutor Hot Cold) :
    PoolProgram (Option (MergeExecutor Hot Cold)) := do
  match ← initChild fuel executor.hotExecutor with
  | none => return none
  | some hotExecutor =>
    match ← initChild fuel executor.coldExecutor with
    | none => return none
    | some coldExecutor => return some { hotExecutor, coldExecutor, initialized := true }

/-- The part of `Next` that asks the cold child. -/
def nextCold (fuel : Nat) (row : Row) (executor : MergeExecutor Hot Cold) :
    PoolProgram (Option (Bool × Row) × MergeExecutor Hot Cold) :=
  match executor.coldExecutor with
  | none => return (some (false, row), executor)
  | some cold => do
    match ← Executor.next fuel row cold with
    | (none, cold) => return (none, { executor with coldExecutor := some cold })
    | (some (true, row), cold) =>
      return (some (true, row), { executor with coldExecutor := some cold })
    | (some (false, row), cold) =>
      return (some (false, row), { executor with coldExecutor := some cold, coldDone := true })

/-- `Next` once it is initialized. -/
def nextRow (fuel : Nat) (row : Row) (executor : MergeExecutor Hot Cold) :
    PoolProgram (Option (Bool × Row) × MergeExecutor Hot Cold) :=
  match executor.useHot, executor.hotExecutor with
  | true, some hot => do
    match ← Executor.next fuel row hot with
    | (none, hot) => return (none, { executor with hotExecutor := some hot })
    | (some (true, row), hot) =>
      return (some (true, row), { executor with hotExecutor := some hot })
    | (some (false, row), hot) =>
      nextCold fuel row { executor with
        hotExecutor := some hot
        hotDone := true
        useHot := false }
  | _, _ => nextCold fuel row executor

/-- `MergeExecutor::Next`. -/
def next (fuel : Nat) (row : Row) (executor : MergeExecutor Hot Cold) :
    PoolProgram (Option (Bool × Row) × MergeExecutor Hot Cold) := do
  if executor.initialized then
    nextRow fuel row executor
  else
    match ← executor.init fuel with
    | none => return (none, executor)
    | some executor => nextRow fuel row executor

instance : Executor (MergeExecutor Hot Cold) where
  init := init
  next := next

end MergeExecutor

/-! ## JoinExecutor -/

/-- `JoinExecutor`. -/
structure JoinExecutor (Left Right : Type) where
  left : Left
  right : Right
  leftCurrent : Tuple := {}
  leftHasCurrent : Bool := false
  initialized : Bool := false

namespace JoinExecutor

variable {Left Right : Type} [Executor Left] [Executor Right]

/-- `left_has_current_ = left_->Next(&left_current_, nullptr)`. -/
def nextLeft (fuel : Nat) (executor : JoinExecutor Left Right) :
    PoolProgram (Option (JoinExecutor Left Right)) := do
  match ← Executor.next fuel (executor.leftCurrent, {}) executor.left with
  | (none, _) => return none
  | (some (leftHasCurrent, row), left) =>
    return some { executor with left, leftCurrent := row.1, leftHasCurrent }

/-- `JoinExecutor::Init`. -/
def init (fuel : Nat) (executor : JoinExecutor Left Right) :
    PoolProgram (Option (JoinExecutor Left Right)) := do
  match ← Executor.init fuel executor.left with
  | none => return none
  | some left =>
    match ← Executor.init fuel executor.right with
    | none => return none
    | some right => nextLeft fuel { executor with left, right, initialized := true }

/-- The loop of `Next`: rows of the right child, which starts anew for the next row of
the left one. -/
def nextLoop : (fuel : Nat) → Row → JoinExecutor Left Right →
    PoolProgram (Option (Bool × Row) × JoinExecutor Left Right)
  | 0, _, executor => return (none, executor)
  | fuel + 1, row, executor =>
    if executor.leftHasCurrent then do
      match ← Executor.next (fuel + 1) ({}, {}) executor.right with
      | (none, right) => return (none, { executor with right })
      | (some (true, rightRow), right) =>
        match joinTuple row.1 executor.leftCurrent rightRow.1 with
        | none => return (none, { executor with right })
        | some tuple =>
          return (some (true, (tuple, executor.leftCurrent.rid)), { executor with right })
      | (some (false, _), right) =>
        match ← Executor.init (fuel + 1) right with
        | none => return (none, { executor with right })
        | some right =>
          match ← nextLeft (fuel + 1) { executor with right } with
          | none => return (none, { executor with right })
          | some executor => nextLoop fuel row executor
    else
      return (some (false, row), executor)

/-- `JoinExecutor::Next`. -/
def next (fuel : Nat) (row : Row) (executor : JoinExecutor Left Right) :
    PoolProgram (Option (Bool × Row) × JoinExecutor Left Right) := do
  if executor.initialized then
    nextLoop fuel row executor
  else
    match ← executor.init fuel with
    | none => return (none, executor)
    | some executor => nextLoop fuel row executor

instance : Executor (JoinExecutor Left Right) where
  init := init
  next := next

end JoinExecutor

/-! ## AggregationExecutor -/

/-- `AggregationType`. -/
inductive AggregationType where
  | count
  | sum
  | avg
  | min
  | max
deriving DecidableEq, Repr

/-- The values of an `int64_t`. -/
def IsInt64 (value : Int) : Prop := -9223372036854775808 ≤ value ∧ value ≤ 9223372036854775807

instance : DecidablePred IsInt64 := fun value =>
  inferInstanceAs (Decidable (-9223372036854775808 ≤ value ∧ value ≤ 9223372036854775807))

/-- `static_cast<int>`. -/
def castInt (value : Int) : Int := (value + 2147483648) % 4294967296 - 2147483648

/-- What `AggregationExecutor` knows of the rows so far. -/
structure Totals where
  count : Int := 0
  sum : Int := 0
  minVal : Int := 0
  maxVal : Int := 0
  hasValue : Bool := false
deriving DecidableEq, Repr

namespace Totals

/-- The loop body of `AggregationExecutor::Init`. `none` is an overflow. -/
def add (totals : Totals) (value : Int) : Option Totals :=
  if IsInt64 (totals.count + 1) ∧ IsInt64 (totals.sum + value) then
    some
      { count := totals.count + 1
        sum := totals.sum + value
        minVal := if totals.hasValue && decide (totals.minVal ≤ value) then totals.minVal else value
        maxVal := if totals.hasValue && decide (value ≤ totals.maxVal) then totals.maxVal else value
        hasValue := true }
  else none

/-- The loop of `AggregationExecutor::Init` over the values of the rows. -/
def addAll (keyOffset : UInt64) : Totals → List Tuple → Option Totals
  | totals, [] => some totals
  | totals, tuple :: tuples => do
    let value ← intValue tuple keyOffset
    let totals ← totals.add value
    totals.addAll keyOffset tuples

/-- The `switch` of `AggregationExecutor::Next`. -/
def result (totals : Totals) : AggregationType → Int
  | .count => castInt totals.count
  | .sum => castInt totals.sum
  | .avg => if totals.count = 0 then 0 else castInt (totals.sum.tdiv totals.count)
  | .min => if totals.hasValue then totals.minVal else 0
  | .max => if totals.hasValue then totals.maxVal else 0

end Totals

/-- `AggregationExecutor`. -/
structure AggregationExecutor (E : Type) where
  child : E
  aggType : AggregationType
  keyOffset : UInt64 := 0
  done : Bool := false
  initialized : Bool := false
  totals : Totals := {}

namespace AggregationExecutor

/-- `AggregationExecutor::Init`; `min_val_` and `max_val_` stay, unread until there is a
value. -/
def init (fuel : Nat) (executor : AggregationExecutor E) :
    PoolProgram (Option (AggregationExecutor E)) := do
  match ← Executor.init fuel executor.child with
  | none => return none
  | some child =>
    match ← drain fuel ({}, {}) child with
    | (none, _) => return none
    | (some rows, child) =>
      let totals := { executor.totals with count := 0, sum := 0, hasValue := false }
      match totals.addAll executor.keyOffset (rows.map Prod.fst) with
      | none => return none
      | some totals => return some { executor with child, totals, done := false, initialized := true }

/-- The row that `Next` hands out: the result in four bytes, and an invalid RID. -/
def resultRow (executor : AggregationExecutor E) (row : Row) : Row :=
  let tuple := row.1.setSize 4
  ({ tuple with data := tuple.data.writeInt 0 (executor.totals.result executor.aggType) }, {})

/-- `Next` once it is initialized. -/
def nextRow (row : Row) (executor : AggregationExecutor E) :
    Option (Bool × Row) × AggregationExecutor E :=
  if executor.done then (some (false, row), executor)
  else (some (true, executor.resultRow row), { executor with done := true })

/-- `AggregationExecutor::Next`. -/
def next (fuel : Nat) (row : Row) (executor : AggregationExecutor E) :
    PoolProgram (Option (Bool × Row) × AggregationExecutor E) := do
  if executor.initialized then
    return nextRow row executor
  else
    match ← executor.init fuel with
    | none => return (none, executor)
    | some executor => return nextRow row executor

instance : Executor (AggregationExecutor E) where
  init := init
  next := next

end AggregationExecutor

/-! ## SortExecutor -/

/-- `std::sort` with a comparison of keys: where each position of the result comes
from. The order of equal keys is not specified. -/
structure StdSort where
  order : List Int → List Nat
  perm : ∀ keys, (order keys).Perm (List.range keys.length)
  sorted : ∀ keys, ((order keys).map fun index => keys.getD index 0).Pairwise (· ≤ ·)

/-- `std::sort` of tuples by `GetIntValue`. Nothing is compared where there are fewer
than two. `none` is a comparison that reads outside a tuple. -/
def sortTuples (sort : StdSort) (keyOffset : UInt64) (tuples : List Tuple) : Option (List Tuple) :=
  if tuples.length < 2 then some tuples
  else (tuples.mapM fun tuple => intValue tuple keyOffset).map fun keys =>
    (sort.order keys).map fun index => tuples.getD index {}

/-- `SortExecutor`, with the `std::sort` it is linked against. -/
structure SortExecutor (sort : StdSort) (E : Type) where
  child : E
  keyOffset : UInt64 := 0
  sorted : List Tuple := []
  cursor : Nat := 0

namespace SortExecutor

variable {sort : StdSort}

/-- `SortExecutor::Init`. -/
def init (fuel : Nat) (executor : SortExecutor sort E) :
    PoolProgram (Option (SortExecutor sort E)) := do
  match ← Executor.init fuel executor.child with
  | none => return none
  | some child =>
    match ← drain fuel ({}, {}) child with
    | (none, _) => return none
    | (some rows, child) =>
      match sortTuples sort executor.keyOffset (rows.map Prod.fst) with
      | none => return none
      | some sorted => return some { executor with child, sorted, cursor := 0 }

/-- `SortExecutor::Next`. -/
def next (row : Row) (executor : SortExecutor sort E) :
    Option (Bool × Row) × SortExecutor sort E :=
  match executor.sorted[executor.cursor]? with
  | none => (some (false, row), executor)
  | some tuple => (some (true, (tuple, tuple.rid)), { executor with cursor := executor.cursor + 1 })

instance : Executor (SortExecutor sort E) where
  init := init
  next _ row executor := return next row executor

end SortExecutor

end MiniDB.Executors
