import Mathlib.Data.List.Chain
import MiniDB.Executors.InsertExecutor
import MiniDB.Storage.DiskManager

/-!
# Rows of a list that are not inserted

The position of an insertion in its list advances before `InsertTuple` is called, and
does not go back when the call fails. `Next` then returns false as it does at the end of
the list, and a caller that goes on gets to the next tuple. The pool may be in any state
at each call, since other clients use it in between.
-/

namespace MiniDB.Executors

open Foundation Buffer PoolProgram Storage Index

variable {D E : Type} [Disk D]

/-- A call of `Next`, and the pool that it finds. -/
structure NextCall (D : Type) where
  fuel : Nat
  row : Row
  pool : BufferPool D

/-- The call of `InsertTuple` that a `Next` makes: the position in the list, the tuple,
and whether it returns true. -/
structure Attempt where
  position : Nat
  tuple : Tuple
  stored : Bool

namespace InsertExecutor

/-- The insertion of a list as its constructor leaves it. -/
def ofTuples (table : TableHeap) (indexes : List BPlusTree) (tuples : List Tuple) :
    InsertExecutor E :=
  { table, indexes, directInsertTuples := tuples }

/-- The executor once `Next` has called `Init` where that had not been done. -/
def started (executor : InsertExecutor E) : InsertExecutor E :=
  if executor.initialized then executor else { executor with initialized := true, finished := false }

/-- The call of `InsertTuple` that `Next` of a list insertion makes, if it makes one. -/
def attempt (executor : InsertExecutor E) (pool : BufferPool D) : Option Attempt :=
  if executor.started.finished then none
  else
    executor.directInsertTuples[executor.directInsertIndex]?.map fun tuple =>
      { position := executor.directInsertIndex
        tuple
        stored := (run (executor.table.insertTuple tuple) pool).1.1.isSome }

/-- The calls of `InsertTuple` that some calls of `Next` make, one after another. -/
def attempts [Executor E] : List (NextCall D) → InsertExecutor E → List (Option Attempt)
  | [], _ => []
  | call :: calls, executor => executor.attempt call.pool ::
      attempts calls (run (Executor.next call.fuel call.row executor) call.pool).1.2

/-- The tuples that were inserted. -/
def inserted (history : List (Option Attempt)) : List Tuple :=
  history.filterMap fun call => call.bind fun attempt =>
    if attempt.stored then some attempt.tuple else none

/-- At each time the tuples that were inserted are the first ones of the list, and the
call after a failed one tries the same position again. -/
structure SkipsNoRow (tuples : List Tuple) (history : List (Option Attempt)) : Prop where
  inserts_prefix : ∀ front, front <+: history → inserted front <+: tuples
  retries : history.IsChain fun call next => ∀ attempt, call = some attempt →
    attempt.stored = false → ∃ again, next = some again ∧ again.position = attempt.position

/-- No call follows one whose `InsertTuple` fails. -/
def StopsAtFailure (history : List (Option Attempt)) : Prop :=
  history.IsChain fun call _ => ∀ attempt, call = some attempt → attempt.stored = true

/-! ## One call -/

variable {executor : InsertExecutor E} {fuel : Nat} {pool : BufferPool D} {made : Attempt}

@[simp] theorem started_childExecutor : executor.started.childExecutor = executor.childExecutor := by
  unfold started
  split <;> rfl

@[simp] theorem started_directInsertTuples :
    executor.started.directInsertTuples = executor.directInsertTuples := by
  unfold started
  split <;> rfl

@[simp] theorem started_directInsertIndex :
    executor.started.directInsertIndex = executor.directInsertIndex := by
  unfold started
  split <;> rfl

/-- The executor once it has taken a tuple of the list. -/
def advanced (executor : InsertExecutor E) : InsertExecutor E :=
  { executor.started with directInsertIndex := executor.started.directInsertIndex + 1 }

/-- Counting a row changes the count only. -/
theorem run_countRow : ∃ count middle, run executor.countRow pool =
    ({ executor with batchCount := count }, middle) := by
  unfold countRow
  dsimp only
  split
  · exact ⟨_, _, rfl⟩
  · exact ⟨_, _, rfl⟩

/-- What an insertion of a tuple leaves of the list, and what `Next` returns. -/
theorem run_insertRow (row : Row) (tuple : Tuple) :
    ∃ answer after later, run (executor.insertRow fuel row tuple) pool = ((answer, after), later) ∧
      after.childExecutor = executor.childExecutor ∧
      after.directInsertTuples = executor.directInsertTuples ∧
      after.directInsertIndex = executor.directInsertIndex ∧
      ((run (executor.table.insertTuple tuple) pool).1.1 = none → answer = some (false, row)) := by
  obtain ⟨⟨⟨rid, table⟩, later⟩, stored⟩ :
      ∃ outcome, run (executor.table.insertTuple tuple) pool = outcome := ⟨_, rfl⟩
  simp only [insertRow, run_bind, stored]
  cases rid with
  | none => exact ⟨_, _, _, rfl, rfl, rfl, rfl, fun _ => rfl⟩
  | some rid =>
    obtain ⟨count, middle, counted⟩ := @run_countRow _ _ _ { executor with table } later
    simp only [run_bind, counted]
    split
    · exact ⟨_, _, _, rfl, rfl, rfl, rfl, fun failed => by cases failed⟩
    · exact ⟨_, _, _, rfl, rfl, rfl, rfl, fun failed => by cases failed⟩

variable [Executor E]

/-- A list gives its next tuple. -/
theorem takeTuple_list (isList : executor.childExecutor = none) {tuple : Tuple}
    (isTuple : executor.directInsertTuples[executor.directInsertIndex]? = some tuple) :
    executor.takeTuple fuel = return (some (some tuple),
      { executor with directInsertIndex := executor.directInsertIndex + 1 }) := by
  cases executor
  subst isList
  simp only [takeTuple, isTuple]

/-- At its end it gives none. -/
theorem takeTuple_list_end (isList : executor.childExecutor = none)
    (atEnd : executor.directInsertTuples[executor.directInsertIndex]? = none) :
    executor.takeTuple fuel = return (some none, executor) := by
  simp only [takeTuple, isList, atEnd]

/-- `Next` over a list. -/
theorem run_next_list (isList : executor.childExecutor = none) (row : Row) :
    run (Executor.next fuel row executor) pool = run (executor.started.nextRow fuel row) pool := by
  change run (InsertExecutor.next fuel row executor) pool = _
  rw [InsertExecutor.next, started]
  split
  · rfl
  · simp only [InsertExecutor.init, isList, run_bind, run_pure]

/-- `Next` of a list inserts the tuple at its position, and is past it already. -/
theorem run_next_attempt (isList : executor.childExecutor = none) (row : Row)
    (attempted : executor.attempt pool = some made) :
    run (Executor.next fuel row executor) pool =
      run (executor.advanced.insertRow fuel row made.tuple) pool := by
  unfold attempt at attempted
  split at attempted
  · cases attempted
  · next goesOn =>
    obtain ⟨tuple, isTuple, rfl⟩ := Option.map_eq_some_iff.mp attempted
    rw [run_next_list isList, nextRow, if_neg goesOn,
      takeTuple_list (by rw [started_childExecutor, isList])
        (by rw [started_directInsertTuples, started_directInsertIndex, isTuple])]
    rfl

/-- `Next` of a list that makes no attempt returns false and stays where it is. -/
theorem run_next_no_attempt (isList : executor.childExecutor = none) (row : Row)
    (noAttempt : executor.attempt pool = none) :
    ∃ after, run (Executor.next fuel row executor) pool = ((some (false, row), after), pool) ∧
      after.childExecutor = none ∧ after.directInsertTuples = executor.directInsertTuples ∧
      after.directInsertIndex = executor.directInsertIndex := by
  unfold attempt at noAttempt
  rw [run_next_list isList, nextRow]
  split at noAttempt
  · next finished =>
    rw [if_pos finished]
    exact ⟨_, rfl, started_childExecutor.trans isList, started_directInsertTuples,
      started_directInsertIndex⟩
  · next goesOn =>
    have atEnd := Option.map_eq_none_iff.mp noAttempt
    rw [if_neg goesOn, takeTuple_list_end (by rw [started_childExecutor, isList])
      (by rw [started_directInsertTuples, started_directInsertIndex, atEnd])]
    exact ⟨_, rfl, started_childExecutor.trans isList, started_directInsertTuples,
      started_directInsertIndex⟩

/-- A call and the tuples of the list from the position on. An attempt is at the
position, which advances whether it succeeds or not. -/
theorem next_list_cases (isList : executor.childExecutor = none) (row : Row) :
    let after := (run (Executor.next fuel row executor) pool).1.2
    after.childExecutor = none ∧ after.directInsertTuples = executor.directInsertTuples ∧
      (executor.attempt pool = none ∧ after.directInsertIndex = executor.directInsertIndex ∨
        ∃ tuple stored,
          executor.attempt pool =
            some { position := executor.directInsertIndex, tuple, stored } ∧
          executor.directInsertTuples[executor.directInsertIndex]? = some tuple ∧
          after.directInsertIndex = executor.directInsertIndex + 1) := by
  cases attempted : executor.attempt pool with
  | none =>
    obtain ⟨after, ran, childless, sameTuples, sameIndex⟩ :=
      @run_next_no_attempt _ _ _ _ fuel _ _ isList row attempted
    rw [ran]
    exact ⟨childless, sameTuples, .inl ⟨rfl, sameIndex⟩⟩
  | some made =>
    obtain ⟨answer, after, later, ran, sameChild, sameTuples, sameIndex, -⟩ :=
      @run_insertRow _ _ _ executor.advanced fuel pool row made.tuple
    rw [run_next_attempt isList row attempted, ran]
    refine ⟨sameChild.trans (started_childExecutor.trans isList),
      sameTuples.trans started_directInsertTuples, .inr ?_⟩
    unfold attempt at attempted
    split at attempted
    · cases attempted
    · obtain ⟨tuple, isTuple, rfl⟩ := Option.map_eq_some_iff.mp attempted
      exact ⟨tuple, _, rfl, isTuple,
        sameIndex.trans (congrArg (· + 1) started_directInsertIndex)⟩

/-! ## Runs -/

/-- Where no call follows a failure, the tuples that are inserted are the next ones of
the list. -/
theorem inserted_prefix_drop (calls : List (NextCall D)) (isList : executor.childExecutor = none)
    (stops : StopsAtFailure (attempts calls executor)) :
    inserted (attempts calls executor) <+:
      executor.directInsertTuples.drop executor.directInsertIndex := by
  induction calls generalizing executor with
  | nil => exact List.nil_prefix
  | cons call calls ih =>
    obtain ⟨childless, sameTuples, attempted⟩ :=
      @next_list_cases _ _ _ _ call.fuel call.pool _ isList call.row
    have later := ih childless (List.IsChain.tail stops)
    rw [sameTuples] at later
    rw [attempts] at stops ⊢
    rcases attempted with ⟨noAttempt, sameIndex⟩ | ⟨tuple, stored, isAttempt, isTuple, nextIndex⟩
    · rw [sameIndex] at later
      rw [noAttempt]
      exact later
    · rw [nextIndex] at later
      rw [isAttempt] at stops ⊢
      obtain ⟨inside, tupleAt⟩ := List.getElem?_eq_some_iff.mp isTuple
      rw [List.drop_eq_getElem_cons inside, tupleAt]
      cases stored with
      | true => exact (List.prefix_cons_inj tuple).mpr later
      | false =>
        -- A failure is the last call.
        cases calls with
        | nil => exact List.nil_prefix
        | cons next calls =>
          have succeeds := (List.isChain_cons_cons.mp stops).1 _ rfl
          cases succeeds

/-- Where the failed tuple is tried again, no call follows a failure. -/
theorem stops_of_retries (calls : List (NextCall D)) (isList : executor.childExecutor = none)
    (retries : (attempts calls executor).IsChain fun call next => ∀ attempt, call = some attempt →
      attempt.stored = false → ∃ again, next = some again ∧ again.position = attempt.position) :
    StopsAtFailure (attempts calls executor) := by
  induction calls generalizing executor with
  | nil => exact List.IsChain.nil
  | cons call calls ih =>
    obtain ⟨childless, -, attempted⟩ :=
      @next_list_cases _ _ _ _ call.fuel call.pool _ isList call.row
    have later := ih childless (List.IsChain.tail retries)
    cases calls with
    | nil => exact List.IsChain.singleton _
    | cons next calls =>
      refine List.isChain_cons_cons.mpr ⟨fun made isMade => ?_, later⟩
      rcases attempted with ⟨noAttempt, -⟩ | ⟨tuple, stored, isAttempt, -, nextIndex⟩
      · rw [noAttempt] at isMade
        cases isMade
      · obtain rfl := Option.some.inj (isAttempt.symm.trans isMade)
        by_contra failed
        obtain ⟨again, isAgain, samePosition⟩ :=
          (List.isChain_cons_cons.mp retries).1 _ isAttempt (by simpa using failed)
        obtain ⟨-, -, ⟨noNext, -⟩ | ⟨_, _, isNext, -, -⟩⟩ :=
          @next_list_cases _ _ _ _ next.fuel next.pool _ childless next.row
        · rw [noNext] at isAgain
          cases isAgain
        · obtain rfl := Option.some.inj (isNext.symm.trans isAgain)
          dsimp only at samePosition
          omega

/-- A list of tuples is inserted without a row skipped exactly when `Next` is not called
again after an `InsertTuple` that failed. -/
theorem skipsNoRow_iff (table : TableHeap) (indexes : List BPlusTree) (tuples : List Tuple)
    (calls : List (NextCall D)) :
    SkipsNoRow tuples (attempts calls (ofTuples table indexes tuples : InsertExecutor E)) ↔
      StopsAtFailure (attempts calls (ofTuples table indexes tuples : InsertExecutor E)) := by
  constructor
  · intro skipsNone
    exact stops_of_retries calls rfl skipsNone.retries
  · intro stops
    refine ⟨fun front isFront => ?_, ?_⟩
    · exact (isFront.filterMap _).trans (inserted_prefix_drop calls rfl stops)
    · refine List.IsChain.imp (fun call next succeeds attempt isAttempt failed => ?_) stops
      rw [succeeds attempt isAttempt] at failed
      cases failed

/-- A pool of one frame, on which a table was constructed and another client then keeps
a page. -/
def crowdedPool : TableHeap × BufferPool DiskManager :=
  let built := run TableHeap.new (.new 1 (DiskManager.new (some {})))
  (built.1, built.2.newPage.2)

/-- Two calls for a list of a tuple of size 4 and one of size 8. The page of the other
client is released between the calls. -/
def twoCalls : List (NextCall DiskManager) :=
  let insertion : InsertExecutor SeqScanExecutor :=
    ofTuples crowdedPool.1 [] [{ size := 4 }, { size := 8 }]
  let refused := run (Executor.next 1 ({}, {}) insertion) crowdedPool.2
  [{ fuel := 1, row := ({}, {}), pool := crowdedPool.2 },
    { fuel := 1, row := ({}, {}), pool := (refused.2.unpinPage 1 false).2 }]

/-- The first call fails, the second one inserts the second tuple, and the first tuple is
not inserted. -/
theorem insertion_skips_tuple :
    let history := attempts twoCalls
      (ofTuples crowdedPool.1 [] [{ size := 4 }, { size := 8 }] : InsertExecutor SeqScanExecutor)
    history.map (Option.map fun attempt => (attempt.position, attempt.stored)) =
        [some (0, false), some (1, true)] ∧
      (inserted history).map Tuple.size = [8] ∧
      ¬ inserted history <+: [{ size := 4 }, { size := 8 }] := by
  intro history
  have sizes : (inserted history).map Tuple.size = [8] := by decide +kernel
  refine ⟨by decide +kernel, sizes, fun isPrefix => ?_⟩
  have ofSizes := isPrefix.map Tuple.size
  rw [sizes] at ofSizes
  exact absurd ofSizes (by decide)

end InsertExecutor

end MiniDB.Executors
