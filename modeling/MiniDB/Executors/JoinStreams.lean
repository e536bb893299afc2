import MiniDB.Executors.QueryOperators
import MiniDB.Executors.Streams

/-!
# The rows of a join

A join restarts if its children do. It asks for the first left row in `Init`, and
restarts the right child for each further one. What a row is made of is a parameter:
`joins` says what two rows give, as far as `view` can see.
-/

namespace MiniDB.Executors

open Foundation Buffer PoolProgram Storage

variable {ready : BufferPool DiskManager → Prop} {View : Type} {view : Row → View} {bound : Nat}
  {fuel : Nat} {row : Row} {pool : BufferPool DiskManager}

variable {Left Right LeftView RightView : Type} [Executor Left] [Executor Right]
  {leftView : Row → LeftView} {rightView : Row → RightView}
  {leftFits : Left → Prop} {rightFits : Right → Prop} {executor : JoinExecutor Left Right}

/-- Both children fit. -/
structure JoinFits (leftFits : Left → Prop) (rightFits : Right → Prop)
    (executor : JoinExecutor Left Right) : Prop where
  left : leftFits executor.left
  right : rightFits executor.right

/-- The rows that a left row makes with some right rows, and then the rest; a pair
without a defined result ends the rows. -/
def joinRow (joins : LeftView → RightView → Option View) (left : LeftView) :
    List RightView → Output View → Output View
  | [], rest => rest
  | right :: rights, rest =>
    match joins left right with
    | none => { rows := [], complete := false }
    | some joined =>
      let later := joinRow joins left rights rest
      { later with rows := joined :: later.rows }

/-- The rows of the left rows that are still to come, each with all right rows. -/
def joinRest (joins : LeftView → RightView → Option View) (right : Output RightView)
    (leftComplete : Bool) : List LeftView → Output View
  | [] => { rows := [], complete := right.complete && leftComplete }
  | left :: lefts =>
    if right.complete then joinRow joins left right.rows (joinRest joins right leftComplete lefts)
    else { rows := [], complete := false }

/-- The rows of a join. `Init` asks for the first left row. -/
def joinOutput (joins : LeftView → RightView → Option View) (left : Option (Output LeftView))
    (right : Option (Output RightView)) : Option (Output View) := do
  let left ← left
  let right ← right
  match left.rows with
  | [] => if left.complete then some { rows := [], complete := true } else none
  | first :: lefts =>
    return joinRow joins first right.rows (joinRest joins right left.complete lefts)

omit [Executor Right] in
theorem JoinExecutor.run_nextLeft :
    run (JoinExecutor.nextLeft fuel executor) pool =
      match run (Executor.next fuel (executor.leftCurrent, {}) executor.left) pool with
      | ((none, _), later) => (none, later)
      | ((some (leftHasCurrent, row), left), later) =>
        (some { executor with left, leftCurrent := row.1, leftHasCurrent }, later) := by
  simp only [JoinExecutor.nextLeft, run_bind]
  rcases run (Executor.next fuel (executor.leftCurrent, {}) executor.left) pool with
    ⟨⟨_ | ⟨leftHasCurrent, row⟩, after⟩, later⟩ <;> rfl

theorem JoinExecutor.run_init :
    run (Executor.init fuel executor) pool =
      match run (Executor.init fuel executor.left) pool with
      | (none, later) => (none, later)
      | (some left, later) =>
        match run (Executor.init fuel executor.right) later with
        | (none, later) => (none, later)
        | (some right, later) =>
          run (JoinExecutor.nextLeft fuel { executor with left, right, initialized := true })
            later := by
  change run (JoinExecutor.init fuel executor) pool = _
  simp only [JoinExecutor.init, run_bind]
  rcases run (Executor.init fuel executor.left) pool with ⟨_ | left, later⟩
  · rfl
  · simp only [run_bind]
    rcases run (Executor.init fuel executor.right) later with ⟨_ | right, later⟩ <;> rfl

/-- One turn of the loop of `Next`. -/
theorem JoinExecutor.run_nextLoop (hasCurrent : executor.leftHasCurrent = true) :
    run (JoinExecutor.nextLoop (fuel + 1) row executor) pool =
      match run (Executor.next (fuel + 1) ({}, {}) executor.right) pool with
      | ((none, right), later) => ((none, { executor with right }), later)
      | ((some (true, rightRow), right), later) =>
        (((joinTuple row.1 executor.leftCurrent rightRow.1).map fun tuple =>
          (true, (tuple, executor.leftCurrent.rid)), { executor with right }), later)
      | ((some (false, _), right), later) =>
        match run (Executor.init (fuel + 1) right) later with
        | (none, later) => ((none, { executor with right }), later)
        | (some right, later) =>
          match run (JoinExecutor.nextLeft (fuel + 1) { executor with right }) later with
          | (none, later) => ((none, { executor with right }), later)
          | (some executor, later) => run (JoinExecutor.nextLoop fuel row executor) later := by
  rw [JoinExecutor.nextLoop, if_pos hasCurrent, run_bind]
  rcases run (Executor.next (fuel + 1) ({}, {}) executor.right) pool with ⟨⟨answer, right⟩, later⟩
  match answer with
  | none => rfl
  | some (true, rightRow) =>
    dsimp only
    cases joinTuple row.1 executor.leftCurrent rightRow.1 <;> rfl
  | some (false, _) =>
    simp only [run_bind]
    rcases run (Executor.init (fuel + 1) right) later with ⟨_ | right, later⟩
    · rfl
    · simp only [run_bind]
      rcases run (JoinExecutor.nextLeft (fuel + 1) { executor with right }) later with
        ⟨_ | next, later⟩ <;> rfl

omit [Executor Right] in
variable (fuel) in
theorem JoinFits.nextLeft (left : Keeps ready leftFits)
    (isFit : JoinFits leftFits rightFits executor) (isReady : ready pool) :
    ready (run (JoinExecutor.nextLeft fuel executor) pool).2 ∧
      ∀ after, (run (JoinExecutor.nextLeft fuel executor) pool).1 = some after →
        JoinFits leftFits rightFits after := by
  have kept := left.next fuel (executor.leftCurrent, {}) executor.left pool isFit.left isReady
  rw [JoinExecutor.run_nextLeft]
  generalize run (Executor.next fuel (executor.leftCurrent, {}) executor.left) pool = ran at kept ⊢
  obtain ⟨⟨_ | ⟨leftHasCurrent, row⟩, moved⟩, later⟩ := ran
  · exact ⟨kept.1, fun after started => by simp at started⟩
  · refine ⟨kept.1, fun after started => ?_⟩
    obtain rfl := Option.some.inj started
    exact ⟨kept.2, isFit.right⟩

theorem JoinFits.init (left : Keeps ready leftFits) (right : Keeps ready rightFits)
    (isFit : JoinFits leftFits rightFits executor) (isReady : ready pool) :
    ready (run (Executor.init fuel executor) pool).2 ∧
      ∀ after, (run (Executor.init fuel executor) pool).1 = some after →
        JoinFits leftFits rightFits after := by
  have keptLeft := left.init fuel executor.left pool isFit.left isReady
  rw [JoinExecutor.run_init]
  generalize run (Executor.init fuel executor.left) pool = ran at keptLeft ⊢
  obtain ⟨_ | leftStarted, later⟩ := ran
  · exact ⟨keptLeft.1, fun after started => by simp at started⟩
  · have keptRight := right.init fuel executor.right later isFit.right keptLeft.1
    dsimp only
    generalize run (Executor.init fuel executor.right) later = ran at keptRight ⊢
    obtain ⟨_ | rightStarted, later⟩ := ran
    · exact ⟨keptRight.1, fun after started => by simp at started⟩
    · exact JoinFits.nextLeft fuel left ⟨keptLeft.2 _ rfl, keptRight.2 _ rfl⟩ keptRight.1

theorem JoinFits.nextLoop (left : Keeps ready leftFits) (right : Keeps ready rightFits)
    (isFit : JoinFits leftFits rightFits executor) (isReady : ready pool) :
    ready (run (JoinExecutor.nextLoop fuel row executor) pool).2 ∧
      JoinFits leftFits rightFits (run (JoinExecutor.nextLoop fuel row executor) pool).1.2 := by
  induction fuel generalizing executor pool with
  | zero => exact ⟨isReady, isFit⟩
  | succ fuel ih =>
    cases hasCurrent : executor.leftHasCurrent with
    | false =>
      simp only [JoinExecutor.nextLoop, hasCurrent, Bool.false_eq_true, if_false, run_pure]
      exact ⟨isReady, isFit⟩
    | true =>
      have kept := right.next (fuel + 1) ({}, {}) executor.right pool isFit.right isReady
      rw [JoinExecutor.run_nextLoop hasCurrent]
      generalize run (Executor.next (fuel + 1) ({}, {}) executor.right) pool = ran at kept ⊢
      obtain ⟨⟨answer, moved⟩, later⟩ := ran
      match answer with
      | none => exact ⟨kept.1, isFit.left, kept.2⟩
      | some (true, rightRow) => exact ⟨kept.1, isFit.left, kept.2⟩
      | some (false, _) =>
        have restarted := right.init (fuel + 1) moved later kept.2 kept.1
        dsimp only
        generalize run (Executor.init (fuel + 1) moved) later = ran at restarted ⊢
        obtain ⟨_ | started, later⟩ := ran
        · exact ⟨restarted.1, isFit.left, kept.2⟩
        · have fitsNext : JoinFits leftFits rightFits { executor with right := started } :=
            ⟨isFit.left, restarted.2 _ rfl⟩
          have advanced := fitsNext.nextLeft (fuel + 1) left restarted.1
          dsimp only at restarted ⊢
          generalize run (JoinExecutor.nextLeft (fuel + 1) { executor with right := started })
            later = ran at advanced ⊢
          obtain ⟨_ | next, later⟩ := ran
          · exact ⟨advanced.1, fitsNext⟩
          · exact ih (advanced.2 _ rfl) advanced.1

theorem JoinExecutor.next_lazy :
    LazyNext (E := JoinExecutor Left Right) JoinExecutor.initialized JoinExecutor.nextLoop := by
  intro fuel row executor
  change JoinExecutor.next fuel row executor = _
  unfold JoinExecutor.next
  congr 2
  funext outcome
  cases outcome <;> rfl

theorem join_keeps (left : Keeps ready leftFits) (right : Keeps ready rightFits) :
    Keeps ready (JoinFits leftFits rightFits) :=
  Keeps.of_lazy JoinExecutor.next_lazy
    (fun _ _ _ isFit isReady => isFit.init left right isReady)
    (fun _ _ _ _ isFit isReady => isFit.nextLoop left right isReady)

/-- A join in the middle of its rows: the left row it is at, the left rows still to
come, and the right rows still to come for the left row. -/
structure JoinAt (ready : BufferPool DiskManager → Prop) (leftView : Row → LeftView)
    (rightView : Row → RightView) (leftFits : Left → Prop) (rightFits : Right → Prop) (bound : Nat)
    (current : LeftView) (lefts : Output LeftView) (rights : Output RightView)
    (executor : JoinExecutor Left Right) : Prop where
  fits : JoinFits leftFits rightFits executor
  initialized : executor.initialized = true
  hasCurrent : executor.leftHasCurrent = true
  current : ∃ rid, leftView (executor.leftCurrent, rid) = current
  left : Streams ready leftView bound lefts.complete lefts.rows executor.left
  right : Streams ready rightView bound rights.complete rights.rows executor.right

variable (fuel row) in
theorem JoinExecutor.next_initialized (initialized : executor.initialized = true) :
    Executor.next fuel row executor = JoinExecutor.nextLoop fuel row executor := by
  change JoinExecutor.next fuel row executor = _
  rw [JoinExecutor.next, if_pos initialized]

variable {joins : LeftView → RightView → Option View} {current : LeftView}
  {lefts : Output LeftView} {rights : Output RightView}

/-- The rows of one left row, given what comes after them. -/
theorem joinRow_streams (right : Keeps ready rightFits)
    (compatible : ∀ target leftRow rightRow,
      (joinTuple target leftRow.1 rightRow.1).map (fun tuple => view (tuple, leftRow.1.rid)) =
        joins (leftView leftRow) (rightView rightRow))
    {wider : Nat} (widens : bound + 1 ≤ wider) {rest : Output View}
    (finish : ∀ executor : JoinExecutor Left Right,
      JoinAt ready leftView rightView leftFits rightFits bound current lefts
        { rows := [], complete := rights.complete } executor →
      Streams ready view wider rest.complete rest.rows executor)
    (at_ : JoinAt ready leftView rightView leftFits rightFits bound current lefts rights executor) :
    Streams ready view wider (joinRow joins current rights.rows rest).complete
      (joinRow joins current rights.rows rest).rows executor := by
  obtain ⟨rows, complete⟩ := rights
  induction rows generalizing executor with
  | nil => exact finish executor at_
  | cons seen rows ih =>
    obtain ⟨rid, currentView⟩ := at_.current
    -- what a call of `Next` does with the next right row
    have turn : ∀ fuel row pool, wider ≤ fuel → ready pool → ∃ rightRow moved later,
        rightView rightRow = seen ∧ ready later ∧ rightFits moved ∧
        Streams ready rightView bound complete rows moved ∧
        run (Executor.next fuel row executor) pool =
          (((joinTuple row.1 executor.leftCurrent rightRow.1).map fun tuple =>
            (true, (tuple, executor.leftCurrent.rid)), { executor with right := moved }), later) := by
      intro fuel row pool enough isReady
      obtain ⟨fuel, rfl⟩ : ∃ smaller, fuel = smaller + 1 := ⟨fuel - 1, by omega⟩
      have covers : bound ≤ fuel + 1 := by omega
      obtain ⟨returned, moved, later, looked, readyLater, fitsMoved, streams, ran⟩ :=
        at_.right.next_row right at_.fits.right ({}, {}) covers isReady
      rw [JoinExecutor.next_initialized _ _ at_.initialized,
        JoinExecutor.run_nextLoop at_.hasCurrent, ran]
      exact ⟨returned, moved, later, looked, readyLater, fitsMoved, streams, rfl⟩
    unfold joinRow
    cases joined : joins current seen with
    | none =>
      intro fuel row pool enough isReady
      obtain ⟨rightRow, moved, later, looked, _, _, _, ran⟩ := turn fuel row pool enough isReady
      have fails := compatible row.1 (executor.leftCurrent, rid) rightRow
      rw [currentView, looked, joined, Option.map_eq_none_iff] at fails
      rw [ran, fails]
      rfl
    | some value =>
      intro fuel row pool enough isReady
      obtain ⟨rightRow, moved, later, looked, _, fitsMoved, streams, ran⟩ :=
        turn fuel row pool enough isReady
      have makes := compatible row.1 (executor.leftCurrent, rid) rightRow
      rw [currentView, looked, joined, Option.map_eq_some_iff] at makes
      obtain ⟨tuple, made, viewed⟩ := makes
      rw [ran, made]
      refine ⟨⟨_, rfl, viewed⟩, ih finish ?_⟩
      exact { at_ with fits := ⟨at_.fits.left, fitsMoved⟩, right := streams }

variable (fuel row) in
/-- Where the right rows are exhausted, `Next` restarts the right child and asks for
the next left row. -/
theorem JoinAt.run_next_exhausted (right : Restarts ready rightView rightFits bound (some rights))
    (at_ : JoinAt ready leftView rightView leftFits rightFits bound current lefts
      { rows := [], complete := true } executor) (enough : bound ≤ fuel + 1)
    (isReady : ready pool) :
    ∃ restarted later, ready later ∧ rightFits restarted ∧
      Streams ready rightView bound rights.complete rights.rows restarted ∧
      run (Executor.next (fuel + 1) row executor) pool =
        match run (JoinExecutor.nextLeft (fuel + 1) { executor with right := restarted }) later with
        | (none, later) => ((none, { executor with right := restarted }), later)
        | (some executor, later) => run (JoinExecutor.nextLoop fuel row executor) later := by
  obtain ⟨last, moved, exhausted, readyExhausted, fitsMoved, ran⟩ :=
    at_.right.next_end right.keeps at_.fits.right ({}, {}) enough isReady
  obtain ⟨restarted, later, readyLater, fitsRestarted, streams, started⟩ :=
    right.init_defined enough fitsMoved readyExhausted
  refine ⟨restarted, later, readyLater, fitsRestarted, streams, ?_⟩
  rw [JoinExecutor.next_initialized _ _ at_.initialized, JoinExecutor.run_nextLoop at_.hasCurrent,
    ran]
  dsimp only
  rw [started]

/-- A right child without a defined result leaves the join without one. -/
theorem JoinAt.streams_broken {wider : Nat} (widens : bound + 1 ≤ wider)
    (at_ : JoinAt ready leftView rightView leftFits rightFits bound current lefts
      { rows := [], complete := false } executor) :
    Streams ready view wider false [] executor := by
  intro fuel row pool enough isReady
  obtain ⟨fuel, rfl⟩ : ∃ smaller, fuel = smaller + 1 := ⟨fuel - 1, by omega⟩
  have covers : bound ≤ fuel + 1 := by omega
  obtain ⟨moved, later, ran⟩ := at_.right.next_undefined ({}, {}) covers isReady
  rw [JoinExecutor.next_initialized _ _ at_.initialized, JoinExecutor.run_nextLoop at_.hasCurrent,
    ran]
  rfl

/-- Once the right rows of a left row are exhausted, the rows of the left rows that
are still to come follow. -/
theorem joinRest_streams (left : Keeps ready leftFits)
    (right : Restarts ready rightView rightFits bound (some rights))
    (compatible : ∀ target leftRow rightRow,
      (joinTuple target leftRow.1 rightRow.1).map (fun tuple => view (tuple, leftRow.1.rid)) =
        joins (leftView leftRow) (rightView rightRow))
    {leftComplete : Bool} (comingLefts : List LeftView)
    (at_ : JoinAt ready leftView rightView leftFits rightFits bound current
      { rows := comingLefts, complete := leftComplete }
      { rows := [], complete := rights.complete } executor) :
    Streams ready view (bound + comingLefts.length + 2)
      (joinRest joins rights leftComplete comingLefts).complete
      (joinRest joins rights leftComplete comingLefts).rows executor := by
  induction comingLefts generalizing executor current with
  | nil =>
    unfold joinRest
    cases rightComplete : rights.complete with
    | false => exact (rightComplete ▸ at_).streams_broken (by simp)
    | true =>
      rw [Bool.true_and]
      intro fuel row pool enough isReady
      simp only [List.length_nil] at enough
      obtain ⟨fuel, rfl⟩ : ∃ smaller, fuel = smaller + 2 := ⟨fuel - 2, by omega⟩
      obtain ⟨restarted, later, readyLater, _, _, ran⟩ :=
        (rightComplete ▸ at_).run_next_exhausted (fuel + 1) row right (by omega) isReady
      have covers : bound ≤ fuel + 2 := by omega
      rw [ran, JoinExecutor.run_nextLeft]
      dsimp only
      cases leftComplete with
      | true =>
        obtain ⟨last, moved, ended, -, -, leftRan⟩ :=
          at_.left.next_end left at_.fits.left (executor.leftCurrent, {}) covers readyLater
        rw [leftRan]
        exact ⟨row, rfl⟩
      | false =>
        obtain ⟨moved, ended, leftRan⟩ :=
          at_.left.next_undefined (executor.leftCurrent, {}) covers readyLater
        rw [leftRan]
        rfl
  | cons next comingLefts ih =>
    have shrinks : bound + comingLefts.length + 2 ≤ bound + (next :: comingLefts).length + 2 := by
      rw [List.length_cons]
      omega
    unfold joinRest
    cases rightComplete : rights.complete with
    | false => exact (rightComplete ▸ at_).streams_broken (by omega)
    | true =>
      rw [if_pos rfl]
      -- the call that moves on to the next left row goes on as the join at that row
      refine Streams.of_later shrinks fun fuel row pool enough isReady => ?_
      simp only [List.length_cons] at enough
      obtain ⟨fuel, rfl⟩ : ∃ smaller, fuel = smaller + 1 := ⟨fuel - 1, by omega⟩
      obtain ⟨restarted, later, readyLater, fitsRestarted, rightStreams, ran⟩ :=
        (rightComplete ▸ at_).run_next_exhausted fuel row right (by omega) isReady
      have covers : bound ≤ fuel + 1 := by omega
      obtain ⟨returned, moved, advanced, looked, readyAdvanced, fitsMoved, leftStreams, leftRan⟩ :=
        at_.left.next_row left at_.fits.left (executor.leftCurrent, {}) covers readyLater
      rw [ran, JoinExecutor.run_nextLeft]
      dsimp only
      rw [leftRan]
      have atNext : JoinAt ready leftView rightView leftFits rightFits bound next
          { rows := comingLefts, complete := leftComplete } rights
          { executor with
            left := moved, right := restarted, leftCurrent := returned.1, leftHasCurrent := true } :=
        { fits := ⟨fitsMoved, fitsRestarted⟩
          initialized := at_.initialized
          hasCurrent := rfl
          current := ⟨returned.2, looked⟩
          left := leftStreams
          right := rightStreams }
      refine ⟨_, fuel, row, advanced, by omega, readyAdvanced,
        joinRow_streams right.keeps compatible (by omega) (fun executor at_ => ih at_) atNext, ?_⟩
      rw [JoinExecutor.next_initialized _ _ atNext.initialized]

/-- `Init` starts both children and asks for the first left row. -/
theorem JoinFits.run_init (left : Restarts ready leftView leftFits bound (some lefts))
    (right : Restarts ready rightView rightFits bound (some rights)) (enough : bound ≤ fuel)
    (isFit : JoinFits leftFits rightFits executor) (isReady : ready pool) :
    ∃ leftStarted rightStarted later, ready later ∧ leftFits leftStarted ∧
      rightFits rightStarted ∧ Streams ready leftView bound lefts.complete lefts.rows leftStarted ∧
      Streams ready rightView bound rights.complete rights.rows rightStarted ∧
      run (Executor.init fuel executor) pool =
        run (JoinExecutor.nextLeft fuel
          { executor with left := leftStarted, right := rightStarted, initialized := true })
          later := by
  obtain ⟨leftStarted, between, readyBetween, leftFit, leftStreams, ranLeft⟩ :=
    left.init_defined enough isFit.left isReady
  obtain ⟨rightStarted, later, readyLater, rightFit, rightStreams, ranRight⟩ :=
    right.init_defined enough isFit.right readyBetween
  refine ⟨leftStarted, rightStarted, later, readyLater, leftFit, rightFit, leftStreams,
    rightStreams, ?_⟩
  rw [JoinExecutor.run_init, ranLeft]
  dsimp only
  rw [ranRight]

/-- `Init` of a join without a defined result. -/
theorem join_undefined {leftOutput : Option (Output LeftView)}
    {rightOutput : Option (Output RightView)}
    (left : Restarts ready leftView leftFits bound leftOutput)
    (right : Restarts ready rightView rightFits bound rightOutput)
    (isNone : joinOutput joins leftOutput rightOutput = none) (enough : bound ≤ fuel)
    (isFit : JoinFits leftFits rightFits executor) (isReady : ready pool) :
    (run (Executor.init fuel executor) pool).1 = none := by
  cases leftOutput with
  | none =>
    obtain ⟨later, ran⟩ := left.init_undefined enough isFit.left isReady
    rw [JoinExecutor.run_init, ran]
  | some lefts =>
    cases rightOutput with
    | none =>
      obtain ⟨leftStarted, between, readyBetween, -, -, ranLeft⟩ :=
        left.init_defined enough isFit.left isReady
      obtain ⟨later, ranRight⟩ := right.init_undefined enough isFit.right readyBetween
      rw [JoinExecutor.run_init, ranLeft]
      dsimp only
      rw [ranRight]
    | some rights =>
      obtain ⟨leftStarted, rightStarted, later, readyLater, _, _, leftStreams, _, ran⟩ :=
        isFit.run_init left right enough isReady
      obtain ⟨rows, complete⟩ := lefts
      cases rows with
      | cons first rows => simp [joinOutput] at isNone
      | nil =>
        cases complete with
        | true => simp [joinOutput] at isNone
        | false =>
          obtain ⟨moved, ended, leftRan⟩ :=
            leftStreams.next_undefined (executor.leftCurrent, {}) enough readyLater
          rw [ran, JoinExecutor.run_nextLeft]
          dsimp only
          rw [leftRan]

/-- A join restarts if both of its children do. -/
theorem join_restarts {leftOutput : Option (Output LeftView)}
    {rightOutput : Option (Output RightView)}
    (compatible : ∀ target leftRow rightRow,
      (joinTuple target leftRow.1 rightRow.1).map (fun tuple => view (tuple, leftRow.1.rid)) =
        joins (leftView leftRow) (rightView rightRow))
    (left : Restarts ready leftView leftFits bound leftOutput)
    (right : Restarts ready rightView rightFits bound rightOutput) :
    Restarts ready view (JoinFits leftFits rightFits) (bound + rowCount leftOutput + 2)
      (joinOutput joins leftOutput rightOutput) where
  keeps := join_keeps left.keeps right.keeps
  undefined isNone fuel executor pool enough isFit isReady :=
    join_undefined left right isNone (by omega) isFit isReady
  starts out defined fuel executor pool enough isFit isReady := by
    have covers : bound ≤ fuel := by omega
    cases leftOutput with
    | none => simp [joinOutput] at defined
    | some lefts =>
      cases rightOutput with
      | none => simp [joinOutput] at defined
      | some rights =>
        obtain ⟨leftStarted, rightStarted, later, readyLater, leftFit, rightFit, leftStreams,
          rightStreams, ran⟩ := isFit.run_init left right covers isReady
        rw [ran, JoinExecutor.run_nextLeft]
        dsimp only
        obtain ⟨rows, complete⟩ := lefts
        cases rows with
        | nil =>
          cases complete with
          | false => simp [joinOutput] at defined
          | true =>
            obtain rfl : ({ rows := [], complete := true } : Output View) = out := by
              simpa [joinOutput] using defined
            obtain ⟨last, moved, ended, -, -, leftRan⟩ :=
              leftStreams.next_end left.keeps leftFit (executor.leftCurrent, {}) covers readyLater
            rw [leftRan]
            refine ⟨_, rfl, fun fuel row pool enough isReady => ⟨row, ?_⟩⟩
            obtain ⟨fuel, rfl⟩ : ∃ smaller, fuel = smaller + 1 := ⟨fuel - 1, by omega⟩
            rw [JoinExecutor.next_initialized _ _ rfl]
            rfl
        | cons first rows =>
          obtain rfl : joinRow joins first rights.rows (joinRest joins rights complete rows) = out := by
            simpa [joinOutput] using defined
          obtain ⟨returned, moved, advanced, looked, -, fitsMoved, leftStreams, leftRan⟩ :=
            leftStreams.next_row left.keeps leftFit (executor.leftCurrent, {}) covers readyLater
          rw [leftRan]
          refine ⟨_, rfl, ?_⟩
          have atFirst : JoinAt ready leftView rightView leftFits rightFits bound first
              { rows, complete } rights
              { executor with
                left := moved, right := rightStarted, leftCurrent := returned.1
                leftHasCurrent := true, initialized := true } :=
            { fits := ⟨fitsMoved, rightFit⟩
              initialized := rfl
              hasCurrent := rfl
              current := ⟨returned.2, looked⟩
              left := leftStreams
              right := rightStreams }
          refine joinRow_streams right.keeps compatible (by omega) (fun executor at_ => ?_) atFirst
          refine (joinRest_streams left.keeps right compatible rows at_).mono ?_
          simp only [rowCount, Option.elim_some, List.length_cons]
          omega

end MiniDB.Executors
