import MiniDB.Executors.Restart

/-!
# A join computes the cross product

What an executor hands out may depend on the rows that its caller passes, so the caller
is part of the statement. A join calls its left child with one tuple again and again,
and its right child with a new tuple each time. Only the right child has to start over.
-/

namespace MiniDB.Executors

open Foundation Buffer PoolProgram Storage

/-! ## Callers -/

/-- How `Next` is called, and what is looked at: the states of the pool, the rows that
are passed after a row was handed out, and what is seen of a row. -/
structure Caller (View : Type) where
  ready : BufferPool DiskManager → Prop
  passes : Row → Row → Prop
  view : Row → View

variable {E View : Type} [Executor E] {caller : Caller View} {bound fuel : Nat}
  {ended : E → Prop} {seen : View} {rows : List View} {last row : Row} {executor : E}
  {pool : BufferPool DiskManager}

/-- Called so after `last`, `Next` hands out these rows, and then says that there are no
more. -/
def Hands (caller : Caller View) (bound : Nat) (ended : E → Prop) : List View → Row → E → Prop
  | [], last, executor => ∀ fuel row pool, bound ≤ fuel → caller.passes last row →
    caller.ready pool → ∃ beyond after later,
      run (Executor.next fuel row executor) pool = ((some (false, beyond), after), later) ∧
        caller.ready later ∧ ended after
  | seen :: rows, last, executor => ∀ fuel row pool, bound ≤ fuel → caller.passes last row →
    caller.ready pool → ∃ returned after later,
      run (Executor.next fuel row executor) pool = ((some (true, returned), after), later) ∧
        caller.view returned = seen ∧ caller.ready later ∧
        Hands caller bound ended rows returned after

/-- `Init` leads to these rows. -/
def Starts (caller : Caller View) (bound : Nat) (ended : E → Prop) (rows : List View)
    (last : Row) (executor : E) : Prop :=
  ∀ fuel pool, bound ≤ fuel → caller.ready pool → ∃ after later,
    run (Executor.init fuel executor) pool = (some after, later) ∧ caller.ready later ∧
      Hands caller bound ended rows last after

/-- More fuel does no harm. -/
theorem Hands.mono {larger : Nat} (grows : bound ≤ larger)
    (hands : Hands caller bound ended rows last executor) :
    Hands caller larger ended rows last executor := by
  induction rows generalizing last executor with
  | nil => exact fun fuel row pool enough => hands fuel row pool (grows.trans enough)
  | cons seen rows ih =>
    intro fuel row pool enough passed isReady
    obtain ⟨returned, after, later, ran, looked, readyLater, rest⟩ :=
      hands fuel row pool (grows.trans enough) passed isReady
    exact ⟨returned, after, later, ran, looked, readyLater, ih rest⟩

/-- An executor whose `Next` goes on as that of another one hands out the rows of the
other one. -/
theorem Hands.of_later {smaller : Nat} (shrinks : smaller ≤ bound)
    (goesOn : ∀ (fuel : Nat) (row : Row) (pool : BufferPool DiskManager), bound ≤ fuel →
      caller.passes last row → caller.ready pool →
      ∃ (after : E) (left : Nat) (before passed : Row) (later : BufferPool DiskManager),
        smaller ≤ left ∧ caller.passes before passed ∧ caller.ready later ∧
        Hands caller smaller ended rows before after ∧
        run (Executor.next fuel row executor) pool =
          run (Executor.next left passed after) later) :
    Hands caller bound ended rows last executor := by
  cases rows with
  | nil =>
    intro fuel row pool enough passed isReady
    obtain ⟨after, left, before, next, later, covers, passes, readyLater, hands, same⟩ :=
      goesOn fuel row pool enough passed isReady
    rw [same]
    exact hands left next later covers passes readyLater
  | cons seen rows =>
    intro fuel row pool enough passed isReady
    obtain ⟨after, left, before, next, later, covers, passes, readyLater, hands, same⟩ :=
      goesOn fuel row pool enough passed isReady
    rw [same]
    obtain ⟨returned, moved, ended, ran, looked, readyEnded, rest⟩ :=
      hands left next later covers passes readyLater
    exact ⟨returned, moved, ended, ran, looked, readyEnded, rest.mono shrinks⟩

/-- Draining passes each row on to the next call. -/
theorem Hands.drain (passes : ∀ row, caller.passes row row)
    (hands : Hands caller bound ended rows row executor) (enough : bound + rows.length < fuel)
    (isReady : caller.ready pool) :
    ∃ drained after later,
      run (MiniDB.Executors.drain fuel row executor) pool = ((some drained, after), later) ∧
        drained.map caller.view = rows ∧ caller.ready later ∧ ended after := by
  induction rows generalizing fuel row executor pool with
  | nil =>
    obtain ⟨fuel, rfl⟩ : ∃ smaller, fuel = smaller + 1 := ⟨fuel - 1, by omega⟩
    rw [List.length_nil] at enough
    obtain ⟨beyond, after, later, ran, readyLater, isEnded⟩ :=
      hands (fuel + 1) row pool (by omega) (passes row) isReady
    refine ⟨[], after, later, ?_, rfl, readyLater, isEnded⟩
    rw [drain_succ, ran]
  | cons seen rows ih =>
    obtain ⟨fuel, rfl⟩ : ∃ smaller, fuel = smaller + 1 := ⟨fuel - 1, by omega⟩
    rw [List.length_cons] at enough
    obtain ⟨returned, after, later, ran, looked, readyLater, rest⟩ :=
      hands (fuel + 1) row pool (by omega) (passes row) isReady
    have enoughRest : bound + rows.length < fuel := by omega
    obtain ⟨drained, final, ending, ranRest, viewed, readyEnding, isEnded⟩ :=
      ih rest enoughRest readyLater
    refine ⟨returned :: drained, final, ending, ?_, ?_, readyEnding, isEnded⟩
    · rw [drain_succ, ran]
      simp only [ranRest, Option.map_some]
    · rw [List.map_cons, looked, viewed]

/-- `Init` and draining. -/
theorem Starts.collect (passes : ∀ row, caller.passes row row)
    (starts : Starts caller bound ended rows row executor) (enough : bound + rows.length < fuel)
    (isReady : caller.ready pool) :
    ∃ drained after later,
      run (MiniDB.Executors.collect fuel row executor) pool = ((some drained, after), later) ∧
        drained.map caller.view = rows ∧ caller.ready later ∧ ended after := by
  obtain ⟨started, between, ran, readyBetween, hands⟩ := starts fuel pool (by omega) isReady
  simp only [MiniDB.Executors.collect, run_bind, ran]
  exact hands.drain passes enough readyBetween

/-- An executor that restarts hands out its rows to every caller. -/
theorem Streams.hands {ready : BufferPool DiskManager → Prop} {view : Row → View}
    {fits : E → Prop} (keeps : Keeps ready fits) (passes : Row → Row → Prop)
    (ends : ∀ executor, fits executor → ended executor) (isFit : fits executor)
    (streams : Streams ready view bound true rows executor) (last : Row) :
    Hands { ready, passes, view } bound ended rows last executor := by
  induction rows generalizing last executor with
  | nil =>
    intro fuel row pool enough _ isReady
    obtain ⟨beyond, after, later, readyLater, fitAfter, ran⟩ :=
      streams.next_end keeps isFit row enough isReady
    exact ⟨beyond, after, later, ran, readyLater, ends after fitAfter⟩
  | cons seen rows ih =>
    intro fuel row pool enough _ isReady
    obtain ⟨returned, after, later, looked, readyLater, fitAfter, rest, ran⟩ :=
      streams.next_row keeps isFit row enough isReady
    exact ⟨returned, after, later, ran, looked, readyLater, ih fitAfter rest returned⟩

theorem Restarts.starts_hands {ready : BufferPool DiskManager → Prop} {view : Row → View}
    {fits : E → Prop}
    (restarts : Restarts ready view fits bound (some { rows, complete := true }))
    (passes : Row → Row → Prop) (ends : ∀ executor, fits executor → ended executor)
    (isFit : fits executor) (last : Row) :
    Starts { ready, passes, view } bound ended rows last executor := by
  intro fuel pool enough isReady
  obtain ⟨after, later, readyLater, fitAfter, streams, ran⟩ :=
    restarts.init_defined enough isFit isReady
  exact ⟨after, later, ran, readyLater, streams.hands restarts.keeps passes ends fitAfter last⟩

/-! ## The rows of a join -/

variable {Left Right : Type} [Executor Left] [Executor Right]
  {join : JoinExecutor Left Right} {ready : BufferPool DiskManager → Prop}
  {restarted : Right → Prop}

/-- How a join calls its left child: with one tuple, and a null RID. Of each row it uses
the bytes and the RID that the tuple stores. -/
def leftCaller (ready : BufferPool DiskManager → Prop) : Caller (List UInt8 × RID) where
  ready := ready
  passes last row := row = (last.1, {})
  view row := (content row, row.1.rid)

/-- How a join calls its right child: with a new tuple each time. -/
def rightCaller (ready : BufferPool DiskManager → Prop) : Caller (List UInt8) where
  ready := ready
  passes _ row := row = ({}, {})
  view := content

/-- A caller that passes any row, and looks at the bytes and at the reported RID. -/
def reader (ready : BufferPool DiskManager → Prop) : Caller (List UInt8 × RID) where
  ready := ready
  passes _ _ := True
  view row := (content row, row.2)

/-- The rows that a left row makes. -/
def crossRow (left : List UInt8 × RID) (rights : List (List UInt8)) : List (List UInt8 × RID) :=
  rights.map fun right => ((left.1 ++ right).take Tuple.maxSize, left.2)

/-- Each left row, in order, with all right rows. -/
def crossProduct (lefts : List (List UInt8 × RID)) (rights : List (List UInt8)) :
    List (List UInt8 × RID) :=
  lefts.flatMap fun left => crossRow left rights

theorem length_crossProduct (lefts : List (List UInt8 × RID)) (rights : List (List UInt8)) :
    (crossProduct lefts rights).length = lefts.length * rights.length := by
  induction lefts with
  | nil => rw [List.length_nil, Nat.zero_mul]; rfl
  | cons left lefts ih =>
    have first : crossProduct (left :: lefts) rights =
        crossRow left rights ++ crossProduct lefts rights := List.flatMap_cons
    rw [first, List.length_append, ih, crossRow, List.length_map, List.length_cons, Nat.succ_mul,
      Nat.add_comm]

/-- The bytes that a join writes for two rows. -/
theorem joinTuple_cut (target left right : Tuple) (fits : left.size ≤ Tuple.maxSize) :
    ∃ tuple, joinTuple target left right = some tuple ∧
      content (tuple, left.rid) =
        (content (left, {}) ++ content (right, {})).take Tuple.maxSize := by
  have joined := joinTuple_content target (left, {}) (right, {}) left.rid
  have small : (content (left, {})).length ≤ Tuple.maxSize := by
    rw [length_content]
    exact fits
  rw [joinContent, if_neg (Nat.not_lt.mpr small)] at joined
  obtain ⟨tuple, made, bytes⟩ := Option.map_eq_some_iff.mp joined
  refine ⟨tuple, made, bytes.trans ?_⟩
  rw [List.take_append, List.take_of_length_le small]

/-- A join after its last row. -/
def Finished (join : JoinExecutor Left Right) : Prop :=
  join.initialized = true ∧ join.leftHasCurrent = false

variable (fuel row pool) in
theorem Finished.run_next (finished : Finished join) :
    run (Executor.next (fuel + 1) row join) pool = ((some (false, row), join), pool) := by
  rw [JoinExecutor.next_initialized (fuel + 1) row finished.1, JoinExecutor.nextLoop,
    if_neg (by simp [finished.2]), run_pure]

/-- A join at a left row, with some left rows and, for this left row, some right rows
still to come. -/
structure Crossing (ready : BufferPool DiskManager → Prop) (restarted : Right → Prop)
    (bound : Nat) (current : List UInt8 × RID) (lefts : List (List UInt8 × RID))
    (rights : List (List UInt8)) (join : JoinExecutor Left Right) : Prop where
  initialized : join.initialized = true
  hasCurrent : join.leftHasCurrent = true
  current : (content (join.leftCurrent, {}), join.leftCurrent.rid) = current
  left : ∃ rid, Hands (leftCaller ready) bound (fun _ => True) lefts (join.leftCurrent, rid)
    join.left
  right : ∃ last, Hands (rightCaller ready) bound restarted rights last join.right

/-- A join that has asked for the first of these left rows. -/
def Asked (ready : BufferPool DiskManager → Prop) (restarted : Right → Prop) (bound : Nat)
    (rights : List (List UInt8)) (join : JoinExecutor Left Right) :
    List (List UInt8 × RID) → Prop
  | [] => Finished join
  | current :: lefts => Crossing ready restarted bound current lefts rights join

variable {current : List UInt8 × RID} {lefts output : List (List UInt8 × RID)}
  {rights rest : List (List UInt8)}

theorem Asked.initialized (asked : Asked ready restarted bound rights join lefts) :
    join.initialized = true := by
  cases lefts with
  | nil => exact asked.1
  | cons current lefts => exact Crossing.initialized asked

variable (join) in
/-- Asking for the next left row. -/
theorem JoinExecutor.asked_nextLeft {rid : RID} (initialized : join.initialized = true)
    (left : Hands (leftCaller ready) bound (fun _ => True) lefts (join.leftCurrent, rid) join.left)
    (right : Hands (rightCaller ready) bound restarted rights last join.right)
    (enough : bound ≤ fuel) (isReady : ready pool) :
    ∃ after later, run (JoinExecutor.nextLeft fuel join) pool = (some after, later) ∧
      ready later ∧ Asked ready restarted bound rights after lefts := by
  rw [JoinExecutor.run_nextLeft]
  cases lefts with
  | nil =>
    obtain ⟨beyond, moved, later, ran, readyLater, -⟩ := left fuel _ pool enough rfl isReady
    rw [ran]
    exact ⟨_, later, rfl, readyLater, initialized, rfl⟩
  | cons seen lefts =>
    obtain ⟨returned, moved, later, ran, looked, readyLater, coming⟩ :=
      left fuel _ pool enough rfl isReady
    rw [ran]
    refine ⟨_, later, rfl, readyLater, ?_⟩
    exact
      { initialized := initialized
        hasCurrent := rfl
        current := looked
        left := ⟨returned.2, coming⟩
        right := ⟨last, right⟩ }

/-- The rows of one left row, given what comes after them. -/
theorem Crossing.hands
    (restarts : ∀ child, restarted child →
      Starts (rightCaller ready) bound restarted rights ({}, {}) child)
    (small : current.1.length ≤ Tuple.maxSize)
    (others : ∀ (join : JoinExecutor Left Right) last,
      Asked ready restarted bound rights join lefts →
      Hands (reader ready) (bound + lefts.length + 1) Finished output last join)
    (crossing : Crossing ready restarted bound current lefts rest join) :
    Hands (reader ready) (bound + lefts.length + 2) Finished (crossRow current rest ++ output) last
      join := by
  induction rest generalizing join last with
  | nil =>
    -- the call that finds no more right rows goes on with the next left row
    refine Hands.of_later (Nat.le_succ _) fun fuel row pool enough _ isReady => ?_
    obtain ⟨fuel, rfl⟩ : ∃ smaller, fuel = smaller + 1 := ⟨fuel - 1, by omega⟩
    have covers : bound ≤ fuel + 1 := by omega
    obtain ⟨lastRight, exhausted⟩ := crossing.right
    obtain ⟨beyond, moved, between, ranRight, readyBetween, isRestarted⟩ :=
      exhausted (fuel + 1) ({}, {}) pool covers rfl isReady
    obtain ⟨fresh, started, ranInit, readyStarted, rightHands⟩ :=
      restarts moved isRestarted (fuel + 1) between covers readyBetween
    obtain ⟨rid, leftHands⟩ := crossing.left
    obtain ⟨after, later, ranLeft, readyLater, asked⟩ :=
      JoinExecutor.asked_nextLeft { join with right := fresh } crossing.initialized leftHands
        rightHands covers readyStarted
    refine ⟨after, fuel, last, row, later, by omega, trivial, readyLater, others after last asked, ?_⟩
    rw [JoinExecutor.next_initialized _ _ crossing.initialized,
      JoinExecutor.next_initialized _ _ asked.initialized,
      JoinExecutor.run_nextLoop crossing.hasCurrent, ranRight]
    dsimp only
    rw [ranInit]
    dsimp only
    rw [ranLeft]
  | cons seen rest ih =>
    intro fuel row pool enough _ isReady
    obtain ⟨fuel, rfl⟩ : ∃ smaller, fuel = smaller + 1 := ⟨fuel - 1, by omega⟩
    have covers : bound ≤ fuel + 1 := by omega
    obtain ⟨lastRight, coming⟩ := crossing.right
    obtain ⟨returned, moved, later, ran, looked, readyLater, rightRest⟩ :=
      coming (fuel + 1) ({}, {}) pool covers rfl isReady
    have leftSize : join.leftCurrent.size ≤ Tuple.maxSize := by
      have sized := congrArg (fun row => row.1.length) crossing.current
      rw [length_content] at sized
      exact sized.trans_le small
    obtain ⟨tuple, made, bytes⟩ := joinTuple_cut row.1 join.leftCurrent returned.1 leftSize
    have next : Crossing ready restarted bound current lefts rest { join with right := moved } :=
      { crossing with right := ⟨returned, rightRest⟩ }
    refine ⟨(tuple, join.leftCurrent.rid), { join with right := moved }, later, ?_, ?_, readyLater,
      ih next⟩
    · rw [JoinExecutor.next_initialized _ _ crossing.initialized,
        JoinExecutor.run_nextLoop crossing.hasCurrent, ran]
      simp only [made, Option.map_some]
    · have rightBytes : content (returned.1, {}) = seen := looked
      rw [rightBytes] at bytes
      rw [← crossing.current]
      exact Prod.ext bytes rfl

/-- The rows of a join that has asked for its first left row. -/
theorem Asked.hands
    (restarts : ∀ child, restarted child →
      Starts (rightCaller ready) bound restarted rights ({}, {}) child)
    (fit : ∀ left ∈ lefts, left.1.length ≤ Tuple.maxSize)
    (asked : Asked ready restarted bound rights join lefts) :
    Hands (reader ready) (bound + lefts.length + 1) Finished (crossProduct lefts rights) last
      join := by
  induction lefts generalizing join last with
  | nil =>
    intro fuel row pool enough _ isReady
    obtain ⟨fuel, rfl⟩ : ∃ smaller, fuel = smaller + 1 := ⟨fuel - 1, by omega⟩
    exact ⟨row, join, pool, Finished.run_next fuel row pool asked, isReady, asked⟩
  | cons current lefts ih =>
    have small := fit current List.mem_cons_self
    have fitRest : ∀ left ∈ lefts, left.1.length ≤ Tuple.maxSize :=
      fun left member => fit left (List.mem_cons_of_mem current member)
    exact Crossing.hands restarts small (fun join last => ih fitRest) asked

/-- `Init` and draining a join give each left row with each right row, in the order of
the left rows and, for each of them, of the right rows: the bytes of both, cut at the
largest size, with the RID that the left tuple stores. Every later call of `Next`
returns false. The left child may be of any kind; the right child starts over. -/
theorem join_crossProduct (join : JoinExecutor Left Right) (fuel : Nat) (row : Row)
    (left : Starts (leftCaller ready) bound (fun _ => True) lefts (join.leftCurrent, {}) join.left)
    (restarts : ∀ child, restarted child →
      Starts (rightCaller ready) bound restarted rights ({}, {}) child)
    (right : restarted join.right) (fit : ∀ left ∈ lefts, left.1.length ≤ Tuple.maxSize)
    (enough : bound + lefts.length + 1 + lefts.length * rights.length < fuel)
    (isReady : ready pool) :
    ∃ rows after later, run (collect fuel row join) pool = ((some rows, after), later) ∧
      rows.map (fun row => (content row, row.2)) =
        lefts.flatMap (fun left => rights.map fun right =>
          ((left.1 ++ right).take Tuple.maxSize, left.2)) ∧
      rows.length = lefts.length * rights.length ∧
      ∀ fuel row (pool : BufferPool DiskManager),
        run (Executor.next (fuel + 1) row after) pool = ((some (false, row), after), pool) := by
  have starts : Starts (reader ready) (bound + lefts.length + 1) Finished
      (crossProduct lefts rights) row join := by
    intro fuel pool enough isReady
    have covers : bound ≤ fuel := by omega
    obtain ⟨leftStarted, between, ranLeft, readyBetween, leftHands⟩ :=
      left fuel pool covers isReady
    obtain ⟨rightStarted, started, ranRight, readyStarted, rightHands⟩ :=
      restarts join.right right fuel between covers readyBetween
    obtain ⟨after, later, ran, readyLater, asked⟩ :=
      JoinExecutor.asked_nextLeft
        { join with left := leftStarted, right := rightStarted, initialized := true } rfl
        leftHands rightHands covers readyStarted
    refine ⟨after, later, ?_, readyLater, asked.hands restarts fit⟩
    rw [JoinExecutor.run_init, ranLeft]
    dsimp only
    rw [ranRight]
    exact ran
  have enoughRows : bound + lefts.length + 1 + (crossProduct lefts rights).length < fuel := by
    rw [length_crossProduct]
    exact enough
  obtain ⟨rows, after, later, ran, viewed, -, finished⟩ :=
    starts.collect (fun _ => trivial) enoughRows isReady
  refine ⟨rows, after, later, ran, viewed, ?_, fun fuel row pool => finished.run_next fuel row pool⟩
  rw [← length_crossProduct lefts rights, ← viewed, List.length_map]

/-- A table with two rows, joined with itself. -/
theorem join_crossProduct_two_rows :
    let outcome := run (fill [HeapHistory.intPair 12 8, HeapHistory.intPair 20 8])
      (BufferPool.new 1 (DiskManager.new (some {})))
    let scan := SeqScanExecutor.newLayer outcome.1.2 none .both
    let join : JoinExecutor SeqScanExecutor SeqScanExecutor := { left := scan, right := scan }
    ∃ rows after later, run (collect 20 ({}, {}) join) outcome.2 = ((some rows, after), later) ∧
      rows.map (fun row => (content row, row.2)) =
        [([12, 0, 0, 0, 8, 0, 0, 0, 12, 0, 0, 0, 8, 0, 0, 0], { pageId := 0, slotNum := 0 }),
          ([12, 0, 0, 0, 8, 0, 0, 0, 20, 0, 0, 0, 8, 0, 0, 0], { pageId := 0, slotNum := 0 }),
          ([20, 0, 0, 0, 8, 0, 0, 0, 12, 0, 0, 0, 8, 0, 0, 0], { pageId := 0, slotNum := 1 }),
          ([20, 0, 0, 0, 8, 0, 0, 0, 20, 0, 0, 0, 8, 0, 0, 0], { pageId := 0, slotNum := 1 })] := by
  intro outcome scan join
  have settled : (BufferPool.new 1 (DiskManager.new (some {}))).frames.Settled :=
    Frames.settled_empty _ (by decide)
  obtain ⟨isReady, delivers⟩ := delivers_fill settled (by decide +kernel)
    ((fitAll_iff [HeapHistory.intPair 12 8, HeapHistory.intPair 20 8] (List.cons_ne_nil _ _) _ _).mpr
      (by decide))
  have heap : outcome.1.2 = { firstPageId := 0, lastPageId := 0 } := by decide +kernel
  have scans := scan_restarts none .both fun _ => delivers
  have fits : ScanFits outcome.1.2
      (firstPageOf [HeapHistory.intPair 12 8, HeapHistory.intPair 20 8]) none .both scan :=
    ScanFits.new ..
  have left := scans.map fun row => (content row, row.1.rid)
  have right := scans.map content
  have leftRows : (some (Output.filter (tableOutput { firstPageId := 0, lastPageId := 0 }
      (firstPageOf [HeapHistory.intPair 12 8, HeapHistory.intPair 20 8])) (keepsRow none .both))).map
        (fun out => { out with rows := out.rows.map fun row => (content row, row.1.rid) }) =
      some { rows := [([12, 0, 0, 0, 8, 0, 0, 0], { pageId := 0, slotNum := 0 }),
               ([20, 0, 0, 0, 8, 0, 0, 0], { pageId := 0, slotNum := 1 })]
             complete := true } := by
    decide +kernel
  have rightRows : (some (Output.filter (tableOutput { firstPageId := 0, lastPageId := 0 }
      (firstPageOf [HeapHistory.intPair 12 8, HeapHistory.intPair 20 8])) (keepsRow none .both))).map
        (fun out => { out with rows := out.rows.map content }) =
      some { rows := [[12, 0, 0, 0, 8, 0, 0, 0], [20, 0, 0, 0, 8, 0, 0, 0]], complete := true } := by
    decide +kernel
  rw [← heap] at leftRows rightRows
  rw [leftRows] at left
  rw [rightRows] at right
  have leftStarts := left.starts_hands (fun last row => row = (last.1, {}))
    (fun _ _ => trivial) fits (join.leftCurrent, {})
  have rightStarts := fun (child : SeqScanExecutor)
      (restarted : ScanFits outcome.1.2
        (firstPageOf [HeapHistory.intPair 12 8, HeapHistory.intPair 20 8]) none .both child) =>
    right.starts_hands (fun _ row => row = ({}, {})) (fun _ => id) restarted ({}, {})
  obtain ⟨rows, after, later, ran, viewed, -⟩ := join_crossProduct join 20 ({}, {}) leftStarts
    rightStarts fits (by decide) (by decide +kernel) isReady
  exact ⟨rows, after, later, ran, viewed⟩

end MiniDB.Executors
