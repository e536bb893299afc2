import MiniDB.Buffer.PageStore
import MiniDB.Executors.SeqScanExecutor

/-!
# Executors that restart

The pages that an executor reads do not change while it runs. `ready` is the set of
pool states that a run can pass through: from each of them every page can be loaded,
and reading it leads back into the set. An executor `Restarts` if `Init` brings it,
from whatever state it is in, to the start of one and the same sequence of rows. An
`Output` ends after its rows, or at an access that has no defined result.
-/

namespace MiniDB.Executors

open Foundation Buffer PoolProgram Storage

/-- A ready pool delivers the page with these bytes, and is ready again when the page
is released. -/
def Delivers (ready : BufferPool DiskManager → Prop) (pageId : Int) (pageData : Bytes) : Prop :=
  ∀ pool, ready pool → ∃ frame, (pool.fetchPage pageId).1 = some frame ∧
    ((pool.fetchPage pageId).2.pageAt frame).data = pageData ∧
    ready ((pool.fetchPage pageId).2.unpinPage pageId false).2

/-- The pool is settled and holds these pages. -/
def Holding (contents : Int → Option Bytes) (pool : BufferPool DiskManager) : Prop :=
  pool.frames.Settled ∧ pool.frames.contents = contents

/-- A pool delivers the pages that it holds. -/
theorem delivers_holding {contents : Int → Option Bytes} {pageId : Int} {pageData : Bytes}
    (resident : contents pageId = some pageData) :
    Delivers (Holding contents) pageId pageData := by
  rintro pool ⟨settled, rfl⟩
  obtain ⟨frame, fetched, holds, data⟩ := BufferPool.holds_fetchPage settled resident
  have released := BufferPool.serves_unpinPage holds.serves.settled pageId false
  exact ⟨frame, fetched, data, released.settled, released.contents.trans holds.serves.contents⟩

/-- The rows that an executor hands out, and whether `Next` then returns false or has
no defined result. -/
structure Output (View : Type) where
  rows : List View
  complete : Bool
deriving DecidableEq, Repr

/-- What draining an executor gives. -/
def Output.drained {View : Type} (output : Output View) : Option (List View) :=
  if output.complete then some output.rows else none

/-- How many rows there are. -/
def rowCount {View : Type} (output : Option (Output View)) : Nat :=
  output.elim 0 fun out => out.rows.length

variable {E View : Type} [Executor E] {ready : BufferPool DiskManager → Prop} {view : Row → View}
  {fits : E → Prop} {bound fuel : Nat} {executor : E} {pool : BufferPool DiskManager}

/-- From every ready pool, with enough fuel, `Next` hands out these rows one by one. -/
def Streams (ready : BufferPool DiskManager → Prop) (view : Row → View) (bound : Nat)
    (complete : Bool) : List View → E → Prop
  | [], executor => ∀ fuel row pool, bound ≤ fuel → ready pool →
    if complete then
      ∃ last, (run (Executor.next fuel row executor) pool).1.1 = some (false, last)
    else (run (Executor.next fuel row executor) pool).1.1 = none
  | seen :: rows, executor => ∀ fuel row pool, bound ≤ fuel → ready pool →
    (∃ returned, (run (Executor.next fuel row executor) pool).1.1 = some (true, returned) ∧
      view returned = seen) ∧
    Streams ready view bound complete rows (run (Executor.next fuel row executor) pool).1.2

/-- `Init` and `Next` keep the pool ready and the executor fit, whatever their fuel. -/
structure Keeps (ready : BufferPool DiskManager → Prop) (fits : E → Prop) : Prop where
  init : ∀ fuel executor pool, fits executor → ready pool →
    ready (run (Executor.init fuel executor) pool).2 ∧
      ∀ after, (run (Executor.init fuel executor) pool).1 = some after → fits after
  next : ∀ fuel row executor pool, fits executor → ready pool →
    ready (run (Executor.next fuel row executor) pool).2 ∧
      fits (run (Executor.next fuel row executor) pool).1.2

/-- `Init` of an executor that fits leads to the start of the output; `none` is an
`Init` without a defined result. -/
structure Restarts (ready : BufferPool DiskManager → Prop) (view : Row → View) (fits : E → Prop)
    (bound : Nat) (output : Option (Output View)) : Prop where
  keeps : Keeps ready fits
  undefined : output = none → ∀ fuel executor pool, bound ≤ fuel → fits executor → ready pool →
    (run (Executor.init fuel executor) pool).1 = none
  starts : ∀ out, output = some out → ∀ fuel executor pool, bound ≤ fuel → fits executor →
    ready pool → ∃ after, (run (Executor.init fuel executor) pool).1 = some after ∧
      Streams ready view bound out.complete out.rows after

/-- `Next` calls `Init` first where that has not been done. -/
def LazyNext (isInitialized : E → Bool)
    (body : Nat → Row → E → PoolProgram (Option (Bool × Row) × E)) : Prop :=
  ∀ fuel row executor, Executor.next fuel row executor =
    if isInitialized executor then body fuel row executor
    else do
      match ← Executor.init fuel executor with
      | none => return (none, executor)
      | some executor => body fuel row executor

theorem Keeps.of_lazy {isInitialized : E → Bool}
    {body : Nat → Row → E → PoolProgram (Option (Bool × Row) × E)}
    (lazy : LazyNext isInitialized body)
    (init : ∀ fuel executor pool, fits executor → ready pool →
      ready (run (Executor.init fuel executor) pool).2 ∧
        ∀ after, (run (Executor.init fuel executor) pool).1 = some after → fits after)
    (next : ∀ fuel row executor pool, fits executor → ready pool →
      ready (run (body fuel row executor) pool).2 ∧
        fits (run (body fuel row executor) pool).1.2) : Keeps ready fits where
  init := init
  next fuel row executor pool isFit isReady := by
    rw [lazy]
    split
    · exact next fuel row executor pool isFit isReady
    · have kept := init fuel executor pool isFit isReady
      rw [run_bind]
      generalize run (Executor.init fuel executor) pool = ran at kept ⊢
      obtain ⟨_ | after, later⟩ := ran
      · exact ⟨kept.1, isFit⟩
      · exact next fuel row after later (kept.2 after rfl) kept.1

/-! ## Streams -/

/-- More fuel does no harm. -/
theorem Streams.mono {complete : Bool} {rows : List View} {larger : Nat} (grows : bound ≤ larger)
    (streams : Streams ready view bound complete rows executor) :
    Streams ready view larger complete rows executor := by
  induction rows generalizing executor with
  | nil => exact fun fuel row pool enough => streams fuel row pool (grows.trans enough)
  | cons seen rows ih =>
    intro fuel row pool enough isReady
    obtain ⟨returned, rest⟩ := streams fuel row pool (grows.trans enough) isReady
    exact ⟨returned, ih rest⟩

/-- An executor whose `Next` goes on as that of another one hands out the rows of the
other one. -/
theorem Streams.of_later {complete : Bool} {rows : List View} {smaller : Nat}
    (shrinks : smaller ≤ bound)
    (goesOn : ∀ (fuel : Nat) (row : Row) (pool : BufferPool DiskManager), bound ≤ fuel →
      ready pool → ∃ (after : E) (left : Nat) (passed : Row) (later : BufferPool DiskManager),
      smaller ≤ left ∧ ready later ∧ Streams ready view smaller complete rows after ∧
      (run (Executor.next fuel row executor) pool).1 =
        (run (Executor.next left passed after) later).1) :
    Streams ready view bound complete rows executor := by
  cases rows with
  | nil =>
    intro fuel row pool enough isReady
    obtain ⟨after, left, passed, later, covers, readyLater, streams, same⟩ :=
      goesOn fuel row pool enough isReady
    rw [same]
    exact streams left passed later covers readyLater
  | cons seen rows =>
    intro fuel row pool enough isReady
    obtain ⟨after, left, passed, later, covers, readyLater, streams, same⟩ :=
      goesOn fuel row pool enough isReady
    rw [same]
    obtain ⟨returned, rest⟩ := streams left passed later covers readyLater
    exact ⟨returned, rest.mono shrinks⟩

/-- Looking at less of each row. -/
theorem Streams.map {Other : Type} (look : View → Other) {complete : Bool} {rows : List View}
    (streams : Streams ready view bound complete rows executor) :
    Streams ready (look ∘ view) bound complete (rows.map look) executor := by
  induction rows generalizing executor with
  | nil => exact streams
  | cons seen rows ih =>
    intro fuel row pool enough isReady
    obtain ⟨⟨returned, answer, looked⟩, rest⟩ := streams fuel row pool enough isReady
    exact ⟨⟨returned, answer, congrArg look looked⟩, ih rest⟩

/-- `Next` where there is a row. -/
theorem Streams.next_row (keeps : Keeps ready fits) {complete : Bool} {seen : View}
    {rows : List View} (isFit : fits executor)
    (streams : Streams ready view bound complete (seen :: rows) executor) (row : Row)
    (enough : bound ≤ fuel) (isReady : ready pool) :
    ∃ returned after later, view returned = seen ∧ ready later ∧ fits after ∧
      Streams ready view bound complete rows after ∧
      run (Executor.next fuel row executor) pool = ((some (true, returned), after), later) := by
  have kept := keeps.next fuel row executor pool isFit isReady
  obtain ⟨⟨returned, answer, looked⟩, rest⟩ := streams fuel row pool enough isReady
  exact ⟨returned, _, _, looked, kept.1, kept.2, rest, Prod.ext (Prod.ext answer rfl) rfl⟩

/-- `Next` after the last row. -/
theorem Streams.next_end (keeps : Keeps ready fits) (isFit : fits executor)
    (streams : Streams ready view bound true [] executor) (row : Row) (enough : bound ≤ fuel)
    (isReady : ready pool) :
    ∃ last after later, ready later ∧ fits after ∧
      run (Executor.next fuel row executor) pool = ((some (false, last), after), later) := by
  have kept := keeps.next fuel row executor pool isFit isReady
  obtain ⟨last, answer⟩ := streams fuel row pool enough isReady
  exact ⟨last, _, _, kept.1, kept.2, Prod.ext (Prod.ext answer rfl) rfl⟩

/-- `Next` where it has no defined result. -/
theorem Streams.next_undefined (streams : Streams ready view bound false [] executor) (row : Row)
    (enough : bound ≤ fuel) (isReady : ready pool) :
    ∃ after later, run (Executor.next fuel row executor) pool = ((none, after), later) :=
  ⟨_, _, Prod.ext (Prod.ext (streams fuel row pool enough isReady) rfl) rfl⟩

/-- `Init` of an executor that restarts. -/
theorem Restarts.init_defined {out : Output View}
    (restarts : Restarts ready view fits bound (some out)) (enough : bound ≤ fuel)
    (isFit : fits executor) (isReady : ready pool) :
    ∃ after later, ready later ∧ fits after ∧
      Streams ready view bound out.complete out.rows after ∧
      run (Executor.init fuel executor) pool = (some after, later) := by
  have kept := restarts.keeps.init fuel executor pool isFit isReady
  obtain ⟨after, started, streams⟩ :=
    restarts.starts out rfl fuel executor pool enough isFit isReady
  exact ⟨after, _, kept.1, kept.2 after started, streams, Prod.ext started rfl⟩

/-- `Init` where it has no defined result. -/
theorem Restarts.init_undefined (restarts : Restarts ready view fits bound none)
    (enough : bound ≤ fuel) (isFit : fits executor) (isReady : ready pool) :
    ∃ later, run (Executor.init fuel executor) pool = (none, later) :=
  ⟨_, Prod.ext (restarts.undefined rfl fuel executor pool enough isFit isReady) rfl⟩

theorem Restarts.mono {output : Option (Output View)} {larger : Nat} (grows : bound ≤ larger)
    (restarts : Restarts ready view fits bound output) :
    Restarts ready view fits larger output where
  keeps := restarts.keeps
  undefined none fuel executor pool enough :=
    restarts.undefined none fuel executor pool (grows.trans enough)
  starts out defined fuel executor pool enough isFit isReady := by
    obtain ⟨after, started, streams⟩ :=
      restarts.starts out defined fuel executor pool (grows.trans enough) isFit isReady
    exact ⟨after, started, streams.mono grows⟩

theorem Restarts.map {Other : Type} (look : View → Other) {output : Option (Output View)}
    (restarts : Restarts ready view fits bound output) :
    Restarts ready (look ∘ view) fits bound
      (output.map fun out => { out with rows := out.rows.map look }) where
  keeps := restarts.keeps
  undefined isNone := restarts.undefined (Option.map_eq_none_iff.mp isNone)
  starts out isSome fuel executor pool enough isFit isReady := by
    obtain ⟨before, defined, rfl⟩ := Option.map_eq_some_iff.mp isSome
    obtain ⟨after, started, streams⟩ :=
      restarts.starts before defined fuel executor pool enough isFit isReady
    exact ⟨after, started, streams.map look⟩

/-! ## Draining -/

theorem drain_succ {D : Type} [Disk D] {pool : BufferPool D} (row : Row) (executor : E) :
    run (drain (fuel + 1) row executor) pool =
      match run (Executor.next (fuel + 1) row executor) pool with
      | ((none, after), later) => ((none, after), later)
      | ((some (false, _), after), later) => ((some [], after), later)
      | ((some (true, returned), after), later) =>
        (((run (drain fuel returned after) later).1.1.map fun rows => returned :: rows,
          (run (drain fuel returned after) later).1.2), (run (drain fuel returned after) later).2) := by
  simp only [drain, run_bind]
  rcases run (Executor.next (fuel + 1) row executor) pool with ⟨⟨answer, after⟩, later⟩
  match answer with
  | none => rfl
  | some (false, _) => rfl
  | some (true, returned) => simp only [run_bind, run_pure]

/-- Draining keeps the pool ready and the executor fit. -/
theorem Keeps.drain (keeps : Keeps ready fits) (fuel : Nat) (row : Row) (isFit : fits executor)
    (isReady : ready pool) :
    ready (run (drain fuel row executor) pool).2 ∧
      fits (run (drain fuel row executor) pool).1.2 := by
  induction fuel generalizing row executor pool with
  | zero => exact ⟨isReady, isFit⟩
  | succ fuel ih =>
    have kept := keeps.next (fuel + 1) row executor pool isFit isReady
    rw [drain_succ]
    generalize run (Executor.next (fuel + 1) row executor) pool = ran at kept ⊢
    obtain ⟨⟨answer, after⟩, later⟩ := ran
    match answer with
    | none => exact kept
    | some (false, _) => exact kept
    | some (true, returned) => exact ih returned kept.2 kept.1

/-- Draining a stream gives its rows. -/
theorem Streams.drain (keeps : Keeps ready fits) {out : Output View} (isFit : fits executor)
    (streams : Streams ready view bound out.complete out.rows executor) (row : Row)
    (enough : bound + out.rows.length < fuel) (isReady : ready pool) :
    (run (drain fuel row executor) pool).1.1.map (List.map view) = out.drained := by
  obtain ⟨rows, complete⟩ := out
  induction rows generalizing fuel executor pool row with
  | nil =>
    obtain ⟨fuel, rfl⟩ := Nat.exists_eq_add_of_lt (Nat.zero_lt_of_lt enough)
    rw [Nat.zero_add] at enough ⊢
    have covers : bound ≤ fuel + 1 := by
      rw [List.length_nil] at enough
      omega
    cases complete with
    | true =>
      obtain ⟨last, after, later, -, -, ran⟩ := streams.next_end keeps isFit row covers isReady
      rw [drain_succ, ran]
      rfl
    | false =>
      obtain ⟨after, later, ran⟩ := streams.next_undefined row covers isReady
      rw [drain_succ, ran]
      rfl
  | cons seen rows ih =>
    obtain ⟨fuel, rfl⟩ := Nat.exists_eq_add_of_lt (Nat.zero_lt_of_lt enough)
    rw [Nat.zero_add] at enough ⊢
    simp only [List.length_cons] at enough
    have covers : bound ≤ fuel + 1 := by omega
    obtain ⟨returned, after, later, looked, readyLater, fitAfter, rest, ran⟩ :=
      streams.next_row keeps isFit row covers isReady
    have enoughRest : bound + rows.length < fuel := by omega
    have drainedRest := ih fitAfter returned readyLater rest enoughRest
    rw [drain_succ, ran]
    simp only [Output.drained] at drainedRest ⊢
    cases complete with
    | true =>
      simp only [if_true] at drainedRest ⊢
      obtain ⟨drained, drainedEq, viewed⟩ := Option.map_eq_some_iff.mp drainedRest
      simp [drainedEq, viewed, looked]
    | false =>
      simp only [Bool.false_eq_true, if_false, Option.map_eq_none_iff] at drainedRest ⊢
      exact drainedRest

/-- `Init` and draining an executor that restarts, from any state that fits. -/
theorem Restarts.collect {output : Option (Output View)}
    (restarts : Restarts ready view fits bound output) (row : Row)
    (enough : bound + rowCount output < fuel) (isFit : fits executor) (isReady : ready pool) :
    (run (collect fuel row executor) pool).1.1.map (List.map view) =
      output.bind Output.drained := by
  have covers : bound ≤ fuel := by omega
  simp only [MiniDB.Executors.collect, run_bind]
  cases defined : output with
  | none =>
    rw [restarts.undefined defined fuel executor pool covers isFit isReady]
    rfl
  | some out =>
    obtain ⟨after, started, streams⟩ :=
      restarts.starts out defined fuel executor pool covers isFit isReady
    obtain ⟨readyAfter, fitAfter⟩ := restarts.keeps.init fuel executor pool isFit isReady
    rw [defined] at enough
    rw [started]
    exact streams.drain restarts.keeps (fitAfter after started) row enough readyAfter

/-- The rows themselves. -/
theorem Restarts.collect_rows {output : Option (Output Row)}
    (restarts : Restarts ready id fits bound output) (row : Row)
    (enough : bound + rowCount output < fuel) (isFit : fits executor) (isReady : ready pool) :
    (run (MiniDB.Executors.collect fuel row executor) pool).1.1 = output.bind Output.drained := by
  have collected := restarts.collect row enough isFit isReady
  rwa [List.map_id_fun, Option.map_id_fun] at collected

/-- `Init` and draining keep the pool ready and the executor fit. -/
theorem Keeps.collect (keeps : Keeps ready fits) (fuel : Nat) (row : Row) (isFit : fits executor)
    (isReady : ready pool) :
    ready (run (collect fuel row executor) pool).2 ∧
      fits (run (collect fuel row executor) pool).1.2 := by
  have kept := keeps.init fuel executor pool isFit isReady
  simp only [MiniDB.Executors.collect, run_bind]
  generalize run (Executor.init fuel executor) pool = ran at kept ⊢
  obtain ⟨_ | after, later⟩ := ran
  · exact ⟨kept.1, isFit⟩
  · exact keeps.drain fuel row (kept.2 after rfl) kept.1

end MiniDB.Executors
