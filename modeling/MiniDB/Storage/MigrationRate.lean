import Mathlib.Algebra.Ring.Int.Defs
import MiniDB.Foundation.Intervals
import MiniDB.Foundation.Run
import MiniDB.Storage.LayerManager

/-!
# The migration rate

`CanMigrateMore` answers from a count of rows that it clears once the anchor is a whole
second old. It then moves the anchor, and so does `RecordMigrationStart`, which leaves the
count alone. The clock is in nanoseconds, and each call is made at a time of it.
-/

namespace MiniDB.Storage

open Foundation

/-- In nanoseconds. -/
abbrev oneSecond : Int := 1000000000

/-- A call to the throttle. -/
inductive MigrationCall where
  | recordMigrationStart
  | canMigrateMore
  | recordMigrationRows (rows : Int)
deriving DecidableEq, Repr

/-- The rows that a call records. -/
def MigrationCall.rows : MigrationCall → Int
  | recordMigrationRows rows => rows
  | _ => 0

/-- A call at a time of the clock. -/
structure ClockedCall where
  now : Int
  call : MigrationCall
deriving DecidableEq, Repr

/-- A call with its answer: `CanMigrateMore` returned true, and it cleared the count. -/
structure MigrationEvent extends ClockedCall where
  allowed : Bool
  resets : Bool
deriving DecidableEq, Repr

/-- The clock does not go back. -/
def NonDecreasing (calls : List ClockedCall) : Prop :=
  calls.Pairwise fun call later => call.now ≤ later.now

/-- The rows that some calls record together. -/
def rowsRecorded (events : List MigrationEvent) : Int :=
  (events.map fun event => event.call.rows).sum

@[simp] theorem rowsRecorded_nil : rowsRecorded [] = 0 := rfl

@[simp] theorem rowsRecorded_cons (event : MigrationEvent) (events : List MigrationEvent) :
    rowsRecorded (event :: events) = event.call.rows + rowsRecorded events :=
  List.sum_cons

@[simp] theorem rowsRecorded_append (events later : List MigrationEvent) :
    rowsRecorded (events ++ later) = rowsRecorded events + rowsRecorded later := by
  simp only [rowsRecorded, List.map_append, List.sum_append]

/-- Each `RecordMigrationRows` records at most a batch, and follows a `CanMigrateMore` that
returned true with no other `RecordMigrationRows` in between. -/
def Asks (batch : Int) : (asked : Bool) → List MigrationEvent → Prop
  | _, [] => True
  | asked, event :: events =>
    match event.call with
    | .recordMigrationStart => Asks batch asked events
    | .canMigrateMore => Asks batch (asked || event.allowed) events
    | .recordMigrationRows rows => asked = true ∧ 0 ≤ rows ∧ rows ≤ batch ∧ Asks batch false events

instance (calls : List ClockedCall) : Decidable (NonDecreasing calls) :=
  inferInstanceAs (Decidable (calls.Pairwise _))

instance Asks.decidable (batch : Int) : ∀ asked events, Decidable (Asks batch asked events)
  | _, [] => inferInstanceAs (Decidable True)
  | asked, ⟨⟨_, .recordMigrationStart⟩, _, _⟩ :: events => Asks.decidable batch asked events
  | asked, ⟨⟨_, .canMigrateMore⟩, allowed, _⟩ :: events =>
    Asks.decidable batch (asked || allowed) events
  | asked, ⟨⟨_, .recordMigrationRows rows⟩, _, _⟩ :: events =>
    have := Asks.decidable batch false events
    inferInstanceAs (Decidable (asked = true ∧ 0 ≤ rows ∧ rows ≤ batch ∧ Asks batch false events))

namespace LayerManager

/-- The manager with a limit, as it is constructed otherwise. -/
def limited (hasWal : Bool) (limit : Int) : LayerManager :=
  ({ hasWal } : LayerManager).setMigrationRateLimit limit

/-- A call to the manager. -/
def step (manager : LayerManager) (clocked : ClockedCall) : LayerManager :=
  match clocked.call with
  | .recordMigrationStart => manager.recordMigrationStart clocked.now
  | .canMigrateMore => (manager.canMigrateMore clocked.now).2
  | .recordMigrationRows rows => manager.recordMigrationRows rows

/-- The anchor is a whole second old. -/
def isDue (manager : LayerManager) (now : Int) : Bool :=
  decide (1 ≤ (now - manager.lastMigrationTime).tdiv 1000000000)

/-- The call with what the manager does at it. -/
def event (manager : LayerManager) (clocked : ClockedCall) : MigrationEvent :=
  { clocked with
    allowed := decide (clocked.call = .canMigrateMore) && (manager.canMigrateMore clocked.now).1
    resets := decide (clocked.call = .canMigrateMore) && manager.isDue clocked.now }

/-- The events of a run. -/
def history : LayerManager → List ClockedCall → List MigrationEvent
  | _, [] => []
  | manager, clocked :: calls => manager.event clocked :: history (manager.step clocked) calls

variable {manager : LayerManager} {clocked : ClockedCall} {calls : List ClockedCall}

/-! ## One call -/

/-- A second is over. -/
theorem isDue_iff {now : Int} :
    manager.isDue now = true ↔ manager.lastMigrationTime + oneSecond ≤ now := by
  rw [isDue, decide_eq_true_iff, oneSecond]
  constructor
  · intro whole
    by_contra less
    have none := Int.tdiv_le_tdiv (by decide : (0 : Int) < 1000000000)
      (by omega : now - manager.lastMigrationTime ≤ 999999999)
    exact absurd (whole.trans none) (by decide)
  · intro older
    exact Int.le_tdiv_of_mul_le (by decide) (by omega)

/-- `CanMigrateMore` once the anchor is a second old. -/
theorem canMigrateMore_due {now : Int} (due : manager.isDue now = true) :
    manager.canMigrateMore now = (decide (0 < manager.migrationRateLimit),
      { manager with
        rowsMigratedThisSecond := 0
        lastMigrationTime := now
        latch := manager.latch.lock.unlock }) := by
  rw [isDue, decide_eq_true_iff] at due
  simp only [canMigrateMore, lockGuard, Guarded.setMutex, Guarded.mutex, if_pos due]

/-- `CanMigrateMore` before. -/
theorem canMigrateMore_not_due {now : Int} (notDue : manager.isDue now = false) :
    manager.canMigrateMore now =
      (decide (manager.rowsMigratedThisSecond < manager.migrationRateLimit),
        { manager with latch := manager.latch.lock.unlock }) := by
  rw [isDue, decide_eq_false_iff_not] at notDue
  simp only [canMigrateMore, lockGuard, Guarded.setMutex, Guarded.mutex, if_neg notDue]

theorem migrationRateLimit_step :
    (manager.step clocked).migrationRateLimit = manager.migrationRateLimit := by
  obtain ⟨now, call⟩ := clocked
  cases call with
  | canMigrateMore =>
    cases due : manager.isDue now with
    | true => rw [step, canMigrateMore_due due]
    | false => rw [step, canMigrateMore_not_due due]
  | recordMigrationStart => rfl
  | recordMigrationRows rows => rfl

/-- The count is cleared where the call resets it, and the rows of the call come to it. -/
theorem rowsMigratedThisSecond_step :
    (manager.step clocked).rowsMigratedThisSecond =
      if (manager.event clocked).resets then 0
      else manager.rowsMigratedThisSecond + clocked.call.rows := by
  obtain ⟨now, call⟩ := clocked
  cases call with
  | canMigrateMore =>
    cases due : manager.isDue now with
    | true => simp [step, event, canMigrateMore_due due, due]
    | false => simp [step, event, canMigrateMore_not_due due, due, MigrationCall.rows]
  | recordMigrationStart => exact (Int.add_zero _).symm
  | recordMigrationRows rows => rfl

/-- The anchor is moved by the call that resets the count and by each start. -/
theorem lastMigrationTime_step :
    (manager.step clocked).lastMigrationTime =
      if (manager.event clocked).resets ∨ clocked.call = .recordMigrationStart then clocked.now
      else manager.lastMigrationTime := by
  obtain ⟨now, call⟩ := clocked
  cases call with
  | canMigrateMore =>
    cases due : manager.isDue now with
    | true => simp [step, event, canMigrateMore_due due, due]
    | false => simp [step, event, canMigrateMore_not_due due, due]
  | recordMigrationStart => rfl
  | recordMigrationRows rows => rfl

/-- `CanMigrateMore` answers from the count that it leaves. -/
theorem allowed_eq :
    (manager.event clocked).allowed = (decide (clocked.call = .canMigrateMore) &&
      decide ((manager.step clocked).rowsMigratedThisSecond < manager.migrationRateLimit)) := by
  obtain ⟨now, call⟩ := clocked
  cases call with
  | canMigrateMore =>
    cases due : manager.isDue now with
    | true => rw [step, event, canMigrateMore_due due]
    | false => rw [step, event, canMigrateMore_not_due due]
  | recordMigrationStart => rfl
  | recordMigrationRows rows => rfl

/-- Only `CanMigrateMore` resets the count, and only when a second is over. -/
theorem resets_iff : (manager.event clocked).resets = true ↔
    clocked.call = .canMigrateMore ∧ manager.lastMigrationTime + oneSecond ≤ clocked.now := by
  rw [event, Bool.and_eq_true, decide_eq_true_iff, isDue_iff]

/-! ## The rate -/

/-- The count while each batch is asked for. -/
structure Throttled (limit batch : Int) (asked : Bool) (manager : LayerManager) : Prop where
  limit_eq : manager.migrationRateLimit = limit
  nonneg : 0 ≤ manager.rowsMigratedThisSecond
  bounded : manager.rowsMigratedThisSecond ≤ limit + batch - 1
  below : asked = true → manager.rowsMigratedThisSecond < limit

variable {limit batch : Int} {asked : Bool} {events segment : List MigrationEvent}

/-- A call keeps the count throttled. -/
theorem Throttled.kept (throttled : Throttled limit batch asked manager)
    (asks : Asks batch asked (manager.event clocked :: events)) :
    ∃ next, Throttled limit batch next (manager.step clocked) ∧ Asks batch next events := by
  have nonneg := throttled.nonneg
  have bounded := throttled.bounded
  have counted := @rowsMigratedThisSecond_step manager clocked
  have allowed := @allowed_eq manager clocked
  have sameLimit := (@migrationRateLimit_step manager clocked).trans throttled.limit_eq
  rw [throttled.limit_eq] at allowed
  obtain ⟨now, call⟩ := clocked
  cases call with
  | recordMigrationStart =>
    have same : (manager.step ⟨now, .recordMigrationStart⟩).rowsMigratedThisSecond =
      manager.rowsMigratedThisSecond := rfl
    exact ⟨asked, ⟨sameLimit, same ▸ nonneg, same ▸ bounded, same ▸ throttled.below⟩, asks⟩
  | canMigrateMore =>
    have less : (manager.step ⟨now, .canMigrateMore⟩).rowsMigratedThisSecond ≤
        manager.rowsMigratedThisSecond ∧
        0 ≤ (manager.step ⟨now, .canMigrateMore⟩).rowsMigratedThisSecond := by
      rw [counted]
      split
      · exact ⟨nonneg, Int.le_refl 0⟩
      · simp only [MigrationCall.rows, Int.add_zero]
        exact ⟨Int.le_refl _, nonneg⟩
    refine ⟨_, ⟨sameLimit, less.2, less.1.trans bounded, fun permitted => ?_⟩, asks⟩
    rcases (Bool.or_eq_true _ _).mp permitted with before | now
    · exact Int.lt_of_le_of_lt less.1 (throttled.below before)
    · rw [allowed] at now
      exact of_decide_eq_true now
  | recordMigrationRows rows =>
    obtain ⟨isAsked, least, most, later⟩ := asks
    have more : (manager.step ⟨now, .recordMigrationRows rows⟩).rowsMigratedThisSecond =
      manager.rowsMigratedThisSecond + rows := rfl
    have below := throttled.below isAsked
    refine ⟨false, ⟨sameLimit, ?_, ?_, fun no => by cases no⟩, later⟩
    · omega
    · omega

/-- The count and the rows that are recorded next stay within the bound until a reset. -/
theorem Throttled.rows_prefix (throttled : Throttled limit batch asked manager)
    (asks : Asks batch asked (history manager calls)) (isPrefix : segment <+: history manager calls)
    (noReset : ∀ event ∈ segment, event.resets = false) :
    manager.rowsMigratedThisSecond + rowsRecorded segment ≤ limit + batch - 1 := by
  induction calls generalizing manager asked segment with
  | nil =>
    rw [List.prefix_nil.mp isPrefix, rowsRecorded_nil, Int.add_zero]
    exact throttled.bounded
  | cons clocked calls ih =>
    rcases List.prefix_cons_iff.mp isPrefix with rfl | ⟨rest, rfl, restPrefix⟩
    · rw [rowsRecorded_nil, Int.add_zero]
      exact throttled.bounded
    · obtain ⟨next, throttledNext, asksNext⟩ := throttled.kept asks
      have later := ih throttledNext asksNext restPrefix fun event inRest =>
        noReset event (List.mem_cons_of_mem _ inRest)
      rw [rowsMigratedThisSecond_step, noReset _ List.mem_cons_self, if_neg Bool.false_ne_true]
        at later
      rw [rowsRecorded_cons, ← Int.add_assoc]
      exact later

/-- Between resets no more rows are recorded than the bound. -/
theorem Throttled.rows_segment (throttled : Throttled limit batch asked manager)
    (asks : Asks batch asked (history manager calls)) (isInfix : segment <:+: history manager calls)
    (noReset : ∀ event ∈ segment, event.resets = false) :
    rowsRecorded segment ≤ limit + batch - 1 := by
  induction calls generalizing manager asked with
  | nil =>
    have atStart := throttled.rows_prefix asks (List.infix_nil.mp isInfix ▸ List.nil_prefix) noReset
    have nonneg := throttled.nonneg
    omega
  | cons clocked calls ih =>
    rcases List.infix_cons_iff.mp isInfix with isPrefix | later
    · have atStart := throttled.rows_prefix asks isPrefix noReset
      have nonneg := throttled.nonneg
      omega
    · obtain ⟨next, throttledNext, asksNext⟩ := throttled.kept asks
      exact ih throttledNext asksNext later

/-- The count stays an `int` where the bound is one. -/
theorem Throttled.throughout (fits : limit + batch - 1 < 2147483648)
    (throttled : Throttled limit batch asked manager)
    (asks : Asks batch asked (history manager calls)) :
    Throughout step (fun manager => 0 ≤ manager.rowsMigratedThisSecond ∧
      manager.rowsMigratedThisSecond < 2147483648) manager calls := by
  induction calls generalizing manager asked with
  | nil => exact ⟨throttled.nonneg, throttled.bounded.trans_lt fits⟩
  | cons clocked calls ih =>
    obtain ⟨next, throttledNext, asksNext⟩ := throttled.kept asks
    exact ⟨⟨throttled.nonneg, throttled.bounded.trans_lt fits⟩, ih throttledNext asksNext⟩

/-- The calls of the events of a run. -/
theorem map_history (manager : LayerManager) (calls : List ClockedCall) :
    (history manager calls).map MigrationEvent.toClockedCall = calls := by
  induction calls generalizing manager with
  | nil => rfl
  | cons clocked calls ih =>
    rw [history, List.map_cons, ih]
    rfl

/-- A reset comes a second after the anchor at the earliest. -/
theorem resets_late {anchor : Int} (after : anchor ≤ manager.lastMigrationTime)
    (clock : NonDecreasing calls) (fresh : ∀ clocked ∈ calls, anchor ≤ clocked.now)
    {event : MigrationEvent} (happens : event ∈ history manager calls) (resets : event.resets = true) :
    anchor + oneSecond ≤ event.now := by
  induction calls generalizing manager with
  | nil => cases happens
  | cons clocked calls ih =>
    rcases List.mem_cons.mp happens with rfl | later
    · exact (Int.add_le_add_right after _).trans (resets_iff.mp resets).2
    · refine ih ?_ (List.pairwise_cons.mp clock).2
        (fun next inCalls => fresh next (List.mem_cons_of_mem _ inCalls)) later
      rw [lastMigrationTime_step]
      split
      · exact fresh clocked List.mem_cons_self
      · exact after

/-- Resets are at least a second apart. -/
theorem resets_apart (manager : LayerManager) (clock : NonDecreasing calls) :
    (history manager calls).Pairwise fun event later =>
      event.resets = true → later.resets = true → event.now + oneSecond ≤ later.now := by
  induction calls generalizing manager with
  | nil => exact List.Pairwise.nil
  | cons clocked calls ih =>
    obtain ⟨next, clockNext⟩ := List.pairwise_cons.mp clock
    refine List.pairwise_cons.mpr ⟨fun later happens reset resetLater => ?_, ih _ clockNext⟩
    apply resets_late _ clockNext next happens resetLater
    rw [lastMigrationTime_step, if_pos (.inl reset)]

/-! ## Any second -/

/-- The call that resets the count records no row. -/
theorem rows_of_resets {event : MigrationEvent} (happens : event ∈ history manager calls)
    (resets : event.resets = true) : event.call.rows = 0 := by
  induction calls generalizing manager with
  | nil => cases happens
  | cons clocked calls ih =>
    rcases List.mem_cons.mp happens with rfl | later
    · have isCheck : clocked.call = .canMigrateMore := (resets_iff.mp resets).1
      change clocked.call.rows = 0
      rw [isCheck]
      rfl
    · exact ih later

/-- The history is in the order of the clock. -/
theorem ordered_history (manager : LayerManager) (clock : NonDecreasing calls) :
    (history manager calls).Pairwise fun event later => event.now ≤ later.now := by
  rw [NonDecreasing, ← map_history manager calls, List.pairwise_map] at clock
  exact clock

/-- An interval without two resets has the rows of two counts at most. -/
theorem Throttled.rows_interval (since before : Int → Prop) [DecidablePred since]
    [DecidablePred before] (upward : ∀ time later, time ≤ later → since time → since later)
    (downward : ∀ time later, time ≤ later → before later → before time)
    (short : ∀ time later, since time → before later → later < time + oneSecond)
    (throttled : Throttled limit batch asked manager)
    (asks : Asks batch asked (history manager calls)) (clock : NonDecreasing calls) :
    rowsRecorded ((history manager calls).filter fun event => since event.now ∧ before event.now) ≤
      2 * (limit + batch - 1) := by
  have isInfix := filter_interval_infix (fun event : MigrationEvent => event.now)
    upward downward (ordered_history manager clock)
  have inside : ∀ event ∈ (history manager calls).filter
      (fun event => since event.now ∧ before event.now), since event.now ∧ before event.now := by
    intro event happens
    exact of_decide_eq_true (List.mem_filter.mp happens).2
  have nonneg := throttled.nonneg.trans throttled.bounded
  generalize (history manager calls).filter
    (fun event => since event.now ∧ before event.now) = segment at isInfix inside ⊢
  by_cases anyReset : ∃ event ∈ segment, event.resets = true
  · obtain ⟨event, inSegment, resets⟩ := anyReset
    obtain ⟨front, back, rfl⟩ := List.append_of_mem inSegment
    have apart := (resets_apart manager clock).sublist isInfix.sublist
    obtain ⟨-, fromEvent, fromFront⟩ := List.pairwise_append.mp apart
    have frontRows := throttled.rows_segment asks
      ((List.prefix_append front (event :: back)).isInfix.trans isInfix) fun other inFront => by
        by_contra otherResets
        have late := fromFront other inFront event List.mem_cons_self (by simpa using otherResets)
          resets
        have near := short other.now event.now
          (inside other (List.mem_append_left _ inFront)).1 (inside event inSegment).2
        omega
    have backRows := throttled.rows_segment asks
      (((List.suffix_cons event back).trans (List.suffix_append front _)).isInfix.trans isInfix)
      fun other inBack => by
        by_contra otherResets
        have late := (List.pairwise_cons.mp fromEvent).1 other inBack resets
          (by simpa using otherResets)
        have near := short event.now other.now (inside event inSegment).1
          (inside other (List.mem_append_right _ (List.mem_cons_of_mem _ inBack))).2
        omega
    have noRows := rows_of_resets (isInfix.subset inSegment) resets
    rw [rowsRecorded_append, rowsRecorded_cons, noRows]
    omega
  · have rows := throttled.rows_segment asks isInfix fun event inSegment => by
      by_contra resets
      exact anyReset ⟨event, inSegment, by simpa using resets⟩
    omega

/-- A manager with a limit, asked before each batch, lets no more rows through between two
resets than the limit and a batch less one, and no more than twice that in any second. The
count stays an `int`. -/
theorem migration_rate (hasWal : Bool) {limit batch : Int} (some : 1 ≤ limit) (least : 1 ≤ batch)
    (fits : limit + batch - 1 < 2147483648) {calls : List ClockedCall} (clock : NonDecreasing calls)
    (asks : Asks batch false (history (limited hasWal limit) calls)) :
    let events := history (limited hasWal limit) calls
    (∀ segment, segment <:+: events → (∀ event ∈ segment, event.resets = false) →
      rowsRecorded segment ≤ limit + batch - 1) ∧
    (events.Pairwise fun event later =>
      event.resets = true → later.resets = true → event.now + oneSecond ≤ later.now) ∧
    (∀ start, rowsRecorded (events.filter fun event =>
      start ≤ event.now ∧ event.now < start + oneSecond) ≤ 2 * (limit + batch - 1)) ∧
    (∀ start, rowsRecorded (events.filter fun event =>
      start < event.now ∧ event.now ≤ start + oneSecond) ≤ 2 * (limit + batch - 1)) ∧
    Throughout step (fun manager => 0 ≤ manager.rowsMigratedThisSecond ∧
      manager.rowsMigratedThisSecond < 2147483648) (limited hasWal limit) calls := by
  intro events
  have throttled : Throttled limit batch false (limited hasWal limit) := by
    refine ⟨rfl, Int.le_refl 0, ?_, fun no => by cases no⟩
    change 0 ≤ limit + batch - 1
    omega
  refine ⟨fun segment => throttled.rows_segment asks, resets_apart _ clock, fun start => ?_,
    fun start => ?_, ?_⟩
  · exact Throttled.rows_interval (fun time => start ≤ time) (fun time => time < start + oneSecond)
      (fun _ _ inOrder => inOrder.trans') (fun _ _ inOrder => inOrder.trans_lt)
      (fun _ _ => by omega) throttled asks clock
  · exact Throttled.rows_interval (fun time => start < time) (fun time => time ≤ start + oneSecond)
      (fun _ _ inOrder after => after.trans_le inOrder) (fun _ _ => le_trans)
      (fun _ _ => by omega) throttled asks clock
  · exact throttled.throughout fits asks

/-- Two bursts around a reset, with a limit of 2 and batches of 3. -/
def twoBursts : List ClockedCall :=
  [⟨10000000000, .canMigrateMore⟩, ⟨10900000000, .recordMigrationRows 1⟩,
    ⟨10900000000, .canMigrateMore⟩, ⟨10900000000, .recordMigrationRows 3⟩,
    ⟨11000000000, .canMigrateMore⟩, ⟨11000000000, .recordMigrationRows 1⟩,
    ⟨11000000000, .canMigrateMore⟩, ⟨11000000000, .recordMigrationRows 3⟩]

/-- The bound is met. -/
theorem migration_rate_twoBursts :
    let events := history (limited false 2) twoBursts
    rowsRecorded (events.filter fun event =>
        10500000000 ≤ event.now ∧ event.now < 10500000000 + oneSecond) = 8 ∧
      ∀ start, rowsRecorded (events.filter fun event =>
        start ≤ event.now ∧ event.now < start + oneSecond) ≤ 2 * (2 + 3 - 1) :=
  ⟨by decide, (migration_rate false (by decide) (by decide) (by decide)
    (by decide : NonDecreasing twoBursts) (by decide)).2.2.1⟩

end LayerManager

end MiniDB.Storage
