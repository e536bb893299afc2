import MiniDB.Storage.MigrationRate

/-!
# Refused migrations

`RecordMigrationStart` moves the anchor and keeps the count, so rows of an earlier migration
count as rows of this second. `CanMigrateMore` then refuses a migration that has not moved
a row.
-/

namespace MiniDB.Storage

open Foundation

namespace LayerManager

/-- A row was recorded after a time. -/
def RowsSince (time : Int) (calls : List ClockedCall) : Prop :=
  ∃ clocked ∈ calls, time < clocked.now ∧ 0 < clocked.call.rows

instance (time : Int) (calls : List ClockedCall) : Decidable (RowsSince time calls) :=
  inferInstanceAs (Decidable (∃ clocked ∈ calls, _))

/-- `RecordMigrationStart` was called after a time. -/
def StartSince (time : Int) (calls : List ClockedCall) : Prop :=
  ∃ clocked ∈ calls, time < clocked.now ∧ clocked.call = .recordMigrationStart

/-- Every `CanMigrateMore` of a run that returns false has a row in the second before it. -/
def RefusalsJustified (hasWal : Bool) (limit : Int) (calls : List ClockedCall) : Prop :=
  ∀ front now back, calls = front ++ ⟨now, .canMigrateMore⟩ :: back →
    ((run step (limited hasWal limit) front).canMigrateMore now).1 = false →
      RowsSince (now - oneSecond) front

/-- The count has reached the limit although no row was recorded in the last second, and the
anchor was moved by a start in that second. An anchor that was never moved is the epoch of
the clock. -/
def KeepsOldRows (manager : LayerManager) (front : List ClockedCall) (now : Int) : Prop :=
  manager.migrationRateLimit ≤ manager.rowsMigratedThisSecond ∧
    ¬ RowsSince (now - oneSecond) front ∧
    (StartSince (now - oneSecond) front ∨ manager.lastMigrationTime = 0 ∧ now < oneSecond)

/-- Where the anchor of a manager comes from. -/
structure Anchored (manager : LayerManager) (front : List ClockedCall) : Prop where
  starts : ∀ clocked ∈ front, clocked.call = .recordMigrationStart →
    clocked.now ≤ manager.lastMigrationTime
  source : (∃ clocked ∈ front, clocked.call = .recordMigrationStart ∧
      clocked.now = manager.lastMigrationTime) ∨
    ((∃ clocked ∈ front, clocked.now = manager.lastMigrationTime) ∧
      (manager.rowsMigratedThisSecond ≤ 0 ∨ ∃ clocked ∈ front,
        manager.lastMigrationTime ≤ clocked.now ∧ 0 < clocked.call.rows)) ∨
    manager.lastMigrationTime = 0

variable {manager : LayerManager} {clocked : ClockedCall} {front : List ClockedCall}

theorem Anchored.kept (anchored : Anchored manager front)
    (latest : ∀ earlier ∈ front, earlier.now ≤ clocked.now) :
    Anchored (manager.step clocked) (front ++ [clocked]) := by
  have moved := @lastMigrationTime_step manager clocked
  have counted := @rowsMigratedThisSecond_step manager clocked
  have here : clocked ∈ front ++ [clocked] := List.mem_append_right _ List.mem_cons_self
  by_cases moves : (manager.event clocked).resets ∨ clocked.call = .recordMigrationStart
  · rw [if_pos moves] at moved
    refine ⟨fun earlier inFront _ => ?_, ?_⟩
    · rw [moved]
      rcases List.mem_append.mp inFront with before | isHere
      · exact latest earlier before
      · rw [List.mem_singleton.mp isHere]
    · rcases moves with resets | starts
      · rw [if_pos resets] at counted
        exact .inr (.inl ⟨⟨clocked, here, moved.symm⟩, .inl (le_of_eq counted)⟩)
      · exact .inl ⟨clocked, here, starts, moved.symm⟩
  · rw [if_neg moves] at moved
    obtain ⟨noReset, noStart⟩ := not_or.mp moves
    rw [if_neg noReset] at counted
    refine ⟨fun earlier inFront isStart => ?_, ?_⟩
    · rw [moved]
      rcases List.mem_append.mp inFront with before | isHere
      · exact anchored.starts earlier before isStart
      · rw [List.mem_singleton.mp isHere] at isStart
        exact absurd isStart noStart
    · rw [moved]
      rcases anchored.source with ⟨start, inFront, isStart⟩ | ⟨⟨reset, inFront, isReset⟩, rows⟩ | epoch
      · exact .inl ⟨start, List.mem_append_left _ inFront, isStart⟩
      · refine .inr (.inl ⟨⟨reset, List.mem_append_left _ inFront, isReset⟩, ?_⟩)
        rcases rows with none | ⟨record, inFront, recorded⟩
        · by_cases more : 0 < clocked.call.rows
          · exact .inr ⟨clocked, here, isReset ▸ latest reset inFront, more⟩
          · exact .inl (by omega)
        · exact .inr ⟨record, List.mem_append_left _ inFront, recorded⟩
      · exact .inr (.inr epoch)

theorem anchored_run (hasWal : Bool) (limit : Int) (clock : NonDecreasing front) :
    Anchored (run step (limited hasWal limit) front) front := by
  induction front using List.reverseRecOn with
  | nil =>
    refine ⟨fun _ none => ?_, .inr (.inr rfl)⟩
    cases none
  | append_singleton front clocked ih =>
    obtain ⟨clockFront, -, latest⟩ := List.pairwise_append.mp clock
    rw [run, List.foldl_append]
    exact (ih clockFront).kept fun earlier inFront =>
      latest earlier inFront clocked List.mem_cons_self

/-- `CanMigrateMore` refuses with a count at the limit and an anchor less than a second old. -/
theorem canMigrateMore_eq_false_iff (some : 0 < manager.migrationRateLimit) (now : Int) :
    (manager.canMigrateMore now).1 = false ↔
      manager.migrationRateLimit ≤ manager.rowsMigratedThisSecond ∧
        now < manager.lastMigrationTime + oneSecond := by
  cases due : manager.isDue now with
  | true =>
    have older := isDue_iff.mp due
    rw [canMigrateMore_due due, decide_eq_true some]
    constructor
    · intro no
      cases no
    · rintro ⟨-, younger⟩
      exact absurd older (not_le.mpr younger)
  | false =>
    have younger : ¬ manager.lastMigrationTime + oneSecond ≤ now := by
      rw [← isDue_iff, due]
      exact Bool.false_ne_true
    rw [canMigrateMore_not_due due, decide_eq_false_iff_not, not_lt]
    exact ⟨fun full => ⟨full, not_le.mp younger⟩, And.left⟩

/-- When a refusal has a row in the second before it. -/
theorem Anchored.rowsSince_iff (anchored : Anchored manager front)
    (some : 0 < manager.migrationRateLimit) (now : Int) :
    ((manager.canMigrateMore now).1 = false → RowsSince (now - oneSecond) front) ↔
      ¬ KeepsOldRows manager front now := by
  rw [canMigrateMore_eq_false_iff some]
  constructor
  · rintro justified ⟨full, noRows, moved⟩
    refine noRows (justified ⟨full, ?_⟩)
    rcases moved with ⟨start, inFront, recent, isStart⟩ | ⟨epoch, early⟩
    · have before := anchored.starts start inFront isStart
      omega
    · omega
  · rintro keepsNone ⟨full, young⟩
    by_contra noRows
    refine keepsNone ⟨full, noRows, ?_⟩
    rcases anchored.source with ⟨start, inFront, isStart, atAnchor⟩ | ⟨-, rows⟩ | epoch
    · exact .inl ⟨start, inFront, by omega, isStart⟩
    · rcases rows with none | ⟨record, inFront, after, more⟩
      · omega
      · exact absurd ⟨record, inFront, by omega, more⟩ noRows
    · exact .inr ⟨epoch, by omega⟩

theorem migrationRateLimit_run (hasWal : Bool) (limit : Int) (front : List ClockedCall) :
    (run step (limited hasWal limit) front).migrationRateLimit = limit :=
  @run_of_invariant _ _ step (fun manager => manager.migrationRateLimit = limit)
    (fun _ _ same => migrationRateLimit_step.trans same) _ rfl front

/-- Every refusal of a run has a row in the second before it exactly when none is made with
old rows that a start keeps in the count. -/
theorem refusals_iff (hasWal : Bool) {limit : Int} (some : 1 ≤ limit) {calls : List ClockedCall}
    (clock : NonDecreasing calls) :
    RefusalsJustified hasWal limit calls ↔
      ∀ front now back, calls = front ++ ⟨now, .canMigrateMore⟩ :: back →
        ¬ KeepsOldRows (run step (limited hasWal limit) front) front now := by
  have each : ∀ front now back, calls = front ++ ⟨now, .canMigrateMore⟩ :: back →
      (((run step (limited hasWal limit) front).canMigrateMore now).1 = false →
        RowsSince (now - oneSecond) front ↔
      ¬ KeepsOldRows (run step (limited hasWal limit) front) front now) := by
    rintro front now back rfl
    have positive : 0 < (run step (limited hasWal limit) front).migrationRateLimit := by
      rw [migrationRateLimit_run]
      omega
    exact (anchored_run hasWal limit (List.pairwise_append.mp clock).1).rowsSince_iff positive now
  constructor
  · intro justified front now back isCalls
    exact (each front now back isCalls).mp (justified front now back isCalls)
  · intro keepsNone front now back isCalls
    exact (each front now back isCalls).mpr (keepsNone front now back isCalls)

/-- A limit of one row, and a check half a second after it was moved. -/
def busyRun : List ClockedCall :=
  [⟨10000000000, .canMigrateMore⟩, ⟨10000000000, .recordMigrationRows 1⟩,
    ⟨10500000000, .canMigrateMore⟩]

theorem refusals_iff_busyRun : RefusalsJustified false 1 busyRun := by
  refine (refusals_iff false (Int.le_refl 1) (by decide)).mpr fun front now back isRun keeps => ?_
  obtain ⟨-, -, ⟨start, inFront, -, isStart⟩ | ⟨-, early⟩⟩ := keeps
  · have noStart : ∀ clocked ∈ busyRun, clocked.call ≠ .recordMigrationStart := by decide
    exact noStart start (isRun ▸ List.mem_append_left _ inFront) isStart
  · have late : ∀ clocked ∈ busyRun, oneSecond ≤ clocked.now := by decide
    have inRun : ⟨now, .canMigrateMore⟩ ∈ busyRun :=
      isRun ▸ List.mem_append_right _ List.mem_cons_self
    exact absurd early (not_lt.mpr (late _ inRun))

/-- A limit of one row, which is moved at 10 seconds. Nothing happens for 90 seconds, and then
a migration starts. -/
def idleRun : List ClockedCall :=
  [⟨10000000000, .canMigrateMore⟩, ⟨10000000000, .recordMigrationRows 1⟩,
    ⟨100000000000, .recordMigrationStart⟩]

/-- The migration that starts is refused. -/
theorem idleRun_refused :
    NonDecreasing (idleRun ++ [⟨100000000000, .canMigrateMore⟩]) ∧
      ((run step (limited false 1) idleRun).canMigrateMore 100000000000).1 = false ∧
      ¬ RowsSince (100000000000 - oneSecond) idleRun ∧
      ¬ RefusalsJustified false 1 (idleRun ++ [⟨100000000000, .canMigrateMore⟩]) := by
  have refused : ((run step (limited false 1) idleRun).canMigrateMore 100000000000).1 = false := by
    decide
  have noRows : ¬ RowsSince (100000000000 - oneSecond) idleRun := by decide
  exact ⟨by decide, refused, noRows, fun justified => noRows (justified idleRun _ [] rfl refused)⟩

end LayerManager

end MiniDB.Storage
