import Mathlib.Data.List.DropRight
import Mathlib.Logic.Function.Basic
import MiniDB.Foundation.Accounts
import MiniDB.Storage.LayerManager

/-!
# The two logs of migrations

`LogMigration` records a migration under the latch and reports it to the write-ahead log
with the latch released, so two threads may report in another order than they recorded. The
list in memory has the last 10000 migrations that were recorded since it was cleared; the
log has every migration that was recorded and reported, in the order of each thread.
-/

namespace MiniDB.Storage

open Foundation Log

namespace LayerManager

/-- The part of `LogMigration` that holds the latch. -/
def recordMigration (manager : LayerManager) (entry : MigrationLogEntry) : LayerManager :=
  lockGuard' (fun manager =>
    let logs := manager.migrationLogs ++ [entry]
    { manager with migrationLogs := if 10000 < logs.length then logs.tail else logs }) manager

/-- The part behind it. -/
def reportMigration (manager : LayerManager) (wal : WALManager) (entry : MigrationLogEntry) :
    WALManager :=
  if manager.hasWal then (wal.writeLog (migrationText entry)).2 else wal

theorem logMigration_eq (manager : LayerManager) (wal : WALManager) (entry : MigrationLogEntry) :
    manager.logMigration wal entry =
      (manager.recordMigration entry, (manager.recordMigration entry).reportMigration wal entry) :=
  rfl

end LayerManager

/-- Threads that log migrations with one manager. -/
structure MigrationReports where
  manager : LayerManager
  wal : WALManager
  /-- The migration that a thread has recorded and has yet to report. -/
  unreported : Nat → Option MigrationLogEntry := fun _ => none

/-- What a thread does between two points where another may run. -/
inductive ReportStep where
  | record (caller : Nat) (entry : MigrationLogEntry)
  | report (caller : Nat)
  | clearMigrationLogs

namespace MigrationReports

/-- One step; a thread records when it has reported what it recorded before. -/
def step (reports : MigrationReports) : ReportStep → MigrationReports
  | .record caller entry =>
    match reports.unreported caller with
    | none =>
      { reports with
        manager := reports.manager.recordMigration entry
        unreported := Function.update reports.unreported caller (some entry) }
    | some _ => reports
  | .report caller =>
    match reports.unreported caller with
    | none => reports
    | some entry =>
      { reports with
        wal := reports.manager.reportMigration reports.wal entry
        unreported := Function.update reports.unreported caller none }
  | .clearMigrationLogs => { reports with manager := reports.manager.clearMigrationLogs }

/-- A migration and the thread that logs it. -/
abbrev Logged := Nat × MigrationLogEntry

/-- The migration that a step records. -/
def records (reports : MigrationReports) : ReportStep → List Logged
  | .record caller entry =>
    match reports.unreported caller with
    | none => [(caller, entry)]
    | some _ => []
  | .report _ | .clearMigrationLogs => []

/-- The migration that a step reports. -/
def writes (reports : MigrationReports) : ReportStep → List Logged
  | .report caller => (reports.unreported caller).toList.map (caller, ·)
  | .record _ _ | .clearMigrationLogs => []

/-- What is yielded by one thread. -/
def ofCaller (caller : Nat) (yields : MigrationReports → ReportStep → List Logged)
    (reports : MigrationReports) (step : ReportStep) : List Logged :=
  (yields reports step).filter fun logged => logged.1 = caller

/-- The line that the log has of a migration. -/
def line (logged : Logged) : ByteString := LayerManager.migrationText logged.2 ++ [newline]

variable {reports : MigrationReports}

/-- A thread reports what it has recorded, in this order. -/
theorem unreported_step (caller : Nat) (reports : MigrationReports) (next : ReportStep) :
    (reports.unreported caller).toList.map (caller, ·) ++ ofCaller caller records reports next =
      ofCaller caller writes reports next ++
        ((reports.step next).unreported caller).toList.map (caller, ·) := by
  cases next with
  | record other entry =>
    by_cases same : other = caller
    · subst same
      cases pending : reports.unreported other <;>
        simp [ofCaller, records, writes, step, pending]
    · have different : caller ≠ other := fun isSame => same isSame.symm
      cases pending : reports.unreported other <;>
        simp [ofCaller, records, writes, step, pending, same, different]
  | report other =>
    by_cases same : other = caller
    · subst same
      cases pending : reports.unreported other <;>
        simp [ofCaller, records, writes, step, pending]
    · have different : caller ≠ other := fun isSame => same isSame.symm
      cases pending : reports.unreported other <;>
        simp [ofCaller, records, writes, step, pending, same, different]
  | clearMigrationLogs => simp [ofCaller, records, writes, step]

/-! ## The log -/

theorem hasWal_step (reports : MigrationReports) (next : ReportStep) :
    (reports.step next).manager.hasWal = reports.manager.hasWal := by
  cases next with
  | record caller entry =>
    unfold step
    dsimp only
    split <;> rfl
  | report caller =>
    unfold step
    dsimp only
    split <;> rfl
  | clearMigrationLogs => rfl

/-- With a log, each step appends the line of what it reports. -/
theorem logFile_step (attached : reports.manager.hasWal = true) (next : ReportStep) :
    (reports.step next).wal.logFile =
      reports.wal.logFile.map fun text => text ++ (reports.writes next).flatMap line := by
  cases next with
  | record caller entry =>
    cases pending : reports.unreported caller <;> simp [step, writes, pending]
  | report caller =>
    cases pending : reports.unreported caller with
    | none => simp [step, writes, pending]
    | some entry =>
      have written := reports.wal.logFile_writeLog (LayerManager.migrationText entry)
      simpa [step, writes, pending, LayerManager.reportMigration, attached, line] using written
  | clearMigrationLogs => simp [step, writes]

theorem logFile_run (attached : reports.manager.hasWal = true) (steps : List ReportStep) :
    (run step reports steps).wal.logFile =
      reports.wal.logFile.map fun text =>
        text ++ (gathered step writes reports steps).flatMap line := by
  induction steps generalizing reports with
  | nil => simp [run, gathered]
  | cons next steps ih =>
    have later := @ih (reports.step next) ((hasWal_step reports next).trans attached)
    rw [logFile_step attached, Option.map_map] at later
    refine later.trans (congrArg (Option.map · reports.wal.logFile) ?_)
    funext text
    rw [Function.comp_apply, gathered, List.flatMap_append, List.append_assoc]

/-! ## The list in memory -/

/-- The last entries, after one more. -/
theorem rtake_concat {Entry : Type} (limit : Nat) (entries : List Entry) (entry : Entry) :
    (entries ++ [entry]).rtake limit =
      if limit < (entries.rtake limit ++ [entry]).length then (entries.rtake limit ++ [entry]).tail
      else entries.rtake limit ++ [entry] := by
  have kept : entries.rtake limit ++ [entry] =
      (entries ++ [entry]).drop (entries.length - limit) := by
    rw [List.rtake, List.drop_append_of_le_length (Nat.sub_le _ _)]
  rw [kept, List.rtake, List.tail_drop, List.length_drop, List.length_append,
    List.length_singleton]
  split
  · congr 1
    omega
  · congr 1
    omega

/-- Each step appends what it records, and the oldest entries are dropped. -/
theorem migrationLogs_step {entries : List MigrationLogEntry}
    (kept : reports.manager.migrationLogs = entries.rtake 10000) {next : ReportStep}
    (noClear : next ≠ .clearMigrationLogs) :
    (reports.step next).manager.migrationLogs =
      (entries ++ (reports.records next).map Prod.snd).rtake 10000 := by
  cases next with
  | record caller entry =>
    cases pending : reports.unreported caller with
    | none =>
      have recorded : (reports.step (.record caller entry)).manager.migrationLogs =
          if 10000 < (reports.manager.migrationLogs ++ [entry]).length then
            (reports.manager.migrationLogs ++ [entry]).tail
          else reports.manager.migrationLogs ++ [entry] := by
        simp only [step, pending]
        rfl
      rw [recorded, kept, ← rtake_concat]
      simp only [records, pending, List.map_cons, List.map_nil]
    | some other => simp [step, records, pending, kept]
  | report caller =>
    cases pending : reports.unreported caller <;> simp [step, records, pending, kept]
  | clearMigrationLogs => exact absurd rfl noClear

theorem migrationLogs_run {entries : List MigrationLogEntry}
    (kept : reports.manager.migrationLogs = entries.rtake 10000) {steps : List ReportStep}
    (noClear : .clearMigrationLogs ∉ steps) :
    (run step reports steps).manager.migrationLogs =
      (entries ++ (gathered step records reports steps).map Prod.snd).rtake 10000 := by
  induction steps generalizing reports entries with
  | nil => simpa [run, gathered] using kept
  | cons next steps ih =>
    have isOther : next ≠ .clearMigrationLogs := fun same => noClear (same ▸ List.mem_cons_self)
    have later := ih (migrationLogs_step kept isOther) (List.not_mem_of_not_mem_cons noClear)
    rwa [List.append_assoc, ← List.map_append] at later

/-- For every interleaving of threads that log migrations: the list in memory has the last
10000 that were recorded since it was cleared, in order; the log has the lines of those that
were reported; and of each thread they are those that it recorded, in order, but for the one
that it has yet to report. -/
theorem migrations_logged (manager : LayerManager) (wal : WALManager) {text : ByteString}
    (attached : manager.hasWal = true) (isOpen : wal.logFile = some text)
    (before after : List ReportStep) (noClear : .clearMigrationLogs ∉ after) :
    let first : MigrationReports := { manager, wal }
    let cleared := (run step first before).step .clearMigrationLogs
    let steps := before ++ .clearMigrationLogs :: after
    let last := run step first steps
    last.manager.migrationLogs =
        ((gathered step records cleared after).map Prod.snd).rtake 10000 ∧
      last.wal.logFile = some (text ++ (gathered step writes first steps).flatMap line) ∧
      ∀ caller, gathered step (ofCaller caller records) first steps =
        gathered step (ofCaller caller writes) first steps ++
          (last.unreported caller).toList.map (caller, ·) := by
  intro first cleared steps last
  have isLast : last = run step cleared after := List.foldl_append
  refine ⟨?_, ?_, fun caller => ?_⟩
  · have empty : cleared.manager.migrationLogs = ([] : List MigrationLogEntry).rtake 10000 :=
      (List.rtake_nil 10000).symm
    rw [isLast, migrationLogs_run empty noClear, List.nil_append]
  · exact (@logFile_run first attached steps).trans (congrArg _ isOpen)
  · have conserved := gathered_in_order (unreported_step caller) first steps
    rwa [show first.unreported caller = none from rfl] at conserved

theorem plain_zero : ∀ byte ∈ ascii "0", isNumberByte byte = true :=
  List.forall_mem_singleton.mpr (by decide)

/-- A migration of some rows of a table. -/
def migrationOf (rowCount : Int) : MigrationLogEntry where
  timestamp := 0
  rowCount := rowCount
  durationSec := ⟨ascii "0", plain_zero⟩
  success := true
  reason := []
  tableName := ascii "t"

/-- Two threads that report in the other order. -/
theorem migrations_logged_two_threads :
    let last := run step { manager := { hasWal := true }, wal := {} }
      [.clearMigrationLogs, .record 0 (migrationOf 1), .record 1 (migrationOf 2), .report 1, .report 0]
    last.manager.migrationLogs = [migrationOf 1, migrationOf 2] ∧
      last.wal.logFile = some (line (1, migrationOf 2) ++ line (0, migrationOf 1)) := by
  have logged := migrations_logged { hasWal := true } {} rfl rfl []
    [.record 0 (migrationOf 1), .record 1 (migrationOf 2), .report 1, .report 0] (by simp)
  exact ⟨logged.1.trans (by decide), logged.2.1.trans (by decide)⟩

end MigrationReports

end MiniDB.Storage
