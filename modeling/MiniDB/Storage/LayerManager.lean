import Mathlib.Data.Finset.Basic
import MiniDB.Log.WALManager

/-!
# The layer manager

`LayerManager` keeps the hot pages, the limit on migrations and their log, and
reports each migration to the write-ahead log. The clock is a parameter of the
operations that read it. A duration is the text that `operator<<` prints for it.
-/

namespace MiniDB.Storage

open Foundation Log

/-- The bytes that `operator<<` prints for a number: digits, signs, a point, and the
letters of an exponent, of `inf` and of `nan`. -/
def isNumberByte (byte : UInt8) : Bool := byte ∈ ascii "0123456789+-.einfa"

/-- What `operator<<` prints for a number. -/
structure PrintedNumber where
  text : ByteString
  plain : ∀ byte ∈ text, isNumberByte byte = true
deriving DecidableEq, Repr

/-- `MigrationLogEntry`. -/
structure MigrationLogEntry where
  timestamp : Int
  rowCount : Int
  durationSec : PrintedNumber
  success : Bool
  reason : ByteString
  tableName : ByteString
deriving DecidableEq, Repr

/-- `LayerManager`. -/
structure LayerManager where
  hotPageIds : Finset Int := ∅
  /-- `HOT_THRESHOLD_DAYS`. -/
  hotThresholdDays : Int := 3
  /-- `MIGRATION_RATE_LIMIT`. -/
  migrationRateLimit : Int := 1000
  /-- In nanoseconds. -/
  lastMigrationTime : Int := 0
  rowsMigratedThisSecond : Int := 0
  migrationLogs : List MigrationLogEntry := []
  /-- `wal_manager_` is not null. -/
  hasWal : Bool := false
  latch : Mutex := .unlocked

namespace LayerManager

instance : Guarded LayerManager where
  mutex manager := manager.latch
  setMutex manager mutex := { manager with latch := mutex }

/-- `LayerManager::SetHotThreshold`. -/
def setHotThreshold (manager : LayerManager) (days : Int) : LayerManager :=
  lockGuard' (fun manager => { manager with hotThresholdDays := days }) manager

/-- `LayerManager::SetMigrationRateLimit`. -/
def setMigrationRateLimit (manager : LayerManager) (rowsPerSec : Int) : LayerManager :=
  lockGuard' (fun manager => { manager with migrationRateLimit := rowsPerSec }) manager

/-- `LayerManager::IsPageHot`. -/
def isPageHot (manager : LayerManager) (pageId : Int) : Bool × LayerManager :=
  lockGuard (fun manager => (decide (pageId ∈ manager.hotPageIds), manager)) manager

/-- `LayerManager::MarkPageHot`. -/
def markPageHot (manager : LayerManager) (pageId : Int) : LayerManager :=
  lockGuard' (fun manager => { manager with hotPageIds := insert pageId manager.hotPageIds })
    manager

/-- `LayerManager::MarkPageCold`. -/
def markPageCold (manager : LayerManager) (pageId : Int) : LayerManager :=
  lockGuard' (fun manager => { manager with hotPageIds := manager.hotPageIds.erase pageId })
    manager

/-- `LayerManager::CanMigrateMore`; the count starts anew after a whole second. -/
def canMigrateMore (manager : LayerManager) (now : Int) : Bool × LayerManager :=
  lockGuard (fun manager =>
    let elapsed := (now - manager.lastMigrationTime).tdiv 1000000000
    let manager :=
      if 1 ≤ elapsed then { manager with rowsMigratedThisSecond := 0, lastMigrationTime := now }
      else manager
    (decide (manager.rowsMigratedThisSecond < manager.migrationRateLimit), manager)) manager

/-- `LayerManager::RecordMigrationStart`. -/
def recordMigrationStart (manager : LayerManager) (now : Int) : LayerManager :=
  lockGuard' (fun manager => { manager with lastMigrationTime := now }) manager

/-- `LayerManager::RecordMigrationRows`. -/
def recordMigrationRows (manager : LayerManager) (rows : Int) : LayerManager :=
  lockGuard' (fun manager =>
    { manager with rowsMigratedThisSecond := manager.rowsMigratedThisSecond + rows }) manager

/-- The text that `LogMigration` reports. -/
def migrationText (entry : MigrationLogEntry) : ByteString :=
  ascii "MIGRATION|" ++ entry.tableName ++ ascii "|" ++ ascii (toString entry.rowCount) ++
    ascii "|" ++ entry.durationSec.text ++ ascii "|" ++
    ascii (if entry.success then "OK" else "FAIL") ++ ascii "|" ++ entry.reason

/-- `LayerManager::LogMigration`: at most 10000 entries are kept, and the report
is written with the latch released. -/
def logMigration (manager : LayerManager) (wal : WALManager) (entry : MigrationLogEntry) :
    LayerManager × WALManager :=
  let manager := lockGuard' (fun manager =>
    let logs := manager.migrationLogs ++ [entry]
    { manager with migrationLogs := if 10000 < logs.length then logs.tail else logs }) manager
  (manager, if manager.hasWal then (wal.writeLog (migrationText entry)).2 else wal)

/-- `LayerManager::GetMigrationLogs`. -/
def getMigrationLogs (manager : LayerManager) : List MigrationLogEntry × LayerManager :=
  lockGuard (fun manager => (manager.migrationLogs, manager)) manager

/-- `LayerManager::ClearMigrationLogs`. -/
def clearMigrationLogs (manager : LayerManager) : LayerManager :=
  lockGuard' (fun manager => { manager with migrationLogs := [] }) manager

/-- `LayerManager::SetWALManager`, which takes no latch. -/
def setWALManager (manager : LayerManager) (hasWal : Bool) : LayerManager :=
  { manager with hasWal }

end LayerManager

end MiniDB.Storage
