import MiniDB.Buffer.Latches
import MiniDB.Concurrency.DeadLockDetector
import MiniDB.Concurrency.LockCompatibility
import MiniDB.Index.BPlusTree
import MiniDB.Storage.LayerManager

/-!
# The objects of the database and their operations

One object of each class with a latch, the tree over the pool and the pool over
the disk manager, and the public operations by which one thread uses them, in any
order. Operations that take no latch and change nothing (`isHotPage`, `IsOld`, the
getters of the layer manager, `IsLeaf`, `BinarySearch`) are left out.
-/

namespace MiniDB.Database

open Foundation Log Buffer Storage Index Concurrency PoolProgram

/-- The operations of a replacer. -/
inductive ReplacerCall where
  | victim
  | pin (frame : Nat)
  | unpin (frame : Nat) (isHot : Bool)
  | size
deriving DecidableEq

def ReplacerCall.onLayeredClock (clock : LayeredClock) : ReplacerCall → LayeredClock
  | .victim => clock.victim.2
  | .pin frame => clock.pin frame
  | .unpin frame isHot => clock.unpin frame isHot
  | .size => clock.size.2

def ReplacerCall.onClock (clock : Clock) : ReplacerCall → Clock
  | .victim => clock.victim.2
  | .pin frame => clock.pin frame
  | .unpin frame _ => clock.unpin frame
  | .size => clock.size.2

def ReplacerCall.onClockPro (clock : ClockPro) : ReplacerCall → ClockPro
  | .victim => clock.victim.2
  | .pin frame => clock.pin frame
  | .unpin frame _ => clock.unpin frame
  | .size => clock.size.2

/-- The operations of the disk manager, called past the pool. -/
inductive DiskOperation where
  | openManager
  | readPage (pageId : Int) (out : Bytes)
  | writePage (pageId : Int) (buffer : Bytes)
  | allocPage
  | flushPage
  | flushAllPages

def DiskOperation.run (disk : DiskManager) : DiskOperation → DiskManager
  | .openManager => disk.openManager
  | .readPage pageId out => (disk.readPage pageId out).2
  | .writePage pageId buffer => disk.writePage pageId buffer
  | .allocPage => disk.allocPage.2
  | .flushPage => disk.flushPage
  | .flushAllPages => disk.flushAllPages

/-- The operations of the tree; a `Page*` is the frame of the page. -/
inductive TreeOperation where
  | getValue (key : Int) (result : List RID)
  | insert (key : Int) (value : RID)
  | remove (key : Int)
  | begin
  | findLeafPage (key : Int) (leftMost : Bool)
  | insertIntoParent (oldFrame : Nat) (key : Int) (newFrame : Nat)
  | coalesceOrRedistribute (frame : Nat)
  | adjustRoot (frame : Nat)

/-- The program of an operation, with fuel for its descent; it returns the tree. -/
def TreeOperation.program (fuel : Nat) (tree : BPlusTree) : TreeOperation → PoolProgram BPlusTree
  | .getValue key result => do return (← tree.getValue fuel key result).2
  | .insert key value => do return (← tree.insert fuel key value).2
  | .remove key => do return (← tree.remove fuel key).2
  | .begin => do return (← tree.begin fuel).2
  | .findLeafPage key leftMost => do
    let _ ← tree.findLeafPage fuel key leftMost
    return tree
  | .insertIntoParent oldFrame key newFrame => tree.insertIntoParent oldFrame key newFrame
  | .coalesceOrRedistribute frame => tree.coalesceOrRedistribute frame
  | .adjustRoot frame => tree.adjustRoot frame

/-- The operations of the lock manager. -/
inductive LockOperation where
  | request (call : LockCall)
  | getLockType (rid : RID)
deriving DecidableEq

def LockOperation.run (manager : LockManager) : LockOperation → LockManager
  | .request (.lockShared txn rid) => (manager.lockShared txn rid).2
  | .request (.lockExclusive txn rid) => (manager.lockExclusive txn rid).2
  | .request (.unlock txn rid) => (manager.unlock txn rid).2
  | .getLockType rid => (manager.getLockType rid).2

/-- The operations of the deadlock detector. -/
inductive DetectorOperation where
  | change (call : DeadLockDetector.Call)
  | hasDeadlock
  | detectCycle
  | getVictim
deriving DecidableEq

def DetectorOperation.run (detector : DeadLockDetector) : DetectorOperation → DeadLockDetector
  | .change call => detector.step call
  | .hasDeadlock => detector.hasDeadlock.2
  | .detectCycle => detector.detectCycle.2
  | .getVictim => detector.getVictim.2

/-- The operations of the layer manager. -/
inductive LayerOperation where
  | setHotThreshold (days : Int)
  | setMigrationRateLimit (rowsPerSec : Int)
  | isPageHot (pageId : Int)
  | markPageHot (pageId : Int)
  | markPageCold (pageId : Int)
  | canMigrateMore (now : Int)
  | recordMigrationStart (now : Int)
  | recordMigrationRows (rows : Int)
  | logMigration (entry : MigrationLogEntry)
  | getMigrationLogs
  | clearMigrationLogs
  | setWALManager (hasWal : Bool)
deriving DecidableEq

def LayerOperation.run (manager : LayerManager) (wal : WALManager) :
    LayerOperation → LayerManager × WALManager
  | .setHotThreshold days => (manager.setHotThreshold days, wal)
  | .setMigrationRateLimit rowsPerSec => (manager.setMigrationRateLimit rowsPerSec, wal)
  | .isPageHot pageId => ((manager.isPageHot pageId).2, wal)
  | .markPageHot pageId => (manager.markPageHot pageId, wal)
  | .markPageCold pageId => (manager.markPageCold pageId, wal)
  | .canMigrateMore now => ((manager.canMigrateMore now).2, wal)
  | .recordMigrationStart now => (manager.recordMigrationStart now, wal)
  | .recordMigrationRows rows => (manager.recordMigrationRows rows, wal)
  | .logMigration entry => manager.logMigration wal entry
  | .getMigrationLogs => (manager.getMigrationLogs.2, wal)
  | .clearMigrationLogs => (manager.clearMigrationLogs, wal)
  | .setWALManager hasWal => (manager.setWALManager hasWal, wal)

/-- One object of each class; the pool holds its replacer and the disk manager. -/
structure Objects where
  layeredClock : LayeredClock
  clock : Clock
  clockPro : ClockPro
  pool : BufferPool DiskManager
  tree : BPlusTree
  lockManager : LockManager := {}
  deadLockDetector : DeadLockDetector := {}
  layerManager : LayerManager := {}
  walManager : WALManager := {}

/-- An operation of one of the objects. -/
inductive Operation where
  | layeredClock (call : ReplacerCall)
  | clock (call : ReplacerCall)
  | clockPro (call : ReplacerCall)
  | disk (operation : DiskOperation)
  /-- An operation of the pool, or a change of a page through a pointer. -/
  | pool (request : PoolRequest)
  | tree (operation : TreeOperation)
  | lockManager (operation : LockOperation)
  | deadLockDetector (operation : DetectorOperation)
  | layerManager (operation : LayerOperation)

namespace Objects

/-- The objects as their constructors make them. -/
def new (frames : Nat) (file : Option File) (leafMaxSize internalMaxSize : Int) : Objects where
  layeredClock := { frameCount := frames }
  clock := { frame := frames }
  clockPro := { frame := frames }
  pool := BufferPool.new frames (DiskManager.new file)
  tree := { leafMaxSize, internalMaxSize }

/-- One operation, with fuel for the descents of the tree. -/
def step (fuel : Nat) (objects : Objects) : Operation → Objects
  | .layeredClock call =>
    { objects with layeredClock := call.onLayeredClock objects.layeredClock }
  | .clock call => { objects with clock := call.onClock objects.clock }
  | .clockPro call => { objects with clockPro := call.onClockPro objects.clockPro }
  | .disk operation =>
    let disk := operation.run objects.pool.frames.disk
    { objects with pool := { objects.pool with frames := { objects.pool.frames with disk } } }
  | .pool request => { objects with pool := (BufferPool.handle request objects.pool).2 }
  | .tree operation =>
    let (tree, pool) := run (operation.program fuel objects.tree) objects.pool
    { objects with tree, pool }
  | .lockManager operation =>
    { objects with lockManager := operation.run objects.lockManager }
  | .deadLockDetector operation =>
    { objects with deadLockDetector := operation.run objects.deadLockDetector }
  | .layerManager operation =>
    let (layerManager, walManager) := operation.run objects.layerManager objects.walManager
    { objects with layerManager, walManager }

end Objects

end MiniDB.Database
