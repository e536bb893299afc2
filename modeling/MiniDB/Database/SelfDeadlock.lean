import MiniDB.Database.Operations
import MiniDB.Foundation.Run
import MiniDB.Index.TreeLatch

/-!
# Where a thread waits for itself

All latches are free between two operations of a thread. An operation reaches an
acquire of a latch that the thread holds exactly when it asks a replacer for a
victim: by calling `Victim`, or by needing a frame of the pool when none is null.
-/

namespace MiniDB.Database

open Foundation Log Buffer Storage Index Concurrency PoolProgram

/-! ## What the operations of one object do to its latches -/

/-- Every operation of a tree gives the tree's latch back. -/
theorem TreeOperation.restores (fuel : Nat) (tree : BPlusTree) (operation : TreeOperation) :
    Client.Returns (fun after => tree.latch.Restores after.latch)
      (operation.program fuel tree) := by
  cases operation with
  | getValue key result =>
    exact Client.returns_bind.mpr (tree.restores_getValue fuel key result)
  | insert key value => exact Client.returns_bind.mpr (tree.restores_insert fuel key value)
  | remove key => exact Client.returns_bind.mpr (tree.restores_remove fuel key)
  | begin => exact Client.returns_bind.mpr (tree.restores_begin fuel)
  | findLeafPage key leftMost =>
    exact Client.returns_bind.mpr (Client.returns_of_forall (fun _ => Mutex.Restores.refl _) _)
  | insertIntoParent oldFrame key newFrame =>
    exact (tree.latch_insertIntoParent oldFrame key newFrame).imp fun _ => .of_eq
  | coalesceOrRedistribute frame =>
    exact (tree.latch_coalesceOrRedistribute frame).imp fun _ => .of_eq
  | adjustRoot frame =>
    exact (tree.latch_adjustRoot frame).imp fun _ => .of_eq

/-- Every operation of the disk manager gives its latch back. -/
theorem DiskOperation.restores (disk : DiskManager) (operation : DiskOperation) :
    disk.latch.Restores (operation.run disk).latch := by
  cases operation with
  | openManager => exact .refl _
  | readPage pageId out => exact disk.restores_readPage pageId out
  | writePage pageId buffer => exact disk.restores_writePage pageId buffer
  | allocPage => exact disk.restores_allocPage
  | flushPage => exact .refl _
  | flushAllPages => exact @restores_lockGuard DiskManager _ _ _ (fun _ => rfl) disk

/-- Every call of the lock manager gives its mutex back. -/
theorem LockOperation.restores (manager : LockManager) (operation : LockOperation) :
    manager.mtx.Restores (operation.run manager).mtx := by
  have request_keeps : ∀ (wanted refusing : LockType) (txn : Transaction) (rid : RID)
      (inner : LockManager),
      (LockManager.request wanted refusing txn rid inner).2.mtx = inner.mtx := by
    intro wanted refusing txn rid inner
    unfold LockManager.request
    dsimp only
    split
    · rfl
    · split <;> rfl
  cases operation with
  | request call =>
    cases call with
    | lockShared txn rid =>
      cases txn with
      | none => exact .refl _
      | some txn =>
        exact @restores_lockGuard LockManager _ _ _ (request_keeps _ _ txn rid) manager
    | lockExclusive txn rid =>
      cases txn with
      | none => exact .refl _
      | some txn =>
        exact @restores_lockGuard LockManager _ _ _ (request_keeps _ _ txn rid) manager
    | unlock txn rid =>
      cases txn with
      | none => exact .refl _
      | some txn =>
        refine @restores_lockGuard LockManager _ _ _ (fun inner => ?_) manager
        rfl
  | getLockType rid => exact @restores_lockGuard LockManager _ _ _ (fun _ => rfl) manager

/-- Every call of the deadlock detector gives its mutex back. -/
theorem DetectorOperation.restores (detector : DeadLockDetector) (operation : DetectorOperation) :
    detector.mtx.Restores (operation.run detector).mtx := by
  have detects : detector.mtx.Restores detector.detectCycle.2.mtx :=
    @restores_lockGuard DeadLockDetector _ _ _ (fun _ => rfl) detector
  cases operation with
  | change call =>
    cases call with
    | addEdge source target =>
      refine @restores_lockGuard DeadLockDetector _ _ _ (fun inner => ?_) detector
      rfl
    | removeEdge source target =>
      refine @restores_lockGuard DeadLockDetector _ _ _ (fun inner => ?_) detector
      rfl
    | removeTxn txn =>
      refine @restores_lockGuard DeadLockDetector _ _ _ (fun inner => ?_) detector
      rfl
  | hasDeadlock => exact @restores_lockGuard DeadLockDetector _ _ _ (fun _ => rfl) detector
  | detectCycle => exact detects
  | getVictim =>
    unfold DetectorOperation.run DeadLockDetector.getVictim
    dsimp only
    split
    all_goals
      next found =>
        rw [found] at detects
        exact detects

/-- Every call of the layer manager gives back its latch and that of the log. -/
theorem LayerOperation.restores (manager : LayerManager) (wal : WALManager)
    (operation : LayerOperation) :
    manager.latch.Restores (operation.run manager wal).1.latch ∧
      wal.mtx.Restores (operation.run manager wal).2.mtx := by
  have guarded : ∀ change : LayerManager → LayerManager,
      (∀ inner, (change inner).latch = inner.latch) →
        manager.latch.Restores (lockGuard' change manager).latch :=
    fun change keeps => @restores_lockGuard LayerManager Unit _ (fun inner => ((), change inner))
      keeps manager
  have asks : ∀ pageId, manager.latch.Restores (manager.isPageHot pageId).2.latch :=
    fun _ => @restores_lockGuard LayerManager _ _ _ (fun _ => rfl) manager
  have migrates : ∀ now, manager.latch.Restores (manager.canMigrateMore now).2.latch := by
    intro now
    refine @restores_lockGuard LayerManager _ _ _ (fun inner => ?_) manager
    dsimp only
    split <;> rfl
  have reads : manager.latch.Restores manager.getMigrationLogs.2.latch :=
    @restores_lockGuard LayerManager _ _ _ (fun _ => rfl) manager
  have writes : ∀ logEntry, wal.mtx.Restores (wal.writeLog logEntry).2.mtx := by
    intro logEntry
    refine @restores_lockGuard WALManager _ _ _ (fun inner => ?_) wal
    split <;> rfl
  cases operation with
  | setHotThreshold days => exact ⟨guarded _ fun _ => rfl, .refl _⟩
  | setMigrationRateLimit rowsPerSec => exact ⟨guarded _ fun _ => rfl, .refl _⟩
  | isPageHot pageId => exact ⟨asks pageId, .refl _⟩
  | markPageHot pageId => exact ⟨guarded _ fun _ => rfl, .refl _⟩
  | markPageCold pageId => exact ⟨guarded _ fun _ => rfl, .refl _⟩
  | canMigrateMore now => exact ⟨migrates now, .refl _⟩
  | recordMigrationStart now => exact ⟨guarded _ fun _ => rfl, .refl _⟩
  | recordMigrationRows rows => exact ⟨guarded _ fun _ => rfl, .refl _⟩
  | logMigration entry =>
    refine ⟨guarded _ fun _ => rfl, ?_⟩
    -- the latch is released by now, so the log's mutex is taken on its own
    unfold LayerOperation.run LayerManager.logMigration
    dsimp only
    split
    · exact writes _
    · exact .refl _
  | getMigrationLogs => exact ⟨reads, .refl _⟩
  | clearMigrationLogs => exact ⟨guarded _ fun _ => rfl, .refl _⟩
  | setWALManager hasWal => exact ⟨.refl _, .refl _⟩

/-- A replacer restores its latch unless it is asked for a victim. -/
theorem ReplacerCall.restores {call : ReplacerCall} (notVictim : call ≠ .victim)
    (layeredClock : LayeredClock) (clock : Clock) (clockPro : ClockPro) :
    layeredClock.latch.Restores (call.onLayeredClock layeredClock).latch ∧
      clock.latch.Restores (call.onClock clock).latch ∧
      clockPro.latch.Restores (call.onClockPro clockPro).latch := by
  cases call with
  | victim => exact absurd rfl notVictim
  | pin frame =>
    exact ⟨layeredClock.restores_pin frame, clock.restores_pin frame, clockPro.restores_pin frame⟩
  | unpin frame isHot =>
    exact ⟨layeredClock.restores_unpin frame isHot, clock.restores_unpin frame,
      clockPro.restores_unpin frame⟩
  | size => exact ⟨layeredClock.restores_size, clock.restores_size, clockPro.restores_size⟩

/-- A replacer that is asked for a victim waits for itself. -/
theorem ReplacerCall.evolves (call : ReplacerCall) (layeredClock : LayeredClock) (clock : Clock)
    (clockPro : ClockPro) :
    layeredClock.latch.Evolves (call.onLayeredClock layeredClock).latch ∧
      clock.latch.Evolves (call.onClock clock).latch ∧
      clockPro.latch.Evolves (call.onClockPro clockPro).latch := by
  by_cases victim : call = .victim
  · subst victim
    simp only [onLayeredClock, onClock, onClockPro, LayeredClock.latch_victim, Clock.latch_victim,
      ClockPro.latch_victim]
    exact ⟨Mutex.evolves_nested _, Mutex.evolves_nested _, Mutex.evolves_nested _⟩
  · obtain ⟨first, second, third⟩ := restores victim layeredClock clock clockPro
    exact ⟨first.evolves, second.evolves, third.evolves⟩

/-! ## Runs of all objects -/

/-- The latches of the objects. -/
inductive Lock where
  | layeredClock
  | clock
  | clockPro
  | pool (lock : PoolLock)
  | tree
  | lockManager
  | deadLockDetector
  | layerManager
  | walManager
deriving DecidableEq, Repr

namespace Objects

def mutexes (objects : Objects) : Lock → Mutex
  | .layeredClock => objects.layeredClock.latch
  | .clock => objects.clock.latch
  | .clockPro => objects.clockPro.latch
  | .pool lock => objects.pool.mutexes lock
  | .tree => objects.tree.latch
  | .lockManager => objects.lockManager.mtx
  | .deadLockDetector => objects.deadLockDetector.mtx
  | .layerManager => objects.layerManager.latch
  | .walManager => objects.walManager.mtx

/-- The condition on an operation: it asks no replacer for a victim. Every request
for a frame, also one that the tree makes, finds a null frame. -/
def AsksNoVictim (fuel : Nat) (objects : Objects) : Operation → Prop
  | .layeredClock call => call ≠ .victim
  | .clock call => call ≠ .victim
  | .clockPro call => call ≠ .victim
  | .pool request => BufferPool.FindsFrame request objects.pool
  | .tree operation =>
    Client.Each BufferPool.handle BufferPool.FindsFrame
      (operation.program fuel objects.tree) objects.pool
  | _ => True

instance (fuel : Nat) (objects : Objects) (operation : Operation) :
    Decidable (objects.AsksNoVictim fuel operation) :=
  match operation with
  | .layeredClock _ | .clock _ | .clockPro _ => inferInstanceAs (Decidable (_ ≠ _))
  | .pool _ => inferInstanceAs (Decidable (BufferPool.FindsFrame _ _))
  | .tree _ => inferInstanceAs (Decidable (Client.Each _ _ _ _))
  | .disk _ | .lockManager _ | .deadLockDetector _ | .layerManager _ =>
    inferInstanceAs (Decidable True)

/-- An operation that meets the condition releases what it takes. -/
theorem restores_step {fuel : Nat} {objects : Objects} {operation : Operation}
    (asks : objects.AsksNoVictim fuel operation) (lock : Lock) :
    (objects.mutexes lock).Restores ((objects.step fuel operation).mutexes lock) := by
  have replacers := fun {call : ReplacerCall} (notVictim : call ≠ .victim) =>
    ReplacerCall.restores notVictim objects.layeredClock objects.clock objects.clockPro
  cases operation with
  | layeredClock call =>
    cases lock with
    | layeredClock => exact (replacers asks).1
    | _ => exact .refl _
  | clock call =>
    cases lock with
    | clock => exact (replacers asks).2.1
    | _ => exact .refl _
  | clockPro call =>
    cases lock with
    | clockPro => exact (replacers asks).2.2
    | _ => exact .refl _
  | disk operation =>
    cases lock with
    | pool lock =>
      cases lock with
      | disk => exact operation.restores objects.pool.frames.disk
      | _ => exact .refl _
    | _ => exact .refl _
  | pool request =>
    cases lock with
    | pool lock => exact BufferPool.restores_handle request objects.pool asks lock
    | _ => exact .refl _
  | tree operation =>
    cases lock with
    | pool lock => exact BufferPool.restores_run asks lock
    | tree => exact (operation.restores fuel objects.tree).run objects.pool
    | _ => exact .refl _
  | lockManager operation =>
    cases lock with
    | lockManager => exact operation.restores objects.lockManager
    | _ => exact .refl _
  | deadLockDetector operation =>
    cases lock with
    | deadLockDetector => exact operation.restores objects.deadLockDetector
    | _ => exact .refl _
  | layerManager operation =>
    obtain ⟨layer, wal⟩ := operation.restores objects.layerManager objects.walManager
    cases lock with
    | layerManager => exact layer
    | walManager => exact wal
    | _ => exact .refl _

/-- An operation that asks for a victim gets stuck. -/
theorem isStuck_step {fuel : Nat} {objects : Objects} {operation : Operation}
    (atRest : AtRest objects.mutexes) (asks : ¬ objects.AsksNoVictim fuel operation) :
    IsStuck (objects.step fuel operation).mutexes := by
  have poolAtRest : AtRest objects.pool.mutexes := fun lock => atRest (.pool lock)
  cases operation with
  | layeredClock call =>
    obtain rfl : call = .victim := not_not.mp asks
    refine ⟨.layeredClock, (objects.layeredClock.latch_victim).trans ?_⟩
    exact Mutex.nested_stuck (atRest .layeredClock)
  | clock call =>
    obtain rfl : call = .victim := not_not.mp asks
    refine ⟨.clock, (objects.clock.latch_victim).trans ?_⟩
    exact Mutex.nested_stuck (atRest .clock)
  | clockPro call =>
    obtain rfl : call = .victim := not_not.mp asks
    refine ⟨.clockPro, (objects.clockPro.latch_victim).trans ?_⟩
    exact Mutex.nested_stuck (atRest .clockPro)
  | pool request =>
    exact ⟨.pool .replacer, BufferPool.stuck_of_not_findsFrame poolAtRest asks⟩
  | tree operation =>
    have stuck := mt (BufferPool.not_isStuck_run_iff _ poolAtRest).mp asks
    obtain ⟨lock, isStuck⟩ := not_not.mp stuck
    exact ⟨.pool lock, isStuck⟩
  | _ => exact absurd trivial asks

/-- At the start no mutex is held. -/
theorem atRest_new (frames : Nat) (file : Option File) (leafMaxSize internalMaxSize : Int) :
    AtRest (new frames file leafMaxSize internalMaxSize).mutexes := by
  intro lock
  cases lock with
  | pool lock => exact BufferPool.atRest_new frames file lock
  | _ => rfl

/-- From objects at rest, no operation of a run reaches a stuck acquire exactly
when none asks a replacer for a victim. -/
theorem throughout_not_isStuck_iff (fuel : Nat) (objects : Objects)
    (atRest : AtRest objects.mutexes) (operations : List Operation) :
    Throughout (step fuel) (fun objects => ¬ IsStuck objects.mutexes) objects operations ↔
      EachCall (step fuel) (AsksNoVictim fuel) objects operations := by
  refine @throughout_iff_eachCall _ _ _ _ (fun objects => AtRest objects.mutexes) _ ?_ ?_ _
    operations atRest atRest.not_isStuck
  · intro objects operation atRest _
    constructor
    · intro notStuck
      by_contra asks
      exact notStuck (isStuck_step atRest asks)
    · intro asks
      exact (atRest.restores (restores_step asks)).not_isStuck
  · intro objects operation atRest _ notStuck
    have asks : objects.AsksNoVictim fuel operation := by
      by_contra asks
      exact notStuck (isStuck_step atRest asks)
    exact atRest.restores (restores_step asks)

/-- In a pool of one frame the tree takes the frame for its root, and operations
that find their page there need no victim. -/
theorem not_isStuck_small_pool :
    Throughout (step 1) (fun objects => ¬ IsStuck objects.mutexes) (new 1 (some {}) 50 25)
      [.tree (.insert 10 {}), .tree (.getValue 10 []), .pool (.fetchPage 0),
        .deadLockDetector .getVictim] :=
  (throughout_not_isStuck_iff 1 _ (atRest_new 1 (some {}) 50 25) _).mpr (by decide +kernel)

/-- `NewPage` on a full pool of one frame waits for itself. -/
theorem newPage_waits_for_itself :
    ¬ Throughout (step 1) (fun objects => ¬ IsStuck objects.mutexes) (new 1 (some {}) 50 25)
      [.pool .newPage, .pool (.unpinPage 0 false), .pool .newPage] := by
  rintro ⟨-, -, -, notStuck⟩
  exact notStuck ⟨.pool .replacer, by decide +kernel⟩

end Objects

end MiniDB.Database
