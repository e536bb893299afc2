import MiniDB.Buffer.Resident

/-!
# The latches of the pool

Every operation of the pool takes the pool's latch, and under it those of the
replacer and of the disk manager. All are released again, but for `Victim`:
`Size()` acquires the latch that `Victim` holds. The pool asks for a victim
exactly when it needs a frame and none is null.
-/

namespace MiniDB.Buffer

open Foundation Storage

/-! ## The replacers -/

/-- A latch that neither the visits nor the moves of the hand touch. -/
theorem sweep_keeps {State : Type} (latchOf : State → Mutex) {hand : State → Nat}
    {advance : State → State} {visit : State → Bool × State} {start : Nat}
    (visit_keeps : ∀ state, latchOf (visit state).2 = latchOf state)
    (advance_keeps : ∀ state, latchOf (advance state) = latchOf state) (fuel : Nat)
    (state : State) : latchOf (sweep hand advance visit start fuel state).2 = latchOf state := by
  induction fuel generalizing state with
  | zero => rfl
  | succ fuel ih =>
    have next : latchOf (advance (visit state).2) = latchOf state :=
      (advance_keeps _).trans (visit_keeps state)
    unfold sweep
    dsimp only
    split
    · exact next
    · split
      · exact (ih _).trans next
      · exact next

namespace LayeredClock

theorem latch_visitCold (state : Nat × LayeredClock) :
    (visitCold state).2.2.latch = state.2.latch := by
  unfold visitCold
  dsimp only
  repeat' split
  all_goals rfl

theorem latch_visitHot (clock : LayeredClock) : clock.visitHot.2.latch = clock.latch := by
  unfold visitHot
  dsimp only
  repeat' split
  all_goals rfl

theorem latch_advance (clock : LayeredClock) : clock.advance.latch = clock.latch := rfl

/-- The search for a victim is under the caller's latch. -/
theorem latch_search (clock : LayeredClock) : clock.search.2.latch = clock.latch := by
  have first := @sweep_keeps _ (fun state : Nat × LayeredClock => state.2.latch)
    (fun state => state.2.clockHand) (fun state => (state.1, state.2.advance)) visitCold
    clock.clockHand latch_visitCold (fun _ => rfl) clock.frameCount (0, clock)
  unfold search
  dsimp only
  split
  · exact first
  · exact (sweep_keeps latch latch_visitHot latch_advance _ _).trans first

/-- `LayeredClock::Pin` gives its latch back. -/
theorem restores_pin (clock : LayeredClock) (frame : Nat) :
    clock.latch.Restores (clock.pin frame).latch := by
  refine @restores_lockGuard LayeredClock _ _ _ (fun inner => ?_) clock
  dsimp only
  split <;> rfl

/-- `LayeredClock::Unpin` gives its latch back. -/
theorem restores_unpin (clock : LayeredClock) (frame : Nat) (isHot : Bool) :
    clock.latch.Restores (clock.unpin frame isHot).latch := by
  refine @restores_lockGuard LayeredClock _ _ _ (fun inner => ?_) clock
  dsimp only
  split <;> rfl

theorem restores_size (clock : LayeredClock) : clock.latch.Restores clock.size.2.latch :=
  @restores_lockGuard LayeredClock _ _ _ (fun _ => rfl) clock

/-- `LayeredClock::Victim` calls `Size`, which takes the latch that it holds already. -/
theorem latch_victim (clock : LayeredClock) :
    clock.victim.2.latch = clock.latch.lock.lock.unlock.unlock := by
  refine @mutex_lockGuard LayeredClock _ _ _ (fun mutex => mutex.lock.unlock) (fun inner => ?_) clock
  dsimp only
  split
  · rfl
  · exact latch_search _

end LayeredClock

namespace Clock

/-- `Clock::Pin` gives its latch back. -/
theorem restores_pin (clock : Clock) (frame : Nat) :
    clock.latch.Restores (clock.pin frame).latch := by
  refine @restores_lockGuard Clock _ _ _ (fun inner => ?_) clock
  dsimp only
  split <;> rfl

/-- `Clock::Unpin` gives its latch back. -/
theorem restores_unpin (clock : Clock) (frame : Nat) :
    clock.latch.Restores (clock.unpin frame).latch := by
  refine @restores_lockGuard Clock _ _ _ (fun inner => ?_) clock
  dsimp only
  split <;> rfl

theorem restores_size (clock : Clock) : clock.latch.Restores clock.size.2.latch :=
  @restores_lockGuard Clock _ _ _ (fun _ => rfl) clock

theorem latch_visit (clock : Clock) : clock.visit.2.latch = clock.latch := by
  unfold visit
  dsimp only
  repeat' split
  all_goals rfl

theorem latch_advance (clock : Clock) : clock.advance.latch = clock.latch := rfl

/-- `Clock::Victim` takes its latch twice, too. -/
theorem latch_victim (clock : Clock) :
    clock.victim.2.latch = clock.latch.lock.lock.unlock.unlock := by
  refine @mutex_lockGuard Clock _ _ _ (fun mutex => mutex.lock.unlock) (fun inner => ?_) clock
  dsimp only
  split
  · rfl
  · exact sweep_keeps latch latch_visit latch_advance _ _

end Clock

namespace ClockPro

/-- `ClockPro::Pin` gives its latch back. -/
theorem restores_pin (clock : ClockPro) (frame : Nat) :
    clock.latch.Restores (clock.pin frame).latch := by
  refine @restores_lockGuard ClockPro _ _ _ (fun inner => ?_) clock
  dsimp only
  split <;> rfl

/-- `ClockPro::Unpin` gives its latch back. -/
theorem restores_unpin (clock : ClockPro) (frame : Nat) :
    clock.latch.Restores (clock.unpin frame).latch := by
  refine @restores_lockGuard ClockPro _ _ _ (fun inner => ?_) clock
  dsimp only
  split <;> rfl

theorem restores_size (clock : ClockPro) : clock.latch.Restores clock.size.2.latch :=
  @restores_lockGuard ClockPro _ _ _ (fun _ => rfl) clock

theorem latch_visit (clock : ClockPro) : clock.visit.2.latch = clock.latch := by
  unfold visit
  dsimp only
  repeat' split
  all_goals rfl

theorem latch_advance (clock : ClockPro) : clock.advance.latch = clock.latch := rfl

/-- `ClockPro::Victim` takes its latch twice, too. -/
theorem latch_victim (clock : ClockPro) :
    clock.victim.2.latch = clock.latch.lock.lock.unlock.unlock := by
  refine @mutex_lockGuard ClockPro _ _ _ (fun mutex => mutex.lock.unlock) (fun inner => ?_) clock
  dsimp only
  split
  · rfl
  · exact sweep_keeps latch latch_visit latch_advance _ _

end ClockPro

end MiniDB.Buffer

/-! ## The disk manager -/

namespace MiniDB.Storage.DiskManager

open Foundation

/-- `ReadPage` gives the latch of the disk manager back. -/
theorem restores_readPage (disk : DiskManager) (pageId : Int) (out : Bytes) :
    disk.latch.Restores (disk.readPage pageId out).2.latch := by
  refine @restores_lockGuard DiskManager _ _ _ (fun inner => ?_) disk
  rfl

/-- `WritePage` gives it back. -/
theorem restores_writePage (disk : DiskManager) (pageId : Int) (buffer : Bytes) :
    disk.latch.Restores (disk.writePage pageId buffer).latch := by
  refine @restores_lockGuard DiskManager _ _ _ (fun inner => ?_) disk
  rfl

/-- `AllocPage` gives it back. -/
theorem restores_allocPage (disk : DiskManager) :
    disk.latch.Restores disk.allocPage.2.latch := by
  refine @restores_lockGuard DiskManager _ _ _ (fun inner => ?_) disk
  rfl

end MiniDB.Storage.DiskManager

/-! ## The pool -/

namespace MiniDB.Buffer

open Foundation Storage

/-- The latches taken by the operations of a pool. -/
inductive PoolLock where
  | pool
  | replacer
  | disk
deriving DecidableEq, Repr

namespace BufferPool

/-- The latches of a pool. -/
def mutexes (pool : BufferPool DiskManager) : PoolLock → Mutex
  | .pool => pool.latch
  | .replacer => pool.replacer.latch
  | .disk => pool.frames.disk.latch

/-- What the code under the pool's latch does: the latch itself is left alone, the
replacer's latch changes as `relation` says, and the disk's latch is restored. -/
structure Under (relation : Mutex → Mutex → Prop) (before after : BufferPool DiskManager) :
    Prop where
  latch : after.latch = before.latch
  replacer : relation before.replacer.latch after.replacer.latch
  disk : before.frames.disk.latch.Restores after.frames.disk.latch

/-- From the code under the latch to the whole operation. -/
theorem Under.lockGuard {Result : Type} {relation : Mutex → Mutex → Prop}
    (allows : Mutex.AllowsGuards relation)
    {body : BufferPool DiskManager → Result × BufferPool DiskManager}
    {pool : BufferPool DiskManager}
    (under : Under relation { pool with latch := pool.latch.lock }
      (body { pool with latch := pool.latch.lock }).2) (lock : PoolLock) :
    relation (pool.mutexes lock) ((Foundation.lockGuard body pool).2.mutexes lock) := by
  cases lock with
  | pool =>
    have same : (Foundation.lockGuard body pool).2.latch = pool.latch.lock.unlock :=
      congrArg Mutex.unlock under.latch
    simp only [mutexes, same]
    exact allows.contains (Mutex.restores_guard _)
  | replacer => exact under.replacer
  | disk => exact allows.contains under.disk

/-- A page that is written back takes the disk manager's latch and gives it back. -/
theorem restores_writeBack (frames : Frames DiskManager) (pageId : Int) (page : Page) :
    frames.disk.latch.Restores (frames.writeBack pageId page).disk.latch := by
  unfold Frames.writeBack
  split
  · exact DiskManager.restores_writePage frames.disk pageId page.data
  · exact .refl _

theorem restores_flushPageInternal (frames : Frames DiskManager) (pageId : Int) :
    frames.disk.latch.Restores (frames.flushPageInternal pageId).2.disk.latch := by
  have flushes := frames.flushPageInternal_flushes pageId
  generalize (frames.flushPageInternal pageId).2 = after at flushes
  cases flushes with
  | unchanged => exact .refl _
  | written resident held dirty => exact restores_writeBack frames pageId _

/-- The pool asks for a victim only without a null frame. -/
theorem under_obtainFrame (pool : BufferPool DiskManager) :
    Under Mutex.Evolves pool pool.obtainFrame.2 := by
  unfold obtainFrame
  split
  · exact ⟨rfl, (Mutex.Restores.refl _).evolves, .refl _⟩
  · have evolves : pool.replacer.latch.Evolves pool.replacer.victim.2.latch := by
      rw [LayeredClock.latch_victim]
      exact Mutex.evolves_nested _
    dsimp only
    split
    · exact ⟨rfl, evolves, .refl _⟩
    · split
      · exact ⟨rfl, evolves, .refl _⟩
      · split
        · exact ⟨rfl, evolves, .refl _⟩
        · exact ⟨rfl, evolves, restores_writeBack _ _ _⟩

/-- Without a null frame the pool asks for a victim and waits for the replacer's latch for
ever. -/
theorem obtainFrame_stuck {pool : BufferPool DiskManager} (full : pool.findFree = none)
    (free : pool.replacer.latch = .unlocked) : pool.obtainFrame.2.replacer.latch = .stuck := by
  have stuck : pool.replacer.victim.2.latch = .stuck := by
    rw [LayeredClock.latch_victim]
    exact Mutex.nested_stuck free
  unfold obtainFrame
  rw [full]
  dsimp only
  repeat' split
  all_goals exact stuck

section Requests

variable {relation : Mutex → Mutex → Prop} (allows : Mutex.AllowsGuards relation)
include allows

/-- The frame of a page leaves the replacer once the page is in. -/
theorem Under.pinned {before after : BufferPool DiskManager}
    (under : Under relation before after) {frames : Frames DiskManager}
    (restores : after.frames.disk.latch.Restores frames.disk.latch) (frame : Nat) :
    Under relation before (after.pinned frames frame) :=
  ⟨under.latch, allows.trans under.replacer (LayeredClock.restores_pin _ frame),
    under.disk.trans restores⟩

/-- `FetchPage` does to the latches what obtaining a frame does. -/
theorem relates_fetchPage (pool : BufferPool DiskManager) (pageId : Int)
    (obtains : pool.frames.pageTable.lookup pageId = none →
      Under relation { pool with latch := pool.latch.lock }
        (obtainFrame { pool with latch := pool.latch.lock }).2) (lock : PoolLock) :
    relation (pool.mutexes lock) ((pool.fetchPage pageId).2.mutexes lock) := by
  refine Under.lockGuard allows ?_ lock
  dsimp only
  split
  · refine Under.pinned allows ?_ ?_ _
    · exact ⟨rfl, allows.contains (.refl _), .refl _⟩
    · exact .refl _
  · next absent =>
    have under := obtains absent
    split
    · next obtained same =>
      rw [same] at under
      exact under
    · next frame obtained same =>
      rw [same] at under
      refine Under.pinned allows under ?_ frame
      exact DiskManager.restores_readPage _ _ _

/-- `NewPage` does to the latches what obtaining a frame does. -/
theorem relates_newPage (pool : BufferPool DiskManager)
    (obtains : Under relation { pool with latch := pool.latch.lock }
      (obtainFrame { pool with latch := pool.latch.lock }).2) (lock : PoolLock) :
    relation (pool.mutexes lock) (pool.newPage.2.mutexes lock) := by
  refine Under.lockGuard allows ?_ lock
  dsimp only
  split
  · next obtained same =>
    rw [same] at obtains
    exact obtains
  · next frame obtained same =>
    rw [same] at obtains
    refine Under.pinned allows obtains ?_ frame
    exact DiskManager.restores_allocPage _

end Requests

/-- `UnpinPage` gives back every latch of the pool. -/
theorem restores_unpinPage (pool : BufferPool DiskManager) (pageId : Int) (isDirty : Bool)
    (lock : PoolLock) :
    (pool.mutexes lock).Restores ((pool.unpinPage pageId isDirty).2.mutexes lock) := by
  refine Under.lockGuard Mutex.allowsGuards_restores ?_ lock
  dsimp only
  repeat' split
  all_goals first
    | exact ⟨rfl, .refl _, .refl _⟩
    | exact ⟨rfl, LayeredClock.restores_unpin _ _ _, .refl _⟩

/-- `DeletePage` gives back every latch of the pool. -/
theorem restores_deletePage (pool : BufferPool DiskManager) (pageId : Int) (lock : PoolLock) :
    (pool.mutexes lock).Restores ((pool.deletePage pageId).2.mutexes lock) := by
  refine Under.lockGuard Mutex.allowsGuards_restores ?_ lock
  dsimp only
  repeat' split
  all_goals first
    | exact ⟨rfl, .refl _, .refl _⟩
    | exact ⟨rfl, LayeredClock.restores_pin _ _, restores_writeBack _ _ _⟩

/-- `FlushPage` gives back every latch of the pool. -/
theorem restores_flushPage (pool : BufferPool DiskManager) (pageId : Int) (lock : PoolLock) :
    (pool.mutexes lock).Restores ((pool.flushPage pageId).2.mutexes lock) := by
  refine Under.lockGuard Mutex.allowsGuards_restores ?_ lock
  exact ⟨rfl, .refl _, restores_flushPageInternal _ pageId⟩

/-- `FlushAllPages` gives back every latch of the pool. -/
theorem restores_flushAllPages (pool : BufferPool DiskManager) (lock : PoolLock) :
    (pool.mutexes lock).Restores (pool.flushAllPages.mutexes lock) := by
  have flushed : ∀ (pageIds : List Int) (frames : Frames DiskManager),
      frames.disk.latch.Restores (pageIds.foldl (fun frames pageId =>
        (frames.flushPageInternal pageId).2) frames).disk.latch := by
    intro pageIds
    induction pageIds with
    | nil => exact fun _ => .refl _
    | cons pageId pageIds ih =>
      exact fun frames => (restores_flushPageInternal frames pageId).trans (ih _)
  unfold flushAllPages lockGuard'
  refine Under.lockGuard Mutex.allowsGuards_restores ?_ lock
  exact ⟨rfl, .refl _, flushed _ _⟩

/-- The condition on a request: when it needs a frame, one is null. -/
def FindsFrame (request : PoolRequest) (pool : BufferPool DiskManager) : Prop :=
  match request with
  | .fetchPage pageId => pool.frames.pageTable.lookup pageId ≠ none ∨ pool.findFree ≠ none
  | .newPage => pool.findFree ≠ none
  | _ => True

instance (request : PoolRequest) (pool : BufferPool DiskManager) :
    Decidable (FindsFrame request pool) :=
  match request with
  | .fetchPage _ => inferInstanceAs (Decidable (_ ∨ _))
  | .newPage => inferInstanceAs (Decidable (_ ≠ _))
  | .unpinPage _ _ | .deletePage _ | .flushPage _ | .flushAllPages | .getPageId _ | .getData _
  | .putData _ _ | .setDirty _ => inferInstanceAs (Decidable True)

/-- A null frame is obtained without touching a latch. -/
theorem under_obtainFrame_free {pool : BufferPool DiskManager} (free : pool.findFree ≠ none) :
    Under Mutex.Restores pool pool.obtainFrame.2 := by
  obtain ⟨frame, found⟩ := Option.ne_none_iff_exists'.mp free
  rw [obtainFrame_of_findFree found]
  exact ⟨rfl, .refl _, .refl _⟩

/-- A request that meets the condition releases what it takes. -/
theorem restores_handle (request : PoolRequest) (pool : BufferPool DiskManager)
    (finds : FindsFrame request pool) (lock : PoolLock) :
    (pool.mutexes lock).Restores ((handle request pool).2.mutexes lock) := by
  cases request with
  | fetchPage pageId =>
    refine relates_fetchPage Mutex.allowsGuards_restores pool pageId ?_ lock
    intro absent
    rcases finds with resident | free
    · exact absurd absent resident
    · exact under_obtainFrame_free free
  | newPage =>
    exact relates_newPage Mutex.allowsGuards_restores pool
      (under_obtainFrame_free finds) lock
  | unpinPage pageId isDirty => exact pool.restores_unpinPage pageId isDirty lock
  | deletePage pageId => exact pool.restores_deletePage pageId lock
  | flushPage pageId => exact pool.restores_flushPage pageId lock
  | flushAllPages => exact pool.restores_flushAllPages lock
  | getPageId frame => exact .refl _
  | getData frame => exact .refl _
  | putData frame data => cases lock <;> exact .refl _
  | setDirty frame => cases lock <;> exact .refl _

/-- Any request leaves a free latch free or stuck, and a stuck one stuck. -/
theorem evolves_handle (request : PoolRequest) (pool : BufferPool DiskManager) (lock : PoolLock) :
    (pool.mutexes lock).Evolves ((handle request pool).2.mutexes lock) := by
  by_cases finds : FindsFrame request pool
  · exact (restores_handle request pool finds lock).evolves
  · cases request with
    | fetchPage pageId =>
      exact relates_fetchPage Mutex.allowsGuards_evolves pool pageId
        (fun _ => under_obtainFrame _) lock
    | newPage =>
      exact relates_newPage Mutex.allowsGuards_evolves pool (under_obtainFrame _) lock
    | _ => exact absurd trivial finds

/-- A request that needs a frame and finds none null gets stuck in `Victim`. -/
theorem stuck_of_not_findsFrame {request : PoolRequest} {pool : BufferPool DiskManager}
    (atRest : AtRest pool.mutexes) (full : ¬ FindsFrame request pool) :
    (handle request pool).2.replacer.latch = .stuck := by
  have free : pool.replacer.latch = .unlocked := atRest .replacer
  have obtained : ∀ noFrame : pool.findFree = none,
      (obtainFrame { pool with latch := pool.latch.lock }).2.replacer.latch = .stuck :=
    fun noFrame => obtainFrame_stuck noFrame free
  cases request with
  | fetchPage pageId =>
    simp only [FindsFrame, not_or, not_not] at full
    have stuck := obtained full.2
    simp only [handle, fetchPage, lockGuard, Guarded.setMutex, Guarded.mutex, full.1]
    split
    · next same =>
      rw [same] at stuck
      exact stuck
    · next same =>
      rw [same] at stuck
      exact (LayeredClock.restores_pin _ _).stuck stuck
  | newPage =>
    simp only [FindsFrame, not_not] at full
    have stuck := obtained full
    simp only [handle, newPage, lockGuard, Guarded.setMutex, Guarded.mutex]
    split
    · next same =>
      rw [same] at stuck
      exact stuck
    · next same =>
      rw [same] at stuck
      exact (LayeredClock.restores_pin _ _).stuck stuck
  | _ => exact absurd trivial full

/-- No latch of a new pool is held. -/
theorem atRest_new (poolSize : Nat) (file : Option File) :
    AtRest (BufferPool.new poolSize (DiskManager.new file)).mutexes := by
  intro lock
  cases lock <;> rfl

instance (mutexes : PoolLock → Mutex) : Decidable (IsStuck mutexes) :=
  decidable_of_iff (mutexes .pool = .stuck ∨ mutexes .replacer = .stuck ∨ mutexes .disk = .stuck)
    ⟨fun stuck => stuck.elim (⟨_, ·⟩) fun stuck => stuck.elim (⟨_, ·⟩) (⟨_, ·⟩), fun ⟨lock, stuck⟩ =>
      match lock with
      | .pool => .inl stuck
      | .replacer => .inr (.inl stuck)
      | .disk => .inr (.inr stuck)⟩

/-- From latches at rest, a request gets stuck unless it meets the condition. -/
theorem not_isStuck_handle_iff {pool : BufferPool DiskManager} (request : PoolRequest)
    (atRest : AtRest pool.mutexes) :
    ¬ IsStuck (handle request pool).2.mutexes ↔ FindsFrame request pool := by
  constructor
  · intro notStuck
    by_contra full
    exact notStuck ⟨.replacer, stuck_of_not_findsFrame atRest full⟩
  · intro finds
    exact (atRest.restores (restores_handle request pool finds)).not_isStuck

/-- A program of requests that meet the condition releases what it takes. -/
theorem restores_run {Result : Type} {program : PoolProgram Result} {pool : BufferPool DiskManager}
    (each : Client.Each handle FindsFrame program pool) (lock : PoolLock) :
    (pool.mutexes lock).Restores ((PoolProgram.run program pool).2.mutexes lock) :=
  each.run_keeps (fun before after => (before.mutexes lock).Restores (after.mutexes lock))
    (fun _ => .refl _) Mutex.Restores.trans
    (fun request pool finds => restores_handle request pool finds lock)

/-- A latch that a program leaves stuck stays stuck. -/
theorem evolves_run {Result : Type} (program : PoolProgram Result) (pool : BufferPool DiskManager)
    (lock : PoolLock) :
    (pool.mutexes lock).Evolves ((PoolProgram.run program pool).2.mutexes lock) :=
  Client.run_keeps (fun before after => (before.mutexes lock).Evolves (after.mutexes lock))
    (fun _ => (Mutex.Restores.refl _).evolves) Mutex.Evolves.trans
    (fun request pool => evolves_handle request pool lock) program pool

/-- From latches at rest, a program gets stuck unless all its requests meet the condition. -/
theorem not_isStuck_run_iff {Result : Type} (program : PoolProgram Result)
    {pool : BufferPool DiskManager} (atRest : AtRest pool.mutexes) :
    ¬ IsStuck (PoolProgram.run program pool).2.mutexes ↔
      Client.Each handle FindsFrame program pool := by
  refine Client.run_iff_each (fun pool : BufferPool DiskManager => AtRest pool.mutexes)
    (fun pool => ¬ IsStuck pool.mutexes) ?_ ?_ ?_ ?_ program atRest
  · exact fun request pool atRest => not_isStuck_handle_iff request atRest
  · exact fun request pool atRest => atRest.evolves (evolves_handle request pool)
  · intro program pool stuck notStuck
    exact stuck fun isStuck => notStuck (isStuck.evolves (evolves_run program pool))
  · exact fun pool atRest => atRest.not_isStuck

/-- A program that did not get stuck found its frames and left the latches free. -/
theorem returned {Result : Type} (program : PoolProgram Result) {pool : BufferPool DiskManager}
    (atRest : AtRest pool.mutexes)
    (notStuck : ¬ IsStuck (PoolProgram.run program pool).2.mutexes) :
    Client.Each handle FindsFrame program pool ∧
      AtRest (PoolProgram.run program pool).2.mutexes :=
  ⟨(not_isStuck_run_iff program atRest).mp notStuck,
    atRest.evolves (evolves_run program pool) notStuck⟩

end BufferPool

end MiniDB.Buffer
