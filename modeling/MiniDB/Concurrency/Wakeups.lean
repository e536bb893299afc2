import MiniDB.Concurrency.RequestFlow
import Mathlib.Algebra.BigOperators.Group.Finset.Piecewise
import Mathlib.Data.Fintype.Basic

/-!
# No request waits for a notification that is gone

`EnqueueRequest` notifies one sleeper for the request it has pushed, after it released
the mutex. A worker tests the queue and falls asleep under the mutex, and every worker
tests it again before it sleeps. So as long as the server is not told to stop, each
queued request has a worker on its way to the queue or a caller about to notify one,
unless no worker sleeps at all.
-/

namespace MiniDB.Concurrency

open Foundation

/-- The places of a worker between the constructor and the destructor of its guard. -/
def WorkerState.holdsLock : WorkerState → Bool
  | .testing | .parking | .stopTest | .taking | .unlocking _ => true
  | .loopTest | .locking | .asleep | .waking | .serving _ | .exited => false

/-- The places of a caller between the constructor and the destructor of its guard. -/
def CallerState.holdsLock : CallerState → Bool
  | .pushing _ | .unlocking => true
  | .idle | .locking _ | .notifying | .returned => false

/-- The worker was notified or found work, and has yet to look at the front of the queue. -/
def WorkerState.isAlert : WorkerState → Bool
  | .waking | .testing | .stopTest | .taking => true
  | .loopTest | .locking | .parking | .asleep | .unlocking _ | .serving _ | .exited => false

/-- The caller has pushed its request and has yet to notify. -/
def CallerState.owesNotify : CallerState → Bool
  | .unlocking | .notifying => true
  | .idle | .locking _ | .pushing _ | .returned => false

namespace ServerManager

variable {poolSize : Nat} {server after : ServerManager poolSize}

/-- The thread is between the constructor and the destructor of a guard on the mutex. -/
def holdsLock (server : ServerManager poolSize) : Thread poolSize → Bool
  | .worker worker => (server.workers worker).holdsLock
  | .caller caller => (server.callers caller).holdsLock

/-- A thread is inside a guard exactly when it owns the mutex, so at most one is. -/
def Exclusive (server : ServerManager poolSize) : Prop :=
  ∀ thread, server.holdsLock thread = true ↔ server.queueMutex = some thread

/-- The workers that are on their way to the queue. -/
def alertWorkers (server : ServerManager poolSize) : Finset (Fin poolSize) :=
  Finset.univ.filter fun worker => (server.workers worker).isAlert = true

/-- While a worker sleeps, each queued request has a worker on its way to the queue or a
caller that is about to notify one. -/
def Attended (server : ServerManager poolSize) : Prop :=
  server.shouldStop = false → (∃ worker, server.workers worker = .asleep) →
    ∃ notifiers : Finset Nat,
      (∀ caller ∈ notifiers, (server.callers caller).owesNotify = true) ∧
      server.requestQueue.length ≤ server.alertWorkers.card + notifiers.card

/-! ## The mutex -/

/-- What one step does to the mutex and to the threads inside a guard. -/
inductive MovesLock (server after : ServerManager poolSize) : Prop where
  | keeps (mutex : after.queueMutex = server.queueMutex)
      (same : ∀ thread, after.holdsLock thread = server.holdsLock thread)
  | acquires (owner : Thread poolSize) (free : server.queueMutex = none)
      (owned : after.queueMutex = some owner) (inside : after.holdsLock owner = true)
      (others : ∀ thread, thread ≠ owner → after.holdsLock thread = server.holdsLock thread)
  | releases (owner : Thread poolSize) (inside : server.holdsLock owner = true)
      (free : after.queueMutex = none) (outside : after.holdsLock owner = false)
      (others : ∀ thread, thread ≠ owner → after.holdsLock thread = server.holdsLock thread)

/-- The mutex has one holder after the step too. -/
theorem MovesLock.exclusive (moves : server.MovesLock after) (exclusive : server.Exclusive) :
    after.Exclusive := by
  intro thread
  cases moves with
  | keeps mutex same => rw [same, mutex, exclusive thread]
  | acquires owner free owned inside others =>
    rw [owned, Option.some.injEq]
    by_cases isOwner : thread = owner
    · subst isOwner
      exact iff_of_true inside rfl
    · rw [others thread isOwner, exclusive thread, free]
      exact iff_of_false nofun (Ne.symm isOwner)
  | releases owner inside free outside others =>
    have owned := (exclusive owner).mp inside
    rw [free]
    by_cases isOwner : thread = owner
    · subst isOwner
      rw [outside]
      exact iff_of_false nofun nofun
    · rw [others thread isOwner, exclusive thread, owned, Option.some.injEq]
      exact iff_of_false (Ne.symm isOwner) nofun

/-- Only the threads that move can enter or leave a guard. -/
theorem holdsLock_of_worker {worker : Fin poolSize} {place : WorkerState}
    (workers : after.workers = Function.update server.workers worker place)
    (callers : after.callers = server.callers) :
    after.holdsLock (.worker worker) = place.holdsLock ∧
      ∀ thread, thread ≠ .worker worker → after.holdsLock thread = server.holdsLock thread := by
  refine ⟨by simp [holdsLock, workers], fun thread different => ?_⟩
  cases thread with
  | worker other =>
    have notMoved : other ≠ worker := fun same => different (congrArg Thread.worker same)
    simp [holdsLock, workers, notMoved]
  | caller other => simp [holdsLock, callers]

/-- A caller that moves changes only its own hold of the mutex. -/
theorem holdsLock_of_caller {caller : Nat} {place : CallerState}
    (workers : after.workers = server.workers)
    (callers : after.callers = Function.update server.callers caller place) :
    after.holdsLock (.caller caller) = place.holdsLock ∧
      ∀ thread, thread ≠ .caller caller → after.holdsLock thread = server.holdsLock thread := by
  refine ⟨by simp [holdsLock, callers], fun thread different => ?_⟩
  cases thread with
  | worker other => simp [holdsLock, workers]
  | caller other =>
    have notMoved : other ≠ caller := fun same => different (congrArg Thread.caller same)
    simp [holdsLock, callers, notMoved]

/-- A thread that moves to a place on the same side of its guard. -/
theorem MovesLock.stays {moved : Thread poolSize} {holds : Bool}
    (place : after.holdsLock moved = holds ∧
      ∀ thread, thread ≠ moved → after.holdsLock thread = server.holdsLock thread)
    (same : holds = server.holdsLock moved) (mutex : after.queueMutex = server.queueMutex) :
    server.MovesLock after := by
  refine .keeps mutex fun thread => ?_
  by_cases isMoved : thread = moved
  · rw [isMoved, place.1, same]
  · exact place.2 thread isMoved

/-- A thread that moves into its guard, and one that moves out of it. -/
theorem MovesLock.enters {moved : Thread poolSize} {holds : Bool}
    (place : after.holdsLock moved = holds ∧
      ∀ thread, thread ≠ moved → after.holdsLock thread = server.holdsLock thread)
    (inside : holds = true) (free : server.queueMutex = none)
    (owned : after.queueMutex = some moved) : server.MovesLock after :=
  .acquires moved free owned (place.1.trans inside) place.2

/-- A thread that held the mutex gives it up. -/
theorem MovesLock.leaves {moved : Thread poolSize} {holds : Bool}
    (place : after.holdsLock moved = holds ∧
      ∀ thread, thread ≠ moved → after.holdsLock thread = server.holdsLock thread)
    (outside : holds = false) (inside : server.holdsLock moved = true)
    (free : after.queueMutex = none) : server.MovesLock after :=
  .releases moved inside free (place.1.trans outside) place.2

/-- Threads that are woken up stay outside of their guards. -/
theorem MovesLock.wakes (mutex : after.queueMutex = server.queueMutex)
    (callers : ∀ caller, (after.callers caller).holdsLock = (server.callers caller).holdsLock)
    (workers : ∀ worker, after.workers worker = server.workers worker ∨
      server.workers worker = .asleep ∧ after.workers worker = .waking) :
    server.MovesLock after := by
  refine .keeps mutex fun thread => ?_
  cases thread with
  | worker worker =>
    change (after.workers worker).holdsLock = (server.workers worker).holdsLock
    rcases workers worker with same | ⟨asleep, waking⟩
    · rw [same]
    · rw [asleep, waking]
      rfl
  | caller caller => exact callers caller

/-- A worker takes the mutex when it is free, or gives up its own. -/
theorem movesLock_workerStep (server : ServerManager poolSize) (worker : Fin poolSize) :
    server.MovesLock (server.workerStep worker) := by
  have places : ∀ {place}, server.workers worker = place →
      server.holdsLock (.worker worker) = place.holdsLock := by
    rintro place rfl
    rfl
  cases place : server.workers worker with
  | locking | waking =>
    cases mutex : server.queueMutex with
    | some owner =>
      simp only [workerStep, place, mutex]
      exact .keeps rfl fun _ => rfl
    | none =>
      simp only [workerStep, place, mutex]
      exact .enters (holdsLock_of_worker rfl rfl) rfl mutex rfl
  | parking | unlocking next =>
    simp only [workerStep, place]
    refine .leaves (holdsLock_of_worker rfl rfl) ?_ (places place) rfl
    first | rfl | (cases next <;> rfl)
  | taking =>
    cases queue : server.requestQueue <;> simp only [workerStep, place, queue] <;>
      exact .stays (holdsLock_of_worker rfl rfl) (places place).symm rfl
  | loopTest | testing | stopTest =>
    simp only [workerStep, place]
    split <;> exact .stays (holdsLock_of_worker rfl rfl) (places place).symm rfl
  | serving request =>
    simp only [workerStep, place]
    exact .stays (holdsLock_of_worker rfl rfl) (places place).symm rfl
  | asleep | exited =>
    simp only [workerStep, place]
    exact .keeps rfl fun _ => rfl

/-- So does a caller of `EnqueueRequest`. -/
theorem movesLock_enqueueStep (server : ServerManager poolSize) (caller : Nat) :
    server.MovesLock (server.enqueueStep caller) := by
  have places : ∀ {place}, server.callers caller = place →
      server.holdsLock (.caller caller) = place.holdsLock := by
    rintro place rfl
    rfl
  cases place : server.callers caller with
  | locking request =>
    cases mutex : server.queueMutex with
    | some owner =>
      simp only [enqueueStep, place, mutex]
      exact .keeps rfl fun _ => rfl
    | none =>
      simp only [enqueueStep, place, mutex]
      exact .enters (holdsLock_of_caller rfl rfl) rfl mutex rfl
  | pushing request =>
    simp only [enqueueStep, place]
    exact .stays (holdsLock_of_caller rfl rfl) (places place).symm rfl
  | unlocking =>
    simp only [enqueueStep, place]
    exact .leaves (holdsLock_of_caller rfl rfl) rfl (places place) rfl
  | idle | notifying | returned =>
    simp only [enqueueStep, place]
    exact .keeps rfl fun _ => rfl

/-- So does every step. -/
theorem movesLock_step (server : ServerManager poolSize) (action : Action poolSize) :
    server.MovesLock (server.step action) := by
  cases action with
  | worker worker => exact movesLock_workerStep server worker
  | enqueue caller => exact movesLock_enqueueStep server caller
  | call caller request =>
    unfold step
    dsimp only
    split
    · next idle =>
      have outside : CallerState.idle.holdsLock = server.holdsLock (.caller caller) := by
        simp only [holdsLock, idle]
      cases request <;> exact .stays (holdsLock_of_caller rfl rfl) outside rfl
    · exact .keeps rfl fun _ => rfl
  | notifyOne caller woken =>
    unfold step
    dsimp only
    split
    · next notifying =>
      cases notified : server.notifyOne woken with
      | none => exact .keeps rfl fun _ => rfl
      | some after =>
        have mutex := (notifyOne_leaves notified).2.1
        refine .wakes mutex (fun other => ?_)
          fun worker => workers_notifyOne notified worker
        by_cases same : other = caller
        · subst same
          rw [callers_moveCaller_self, notifying]
          rfl
        · rw [callers_moveCaller_of_ne same, (notifyOne_leaves notified).2.2]
    · exact .keeps rfl fun _ => rfl
  | stop =>
    exact .wakes stopStep_leaves.2.1 (fun caller => congrArg (fun callers =>
      (callers caller).holdsLock) stopStep_leaves.2.2) workers_stopStep

/-! ## The queue and the sleepers -/

/-- A worker moves from one place to another, and the number of alert workers with it. -/
theorem card_alertWorkers {worker : Fin poolSize} {place : WorkerState}
    (workers : after.workers = Function.update server.workers worker place) :
    after.alertWorkers.card + (if (server.workers worker).isAlert then 1 else 0) =
      server.alertWorkers.card + if place.isAlert then 1 else 0 := by
  have others : ∀ other ∈ Finset.univ.erase worker,
      (if (after.workers other).isAlert = true then 1 else 0) =
        if (server.workers other).isAlert = true then 1 else 0 := by
    intro other member
    rw [workers, Function.update_of_ne (Finset.ne_of_mem_erase member)]
  unfold alertWorkers
  rw [Finset.card_filter, Finset.card_filter,
    ← Finset.add_sum_erase _ _ (Finset.mem_univ worker), Finset.sum_congr rfl others,
    ← Finset.add_sum_erase Finset.univ
      (fun other => if (server.workers other).isAlert = true then 1 else 0)
      (Finset.mem_univ worker), workers, Function.update_self]
  omega

/-- The predicate of the wait fails on an empty queue only. -/
theorem empty_of_no_work (idle : server.hasWork = false) : server.requestQueue = [] := by
  simp only [hasWork, Bool.or_eq_false_iff, Bool.not_eq_false'] at idle
  exact List.isEmpty_iff.mp idle.2

/-- An empty queue needs nobody. -/
theorem Attended.of_empty (empty : server.requestQueue = []) : server.Attended := by
  intro _ _
  refine ⟨∅, fun caller member => absurd member (Finset.notMem_empty caller), ?_⟩
  rw [empty]
  exact Nat.zero_le _

/-- Workers that are awake look at the queue. -/
theorem Attended.of_awake (awake : ∀ worker, server.workers worker ≠ .asleep) :
    server.Attended := by
  rintro _ ⟨worker, asleep⟩
  exact absurd asleep (awake worker)

/-- A step of a worker that puts nobody to sleep and takes no more requests than it
settles. -/
theorem Attended.moveWorker {worker : Fin poolSize} {place : WorkerState}
    (attended : server.Attended) (flag : after.shouldStop = server.shouldStop)
    (workers : after.workers = Function.update server.workers worker place)
    (callers : after.callers = server.callers) (notAsleep : place ≠ .asleep)
    (balance : after.requestQueue.length + (if (server.workers worker).isAlert then 1 else 0) ≤
      server.requestQueue.length + if place.isAlert then 1 else 0) : after.Attended := by
  rintro running ⟨sleeper, asleep⟩
  have sleptBefore : server.workers sleeper = .asleep := by
    by_cases same : sleeper = worker
    · subst same
      rw [workers, Function.update_self] at asleep
      exact absurd asleep notAsleep
    · rwa [workers, Function.update_of_ne same] at asleep
  obtain ⟨notifiers, owe, enough⟩ := attended (flag.symm.trans running) ⟨sleeper, sleptBefore⟩
  have counted := card_alertWorkers workers
  exact ⟨notifiers, by rwa [callers], by omega⟩

/-- What holds in every state that is reached. -/
structure Watchful (server : ServerManager poolSize) : Prop where
  exclusive : server.Exclusive
  /-- A worker that is about to sleep has seen an empty queue. -/
  parked : ∀ worker, server.workers worker = .parking → server.requestQueue = []
  attended : server.Attended

/-- The state at the start. -/
theorem watchful_started (requests : List ClientRequest) :
    (started requests : ServerManager poolSize).Watchful where
  exclusive thread := by
    cases thread <;> exact iff_of_false nofun nofun
  parked worker parking := WorkerState.noConfusion parking
  attended := .of_awake fun worker => nofun

/-- Two threads inside a guard are one. -/
theorem Exclusive.eq (exclusive : server.Exclusive) {first second : Thread poolSize}
    (firstInside : server.holdsLock first = true) (secondInside : server.holdsLock second = true) :
    first = second :=
  Option.some.inj (((exclusive first).mp firstInside).symm.trans ((exclusive second).mp secondInside))

/-- A worker that goes to sleep has tested the queue under the mutex. -/
theorem empty_of_parking_workerStep {worker : Fin poolSize}
    (parking : (server.workerStep worker).workers worker = .parking) :
    (server.workerStep worker).requestQueue = [] := by
  cases place : server.workers worker with
  | testing =>
    simp only [workerStep, place] at parking ⊢
    cases work : server.hasWork with
    | true => simp [work] at parking
    | false => exact empty_of_no_work work
  | locking | waking => cases mutex : server.queueMutex <;> simp [workerStep, place, mutex] at parking
  | taking => cases queue : server.requestQueue <;> simp [workerStep, place, queue] at parking
  | unlocking next => cases next <;> simp [workerStep, place, afterUnlock] at parking
  | loopTest | stopTest =>
    simp only [workerStep, place, workers_moveWorker_self] at parking
    split at parking <;> cases parking
  | parking | asleep | serving request | exited => simp [workerStep, place] at parking

/-- No request is pushed while a worker goes to sleep. -/
theorem pushes_of_parking {worker : Fin poolSize} (exclusive : server.Exclusive)
    (parking : server.workers worker = .parking) (action : Action poolSize) :
    server.pushes action = [] := by
  cases action with
  | enqueue caller =>
    have workerInside : server.holdsLock (.worker worker) = true := by
      simp [holdsLock, parking, WorkerState.holdsLock]
    cases place : server.callers caller with
    | pushing request =>
      have callerInside : server.holdsLock (.caller caller) = true := by
        simp [holdsLock, place, CallerState.holdsLock]
      cases exclusive.eq workerInside callerInside
    | idle | locking request | unlocking | notifying | returned => simp [pushes, place]
  | worker _ | call _ _ | notifyOne _ _ | stop => rfl

/-- A worker begins to wait only while the queue is empty. -/
theorem parked_step (watchful : server.Watchful) (action : Action poolSize) (worker : Fin poolSize)
    (parking : (server.step action).workers worker = .parking) :
    (server.step action).requestQueue = [] := by
  by_cases own : action = .worker worker
  · subst own
    exact empty_of_parking_workerStep parking
  · have parkedBefore : server.workers worker = .parking := by
      rcases workers_step_of_ne own with same | ⟨-, woken⟩
      · exact same ▸ parking
      · rw [woken] at parking
        cases parking
    have balance := requestQueue_step server action
    rw [watchful.parked worker parkedBefore,
      pushes_of_parking watchful.exclusive parkedBefore] at balance
    exact (List.append_eq_nil_iff.mp balance.symm).2

/-! ## The sleepers -/

/-- A step of `EnqueueRequest` that adds no more requests than it comes to owe notifications. -/
theorem Attended.moveCaller {caller : Nat} {place : CallerState} (attended : server.Attended)
    (flag : after.shouldStop = server.shouldStop) (workers : after.workers = server.workers)
    (callers : after.callers = Function.update server.callers caller place)
    (balance : after.requestQueue.length +
        (if (server.callers caller).owesNotify then 1 else 0) ≤
      server.requestQueue.length + if place.owesNotify then 1 else 0) : after.Attended := by
  rintro running ⟨sleeper, asleep⟩
  obtain ⟨notifiers, owe, enough⟩ :=
    attended (flag.symm.trans running) ⟨sleeper, by rwa [← workers]⟩
  have alert : after.alertWorkers = server.alertWorkers := by rw [alertWorkers, alertWorkers, workers]
  have others : ∀ other ∈ notifiers, other ≠ caller → (after.callers other).owesNotify = true := by
    intro other member different
    rw [callers, Function.update_of_ne different]
    exact owe other member
  cases owes : place.owesNotify with
  | true =>
    refine ⟨insert caller notifiers, fun other member => ?_, ?_⟩
    · by_cases same : other = caller
      · rw [same, callers, Function.update_self, owes]
      · exact others other (Finset.mem_of_mem_insert_of_ne member same) same
    · rw [alert]
      by_cases owed : caller ∈ notifiers
      · rw [Finset.insert_eq_of_mem owed]
        simp only [owe caller owed, owes] at balance
        omega
      · rw [Finset.card_insert_of_notMem owed]
        simp only [owes, if_true] at balance
        omega
  | false =>
    refine ⟨notifiers.erase caller, fun other member => ?_, ?_⟩
    · exact others other (Finset.mem_of_mem_erase member) (Finset.ne_of_mem_erase member)
    · rw [alert]
      by_cases owed : caller ∈ notifiers
      · have card := Finset.card_erase_add_one owed
        simp only [owe caller owed, owes] at balance
        simp only [if_true, Bool.false_eq_true, if_false] at balance
        omega
      · rw [Finset.erase_eq_of_notMem owed]
        simp only [owes, Bool.false_eq_true, if_false] at balance
        omega

/-- The step of a worker leaves the queue attended. -/
theorem attended_workerStep (watchful : server.Watchful) (worker : Fin poolSize) :
    (server.workerStep worker).Attended := by
  have attended := watchful.attended
  cases place : server.workers worker with
  | locking | waking =>
    cases mutex : server.queueMutex <;> simp only [workerStep, place, mutex]
    · exact attended.moveWorker rfl rfl rfl (by simp) (by simp [place, WorkerState.isAlert])
    · exact attended
  | testing =>
    simp only [workerStep, place]
    cases work : server.hasWork with
    | true => exact attended.moveWorker rfl rfl rfl (by simp) (by simp [place, WorkerState.isAlert])
    | false => exact .of_empty (empty_of_no_work work)
  | parking =>
    simp only [workerStep, place]
    exact .of_empty (watchful.parked worker place)
  | stopTest =>
    simp only [workerStep, place]
    cases flag : server.shouldStop with
    | true => exact fun running => absurd (running.symm.trans flag) Bool.false_ne_true
    | false => exact attended.moveWorker rfl rfl rfl (by simp) (by simp [place, WorkerState.isAlert])
  | taking =>
    cases queue : server.requestQueue with
    | nil =>
      simp only [workerStep, place, queue]
      exact .of_empty queue
    | cons request rest =>
      simp only [workerStep, place, queue]
      exact attended.moveWorker rfl rfl rfl (by simp) (by simp [place, queue, WorkerState.isAlert])
  | loopTest =>
    simp only [workerStep, place]
    split <;> exact attended.moveWorker rfl rfl rfl (by simp) (by simp [place, WorkerState.isAlert])
  | unlocking next =>
    simp only [workerStep, place]
    cases next <;>
      exact attended.moveWorker rfl rfl rfl (by simp [afterUnlock])
        (by simp [place, WorkerState.isAlert, afterUnlock])
  | serving request =>
    simp only [workerStep, place]
    exact attended.moveWorker rfl rfl rfl (by simp) (by simp [place, WorkerState.isAlert])
  | asleep | exited =>
    simp only [workerStep, place]
    exact attended

/-- A push is followed by a notification. -/
theorem attended_enqueueStep (attended : server.Attended) (caller : Nat) :
    (server.enqueueStep caller).Attended := by
  cases place : server.callers caller with
  | locking request =>
    cases mutex : server.queueMutex <;> simp only [enqueueStep, place, mutex]
    · exact attended.moveCaller rfl rfl rfl (by simp [place, CallerState.owesNotify])
    · exact attended
  | pushing request =>
    simp only [enqueueStep, place]
    exact attended.moveCaller rfl rfl rfl (by simp [place, CallerState.owesNotify])
  | unlocking =>
    simp only [enqueueStep, place]
    exact attended.moveCaller rfl rfl rfl (by simp [place, CallerState.owesNotify])
  | idle | notifying | returned =>
    simp only [enqueueStep, place]
    exact attended

/-- A notification wakes a sleeper up for the request of its caller, or finds none. -/
theorem attended_notifyOne {caller : Nat} {woken : Option (Fin poolSize)}
    (attended : server.Attended) (notified : server.notifyOne woken = some after) :
    (after.moveCaller caller .returned).Attended := by
  cases woken with
  | none =>
    unfold notifyOne at notified
    dsimp only at notified
    split at notified
    · cases notified
    · next awake =>
      cases notified
      exact .of_awake fun worker asleep => awake ⟨worker, asleep⟩
  | some woken =>
    unfold notifyOne at notified
    dsimp only at notified
    split at notified
    · next slept =>
      cases notified
      rintro running -
      obtain ⟨notifiers, owe, enough⟩ := attended running ⟨woken, slept⟩
      refine ⟨notifiers.erase caller, fun other member => ?_, ?_⟩
      · rw [callers_moveCaller_of_ne (Finset.ne_of_mem_erase member)]
        exact owe other (Finset.mem_of_mem_erase member)
      · have counted := @card_alertWorkers _ server
          ((server.moveWorker woken .waking).moveCaller caller .returned) woken .waking rfl
        have few := Finset.pred_card_le_card_erase (s := notifiers) (a := caller)
        simp only [slept, WorkerState.isAlert, Bool.false_eq_true, if_false, if_true] at counted
        rw [requestQueue_moveCaller, requestQueue_moveWorker]
        omega
    · cases notified

/-- `StopServer` wakes all. -/
theorem attended_stopStep (attended : server.Attended) : server.stopStep.Attended := by
  cases place : server.stopper with
  | stopping =>
    simp only [stopStep, place]
    exact fun running => absurd running.symm Bool.false_ne_true
  | notifying =>
    simp only [stopStep, place]
    refine .of_awake fun worker => ?_
    unfold notifyAll
    dsimp only
    split
    · simp
    · assumption
  | joining joined =>
    simp only [stopStep, place]
    split
    · split <;> exact attended
    · exact attended
  | halting | returned =>
    simp only [stopStep, place]
    exact attended

/-- Every step leaves the queue attended. -/
theorem attended_step (watchful : server.Watchful) (action : Action poolSize) :
    (server.step action).Attended := by
  cases action with
  | worker worker => exact attended_workerStep watchful worker
  | enqueue caller => exact attended_enqueueStep watchful.attended caller
  | call caller request =>
    unfold step
    dsimp only
    split
    · next idle =>
      cases request <;>
        exact watchful.attended.moveCaller rfl rfl rfl (by simp [idle, CallerState.owesNotify])
    · exact watchful.attended
  | notifyOne caller woken =>
    unfold step
    dsimp only
    split
    · cases notified : server.notifyOne woken with
      | none => exact watchful.attended
      | some after => exact attended_notifyOne watchful.attended notified
    · exact watchful.attended
  | stop => exact attended_stopStep watchful.attended

/-- Every step keeps watch. -/
theorem watchful_step (server : ServerManager poolSize) (action : Action poolSize)
    (watchful : server.Watchful) : (server.step action).Watchful where
  exclusive := (movesLock_step server action).exclusive watchful.exclusive
  parked := parked_step watchful action
  attended := attended_step watchful action

/-- For every interleaving: at most one thread is inside a guard on the mutex, namely its
owner; and as long as the server is not told to stop and some worker sleeps, each queued
request has a worker that is awake for it or a caller that is about to notify one. -/
theorem no_lost_wakeups (requests : List ClientRequest) (actions : List (Action poolSize)) :
    Throughout step (fun server => server.Exclusive ∧ server.Attended)
      (started requests : ServerManager poolSize) actions := by
  exact throughout_of_invariant watchful_step
    (fun _ watchful => ⟨watchful.exclusive, watchful.attended⟩) (watchful_started requests) actions

end ServerManager

end MiniDB.Concurrency
