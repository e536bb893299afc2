import MiniDB.Concurrency.ServerManager

/-!
# Shutdown and sleeping workers

`StopServer` sets the flag and notifies without `queue_mutex_`, so both steps can
fall between a worker's test of the predicate and its sleep. Such a worker misses
the notification. `shutdown_wakes_iff` shows that nothing else goes wrong: after a
notification that finds no worker in that gap, every later test sees the flag.
-/

namespace MiniDB.Concurrency

open Foundation

namespace ServerManager

variable {poolSize : Nat} {server : ServerManager poolSize}

/-- Nobody sleeps after `StopServer` has notified. -/
def Awake (server : ServerManager poolSize) : Prop :=
  server.Notified → ∀ worker, server.workers worker ≠ .asleep

/-- A notification of `StopServer` finds no worker between its test and its sleep. -/
def Catches (server : ServerManager poolSize) : Action poolSize → Prop
  | .stop => server.stopper = .notifying → ∀ worker, server.workers worker ≠ .parking
  | _ => True

/-! ## What one step does to a worker -/

@[simp] theorem workers_moveCaller (caller : Nat) (place : CallerState) :
    (server.moveCaller caller place).workers = server.workers := rfl

@[simp] theorem workers_moveWorker_self (worker : Fin poolSize) (place : WorkerState) :
    (server.moveWorker worker place).workers worker = place := by
  simp [moveWorker]

/-- The other workers stay where they are. -/
theorem workers_moveWorker_of_ne {worker other : Fin poolSize} (different : other ≠ worker)
    (place : WorkerState) :
    (server.moveWorker worker place).workers other = server.workers other := by
  simp [moveWorker, different]

/-- A worker moves no other worker. -/
theorem workers_workerStep_of_ne {worker other : Fin poolSize} (different : other ≠ worker) :
    (server.workerStep worker).workers other = server.workers other := by
  unfold workerStep
  cases server.workers worker with
  | locking | waking =>
    cases server.queueMutex with
    | some owner => rfl
    | none => exact workers_moveWorker_of_ne different _
  | taking => cases server.requestQueue <;> exact workers_moveWorker_of_ne different _
  | asleep | exited => rfl
  | loopTest | testing | parking | stopTest | unlocking next | serving request =>
    exact workers_moveWorker_of_ne different _

/-- The worker that moves falls asleep only when it was about to. -/
theorem asleep_of_workerStep {worker : Fin poolSize}
    (asleep : (server.workerStep worker).workers worker = .asleep) :
    server.workers worker = .asleep ∨ server.workers worker = .parking := by
  unfold workerStep at asleep
  cases place : server.workers worker with
  | asleep => exact .inl rfl
  | parking => exact .inr rfl
  | locking | waking =>
    simp only [place] at asleep
    cases mutex : server.queueMutex <;> simp [mutex, place] at asleep
  | taking =>
    simp only [place] at asleep
    cases queue : server.requestQueue <;> simp [queue] at asleep
  | unlocking next => cases next <;> simp [place, afterUnlock] at asleep
  | loopTest | testing | stopTest =>
    simp only [place, workers_moveWorker_self] at asleep
    split at asleep <;> cases asleep
  | serving request => simp [place] at asleep
  | exited => simp [place] at asleep

/-- The worker that moves is about to sleep only after a test that did not see the flag. -/
theorem parking_of_workerStep {worker : Fin poolSize}
    (parking : (server.workerStep worker).workers worker = .parking) :
    server.shouldStop = false := by
  unfold workerStep at parking
  cases place : server.workers worker with
  | testing =>
    simp only [place, workers_moveWorker_self] at parking
    split at parking
    · cases parking
    · next noWork =>
      unfold hasWork at noWork
      rw [Bool.not_eq_true, Bool.or_eq_false_iff] at noWork
      exact noWork.1
  | locking | waking =>
    simp only [place] at parking
    cases mutex : server.queueMutex <;> simp [mutex, place] at parking
  | taking =>
    simp only [place] at parking
    cases queue : server.requestQueue <;> simp [queue] at parking
  | unlocking next => cases next <;> simp [place, afterUnlock] at parking
  | loopTest | stopTest =>
    simp only [place, workers_moveWorker_self] at parking
    split at parking <;> cases parking
  | parking => simp [place] at parking
  | serving request => simp [place] at parking
  | asleep | exited => simp [place] at parking

/-- `EnqueueRequest` moves no worker before its notification. -/
theorem workers_enqueueStep (caller : Nat) :
    (server.enqueueStep caller).workers = server.workers := by
  unfold enqueueStep
  cases server.callers caller with
  | locking request => cases server.queueMutex <;> rfl
  | idle | pushing request | unlocking | notifying | returned => rfl

/-- A notification wakes one sleeper and moves nobody else. -/
theorem workers_notifyOne {woken : Option (Fin poolSize)} {after : ServerManager poolSize}
    (notified : server.notifyOne woken = some after) (worker : Fin poolSize) :
    after.workers worker = server.workers worker ∨
      server.workers worker = .asleep ∧ after.workers worker = .waking := by
  cases woken with
  | none =>
    unfold notifyOne at notified
    dsimp only at notified
    split at notified
    · cases notified
    · cases notified
      exact .inl rfl
  | some sleeper =>
    unfold notifyOne at notified
    dsimp only at notified
    split at notified
    · next asleep =>
      cases notified
      by_cases same : worker = sleeper
      · subst same
        exact .inr ⟨asleep, by simp⟩
      · exact .inl (workers_moveWorker_of_ne same _)
    · cases notified

/-- `StopServer` wakes sleepers and moves nobody else. -/
theorem workers_stopStep (worker : Fin poolSize) :
    server.stopStep.workers worker = server.workers worker ∨
      server.workers worker = .asleep ∧ server.stopStep.workers worker = .waking := by
  unfold stopStep
  cases server.stopper with
  | notifying =>
    by_cases asleep : server.workers worker = .asleep
    · exact .inr ⟨asleep, if_pos asleep⟩
    · exact .inl (if_neg asleep)
  | joining joined =>
    left
    dsimp only
    split
    · split <;> rfl
    · rfl
  | stopping | halting | returned => exact .inl rfl

/-- A step of another thread leaves a worker alone or wakes it up. -/
theorem workers_step_of_ne {action : Action poolSize} {worker : Fin poolSize}
    (other : action ≠ .worker worker) :
    (server.step action).workers worker = server.workers worker ∨
      server.workers worker = .asleep ∧ (server.step action).workers worker = .waking := by
  cases action with
  | worker moved =>
    exact .inl (workers_workerStep_of_ne fun same => other (congrArg Action.worker same.symm))
  | call caller request =>
    left
    unfold step
    cases request <;> dsimp only <;> split <;> rfl
  | enqueue caller => exact .inl (congrFun (workers_enqueueStep caller) worker)
  | notifyOne caller woken =>
    unfold step
    dsimp only
    split
    · cases notified : server.notifyOne woken with
      | none => exact .inl rfl
      | some after => exact workers_notifyOne notified worker
    · exact .inl rfl
  | stop => exact workers_stopStep worker

/-- A worker that sleeps after a step slept before it, or was about to. -/
theorem asleep_of_step {action : Action poolSize} {worker : Fin poolSize}
    (asleep : (server.step action).workers worker = .asleep) :
    server.workers worker = .asleep ∨ server.workers worker = .parking := by
  by_cases own : action = .worker worker
  · subst own
    exact asleep_of_workerStep asleep
  · rcases workers_step_of_ne own with same | ⟨-, woken⟩
    · exact .inl (same ▸ asleep)
    · rw [woken] at asleep
      cases asleep

/-- A worker that is about to sleep after the flag is set was so before. -/
theorem parking_of_step {action : Action poolSize} {worker : Fin poolSize}
    (parking : (server.step action).workers worker = .parking) :
    server.workers worker = .parking ∨ server.shouldStop = false := by
  by_cases own : action = .worker worker
  · subst own
    exact .inr (parking_of_workerStep parking)
  · rcases workers_step_of_ne own with same | ⟨-, woken⟩
    · exact .inl (same ▸ parking)
    · rw [woken] at parking
      cases parking

/-! ## What one step does to `StopServer` -/

/-- A worker changes neither the flag nor the place of the stopper. -/
theorem stopper_workerStep (worker : Fin poolSize) :
    (server.workerStep worker).shouldStop = server.shouldStop ∧
      (server.workerStep worker).stopper = server.stopper := by
  unfold workerStep
  cases server.workers worker with
  | locking | waking => cases server.queueMutex <;> exact ⟨rfl, rfl⟩
  | taking => cases server.requestQueue <;> exact ⟨rfl, rfl⟩
  | loopTest | testing | parking | asleep | stopTest | unlocking next | serving request | exited =>
    exact ⟨rfl, rfl⟩

/-- A caller does not stop the server. -/
theorem stopper_enqueueStep (caller : Nat) :
    (server.enqueueStep caller).shouldStop = server.shouldStop ∧
      (server.enqueueStep caller).stopper = server.stopper := by
  unfold enqueueStep
  cases server.callers caller with
  | locking request => cases server.queueMutex <;> exact ⟨rfl, rfl⟩
  | idle | pushing request | unlocking | notifying | returned => exact ⟨rfl, rfl⟩

/-- Nor does a notification. -/
theorem stopper_notifyOne {woken : Option (Fin poolSize)} {after : ServerManager poolSize}
    (notified : server.notifyOne woken = some after) :
    after.shouldStop = server.shouldStop ∧ after.stopper = server.stopper := by
  unfold notifyOne at notified
  cases woken <;> dsimp only at notified <;> split at notified <;> cases notified <;>
    exact ⟨rfl, rfl⟩

/-- Only the stopper changes the flag and its own place. -/
theorem stopper_step_of_ne {action : Action poolSize} (other : action ≠ .stop) :
    (server.step action).shouldStop = server.shouldStop ∧
      (server.step action).stopper = server.stopper := by
  cases action with
  | worker worker => exact stopper_workerStep worker
  | call caller request =>
    unfold step
    cases request <;> dsimp only <;> split <;> exact ⟨rfl, rfl⟩
  | enqueue caller => exact stopper_enqueueStep caller
  | notifyOne caller woken =>
    unfold step
    dsimp only
    split
    · cases notified : server.notifyOne woken with
      | none => exact ⟨rfl, rfl⟩
      | some after =>
        obtain ⟨flagEq, stopperEq⟩ := stopper_notifyOne notified
        exact ⟨flagEq, stopperEq⟩
    · exact ⟨rfl, rfl⟩
  | stop => exact absurd rfl other

/-- A notification is not taken back. -/
theorem notified_step (notified : server.Notified) (action : Action poolSize) :
    (server.step action).Notified := by
  by_cases isStop : action = .stop
  · subst isStop
    unfold Notified at notified ⊢
    unfold step stopStep
    cases place : server.stopper with
    | stopping | halting | notifying =>
      rw [place] at notified
      cases notified
    | joining joined =>
      dsimp only
      split
      · split
        · rfl
        · rwa [place] at notified ⊢
      · rfl
    | returned => rwa [place] at notified ⊢
  · unfold Notified
    rw [(stopper_step_of_ne isStop).2]
    exact notified

/-! ## Runs whose notification catches everyone -/

/-- The flag is set before the notification, and after it nobody is asleep or about
to be. -/
structure Settles (server : ServerManager poolSize) : Prop where
  flagged : server.stopper ≠ .stopping → server.shouldStop = true
  quiet : server.Notified → ∀ worker,
    server.workers worker ≠ .asleep ∧ server.workers worker ≠ .parking

/-- The state at the start. -/
theorem settles_started (requests : List ClientRequest) :
    (started requests : ServerManager poolSize).Settles where
  flagged := fun past => absurd rfl past
  quiet := nofun

/-- The step of the stopper; the notification needs that it catches every worker. -/
theorem settles_stopStep (settles : server.Settles) (catches : server.Catches .stop) :
    server.stopStep.Settles := by
  cases place : server.stopper with
  | stopping =>
    simp only [stopStep, place]
    exact ⟨fun _ => rfl, nofun⟩
  | halting =>
    simp only [stopStep, place]
    exact ⟨fun _ => settles.flagged (by simp [place]), nofun⟩
  | notifying =>
    simp only [stopStep, place]
    refine ⟨fun _ => settles.flagged (by simp [place]), fun _ worker => ?_⟩
    by_cases asleep : server.workers worker = .asleep
    · simp [notifyAll, asleep]
    · simpa [notifyAll, asleep] using catches place worker
  | joining joined =>
    have flagged : server.shouldStop = true := settles.flagged (by simp [place])
    have quiet := settles.quiet (by simp [Notified, place, StopperState.hasNotified])
    simp only [stopStep, place]
    split
    · split
      · exact ⟨fun _ => flagged, fun _ => quiet⟩
      · exact settles
    · exact ⟨fun _ => flagged, fun _ => quiet⟩
  | returned =>
    simp only [stopStep, place]
    exact settles

/-- A step that catches every worker keeps the shutdown on its way. -/
theorem settles_step {action : Action poolSize} (settles : server.Settles)
    (catches : server.Catches action) : (server.step action).Settles := by
  by_cases isStop : action = .stop
  · subst isStop
    exact settles_stopStep settles catches
  · obtain ⟨flagEq, stopperEq⟩ := @stopper_step_of_ne _ server _ isStop
    refine ⟨fun past => ?_, fun notified worker => ?_⟩
    · rw [stopperEq] at past
      rw [flagEq]
      exact settles.flagged past
    · have notifiedBefore : server.Notified := by
        unfold Notified at notified ⊢
        rwa [stopperEq] at notified
      have flagged : server.shouldStop = true := by
        refine settles.flagged fun atStart => ?_
        rw [Notified, atStart] at notifiedBefore
        cases notifiedBefore
      obtain ⟨notAsleep, notParking⟩ := settles.quiet notifiedBefore worker
      constructor
      · intro asleep
        exact (asleep_of_step asleep).elim notAsleep notParking
      · intro parking
        rcases parking_of_step parking with before | unseen
        · exact notParking before
        · rw [flagged] at unseen
          cases unseen

/-! ## A missed notification -/

/-- A worker that is about to sleep when the notification is out falls asleep in the
run or at its next step. -/
theorem not_awake_of_parking {worker : Fin poolSize} (notified : server.Notified)
    (parking : server.workers worker = .parking) {actions : List (Action poolSize)}
    (awake : Throughout step Awake server actions)
    (next : Awake (step (run step server actions) (.worker worker))) : False := by
  have sleeps : ∀ {before : ServerManager poolSize}, before.Notified →
      before.workers worker = .parking → ¬ Awake (before.step (.worker worker)) := by
    intro before notifiedBefore parkingBefore awakeAfter
    refine awakeAfter (notified_step notifiedBefore _) worker ?_
    simp [step, workerStep, parkingBefore]
  induction actions generalizing server with
  | nil => exact sleeps notified parking next
  | cons action actions ih =>
    by_cases own : action = .worker worker
    · subst own
      exact sleeps notified parking awake.2.first
    · refine ih (notified_step notified action) ?_ awake.2 next
      rcases workers_step_of_ne own with same | ⟨asleep, -⟩
      · exact same.trans parking
      · rw [parking] at asleep
        cases asleep

/-- Nobody is missed while all are awake. -/
theorem catches_of_awake {actions : List (Action poolSize)}
    (awake : Throughout step Awake server actions)
    (next : ∀ worker, Awake (step (run step server actions) (.worker worker))) :
    EachCall step Catches server actions := by
  induction actions generalizing server with
  | nil => trivial
  | cons action actions ih =>
    refine ⟨?_, ih awake.2 next⟩
    cases action with
    | worker _ | call _ _ | enqueue _ | notifyOne _ _ => trivial
    | stop =>
      intro place worker parking
      refine @not_awake_of_parking _ _ worker ?_ ?_ _ awake.2 (next worker)
      · simp [Notified, step, stopStep, place, StopperState.hasNotified]
      · simp [step, stopStep, place, notifyAll, parking]

/-- For every interleaving of the workers, of `EnqueueRequest` calls and of one
`StopServer` call: nobody sleeps after the notification, in any state of the run and
after one more step of any worker, exactly when the notification finds no worker
between its test of the predicate and its sleep. -/
theorem shutdown_wakes_iff (requests : List ClientRequest) (actions : List (Action poolSize)) :
    (Throughout step Awake (started requests) actions ∧
      ∀ worker, Awake (step (run step (started requests) actions) (.worker worker))) ↔
    EachCall step Catches (started requests) actions := by
  constructor
  · rintro ⟨awake, next⟩
    exact catches_of_awake awake next
  · intro catches
    have settled : Throughout step Settles (started requests) actions :=
      catches.throughout (fun _ _ settles caught => settles_step settles caught)
        (fun _ settles => settles) (settles_started requests)
    have awake_of_settles : ∀ server : ServerManager poolSize, server.Settles → server.Awake :=
      fun server settles notified worker => (settles.quiet notified worker).1
    refine ⟨?_, fun worker => ?_⟩
    · exact catches.throughout (fun _ _ settles caught => settles_step settles caught)
        awake_of_settles (settles_started requests)
    · exact awake_of_settles _ (settles_step settled.last trivial)

/-- One worker tests the predicate, the server stops and notifies, and then the
worker falls asleep. -/
theorem sleeps_through_shutdown :
    ¬ Throughout step Awake (started [] : ServerManager 1)
      [.worker 0, .worker 0, .worker 0, .stop, .stop, .stop, .worker 0] := by
  intro awake
  exact awake.last (by decide) 0 (by decide)

end ServerManager

end MiniDB.Concurrency
