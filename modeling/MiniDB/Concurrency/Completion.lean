import MiniDB.Concurrency.Wakeups
import MiniDB.Foundation.Progress
import Mathlib.Algebra.Order.BigOperators.Group.Finset

/-!
# Every request is served

As long as the server is not told to stop and no new request comes, every step that a
thread can take brings the requests that are there closer to their end: a worker that finds
no work goes to sleep, and a push is followed by one notification. So however the threads
are scheduled, they come to rest, and at rest each request has been served.
-/

namespace MiniDB.Concurrency

open Foundation

/-- How many steps a worker takes at most until it sleeps, with no request to take. -/
def WorkerState.effort : WorkerState → Nat
  | .asleep | .exited => 0
  | .parking => 1
  | .taking => 5
  | .stopTest => 6
  | .testing => 7
  | .locking | .waking => 8
  | .loopTest => 9
  | .serving _ => 10
  | .unlocking _ => 11

/-- The steps of a caller and of the workers for its request. -/
def CallerState.effort : CallerState → Nat
  | .idle | .returned => 0
  | .notifying => 9
  | .unlocking => 10
  | .pushing _ => 18
  | .locking _ => 19

/-- Where a worker can be as long as the server is not told to stop. -/
def WorkerState.Working (requestQueue : List ClientRequest) : WorkerState → Prop
  | .stopTest | .taking => requestQueue ≠ []
  | .exited | .unlocking .exit | .unlocking .again => False
  | .loopTest | .locking | .testing | .parking | .asleep | .waking | .unlocking (.serve _)
  | .serving _ => True

/-- The call of `EnqueueRequest` has not begun or has returned. -/
def CallerState.AtRest (place : CallerState) : Prop := place = .idle ∨ place = .returned

namespace ServerManager

variable {poolSize : Nat} {server after : ServerManager poolSize}

/-- The steps that are left to the workers and to these callers. -/
def effort (callers : Finset Nat) (server : ServerManager poolSize) : Nat :=
  7 * server.requestQueue.length + (∑ worker, (server.workers worker).effort) +
    ∑ caller ∈ callers, (server.callers caller).effort

/-- The server was not told to stop, its workers work, and only these callers are in a call. -/
structure Busy (callers : Finset Nat) (server : ServerManager poolSize) : Prop where
  watchful : server.Watchful
  running : server.shouldStop = false
  working : ∀ worker, (server.workers worker).Working server.requestQueue
  others : ∀ caller, caller ∉ callers → (server.callers caller).AtRest

/-- A step of a worker, or of a call that has begun. -/
def Goes : Action poolSize → Prop
  | .worker _ | .enqueue _ | .notifyOne _ _ => True
  | .call _ _ | .stop => False

/-- The thread can take the step. -/
def Moves (server : ServerManager poolSize) (action : Action poolSize) : Prop :=
  Goes action ∧ server.step action ≠ server

/-- A sum changes with one of its terms. -/
theorem sum_effort {Index : Type} [DecidableEq Index] {indices : Finset Index} {index : Index}
    (member : index ∈ indices) (before now : Index → Nat)
    (others : ∀ other ∈ indices, other ≠ index → now other = before other) :
    (∑ other ∈ indices, now other) + before index =
      (∑ other ∈ indices, before other) + now index := by
  have rest : ∑ other ∈ indices.erase index, now other =
      ∑ other ∈ indices.erase index, before other :=
    Finset.sum_congr rfl fun other inRest =>
      others other (Finset.mem_of_mem_erase inRest) (Finset.ne_of_mem_erase inRest)
  rw [← Finset.add_sum_erase _ _ member, ← Finset.add_sum_erase _ before member, rest]
  omega

/-- The effort of one worker changes the sum by its own change. -/
theorem sum_workers {worker : Fin poolSize} {place : WorkerState}
    (workers : after.workers = Function.update server.workers worker place) :
    (∑ other, (after.workers other).effort) + (server.workers worker).effort =
      (∑ other, (server.workers other).effort) + place.effort := by
  have here : (after.workers worker).effort = place.effort := by
    rw [workers, Function.update_self]
  rw [← here]
  refine sum_effort (Finset.mem_univ worker) (fun other => (server.workers other).effort)
    (fun other => (after.workers other).effort) fun other _ different => ?_
  rw [workers, Function.update_of_ne different]

/-- So does that of one caller. -/
theorem sum_callers {callers : Finset Nat} {caller : Nat} (member : caller ∈ callers)
    {place : CallerState} (moved : after.callers = Function.update server.callers caller place) :
    (∑ other ∈ callers, (after.callers other).effort) + (server.callers caller).effort =
      (∑ other ∈ callers, (server.callers other).effort) + place.effort := by
  have here : (after.callers caller).effort = place.effort := by
    rw [moved, Function.update_self]
  rw [← here]
  refine sum_effort member (fun other => (server.callers other).effort)
    (fun other => (after.callers other).effort) fun other _ different => ?_
  rw [moved, Function.update_of_ne different]

/-! ## What a step does -/

variable {callers : Finset Nat}

/-- A worker without the mutex does not look at the queue. -/
theorem working_of_not_holdsLock {place : WorkerState} (outside : place.holdsLock = false)
    {requestQueue : List ClientRequest} (working : place.Working requestQueue)
    (other : List ClientRequest) : place.Working other := by
  cases place with
  | testing | parking | stopTest | taking | unlocking next => cases outside
  | exited => exact working
  | loopTest | locking | asleep | waking | serving request => trivial

/-- A worker stays where it is, or goes on with less left to do. -/
theorem workerStep_cases (busy : server.Busy callers) (worker : Fin poolSize) :
    server.workerStep worker = server ∨ ∃ queueMutex requestQueue place,
      server.workerStep worker =
          moveWorker { server with queueMutex, requestQueue } worker place ∧
        place.Working requestQueue ∧
        7 * requestQueue.length + place.effort <
          7 * server.requestQueue.length + (server.workers worker).effort ∧
        (requestQueue = server.requestQueue ∨ (server.workers worker).holdsLock = true) := by
  have working := busy.working worker
  have goesOn : ¬ server.shouldStop = true := by
    rw [busy.running]
    exact Bool.false_ne_true
  cases place : server.workers worker with
  | loopTest =>
    refine .inr ⟨server.queueMutex, server.requestQueue, .locking, ?_, trivial, ?_, .inl rfl⟩
    · unfold workerStep
      rw [place]
      dsimp only
      rw [if_neg goesOn]
    · simp only [WorkerState.effort]; omega
  | locking | waking =>
    cases mutex : server.queueMutex with
    | some owner => exact .inl (by simp only [workerStep, place, mutex])
    | none =>
      refine .inr ⟨some (.worker worker), server.requestQueue, .testing, ?_, trivial, ?_, .inl rfl⟩
      · simp only [workerStep, place, mutex]
      · simp only [WorkerState.effort]; omega
  | testing =>
    cases work : server.hasWork with
    | true =>
      refine .inr ⟨server.queueMutex, server.requestQueue, .stopTest, ?_, ?_, ?_, .inl rfl⟩
      · simp only [workerStep, place, work, if_true]
      · intro empty
        simp [hasWork, busy.running, empty] at work
      · simp only [WorkerState.effort]; omega
    | false =>
      refine .inr ⟨server.queueMutex, server.requestQueue, .parking, ?_, trivial, ?_, .inl rfl⟩
      · simp only [workerStep, place, work, Bool.false_eq_true, if_false]
      · simp only [WorkerState.effort]; omega
  | parking =>
    refine .inr ⟨none, server.requestQueue, .asleep, ?_, trivial, ?_, .inl rfl⟩
    · simp only [workerStep, place]
    · simp only [WorkerState.effort]; omega
  | asleep => exact .inl (by simp only [workerStep, place])
  | stopTest =>
    rw [place] at working
    refine .inr ⟨server.queueMutex, server.requestQueue, .taking, ?_, working, ?_, .inl rfl⟩
    · unfold workerStep
      rw [place]
      dsimp only
      rw [if_neg goesOn]
    · simp only [WorkerState.effort]; omega
  | taking =>
    rw [place] at working
    obtain ⟨request, rest, isQueue⟩ := List.exists_cons_of_ne_nil working
    refine .inr ⟨server.queueMutex, rest, .unlocking (.serve request), ?_, trivial, ?_, .inr rfl⟩
    · simp only [workerStep, place, isQueue]
    · simp only [WorkerState.effort, isQueue, List.length_cons]; omega
  | unlocking next =>
    rw [place] at working
    cases next with
    | exit | again => exact absurd working id
    | serve request =>
      refine .inr ⟨none, server.requestQueue, .serving request, ?_, trivial, ?_, .inl rfl⟩
      · simp only [workerStep, place, afterUnlock]
      · simp only [WorkerState.effort]; omega
  | serving request =>
    refine .inr ⟨server.queueMutex, server.requestQueue, .loopTest, ?_, trivial, ?_, .inl rfl⟩
    · simp only [workerStep, place]
    · simp only [WorkerState.effort]; omega
  | exited =>
    rw [place] at working
    exact absurd working id

/-- So does a caller; a push adds its request to the queue. -/
theorem enqueueStep_cases (server : ServerManager poolSize) (caller : Nat) :
    server.enqueueStep caller = server ∨ ∃ queueMutex pushed place,
      server.enqueueStep caller =
          moveCaller { server with queueMutex, requestQueue := server.requestQueue ++ pushed }
            caller place ∧
        7 * pushed.length + place.effort < (server.callers caller).effort ∧
        ¬ (server.callers caller).AtRest := by
  cases place : server.callers caller with
  | locking request =>
    cases mutex : server.queueMutex with
    | some owner => exact .inl (by simp only [enqueueStep, place, mutex])
    | none =>
      refine .inr ⟨some (.caller caller), [], .pushing request, ?_, ?_, ?_⟩
      · simp only [enqueueStep, place, mutex, List.append_nil]
      · simp [CallerState.effort]
      · simp [CallerState.AtRest]
  | pushing request =>
    refine .inr ⟨server.queueMutex, [request], .unlocking, ?_, ?_, ?_⟩
    · simp only [enqueueStep, place]
    · simp [CallerState.effort]
    · simp [CallerState.AtRest]
  | unlocking =>
    refine .inr ⟨none, [], .notifying, ?_, ?_, ?_⟩
    · simp only [enqueueStep, place, List.append_nil]
    · simp [CallerState.effort]
    · simp [CallerState.AtRest]
  | idle | notifying | returned => exact .inl (by simp only [enqueueStep, place])

/-- A notification is not given, or the call returns and wakes at most one sleeper. -/
theorem notifyOne_cases (server : ServerManager poolSize) (caller : Nat)
    (woken : Option (Fin poolSize)) :
    server.step (.notifyOne caller woken) = server ∨ server.callers caller = .notifying ∧
      (server.step (.notifyOne caller woken) = server.moveCaller caller .returned ∨
        ∃ worker, server.workers worker = .asleep ∧
          server.step (.notifyOne caller woken) =
            (server.moveWorker worker .waking).moveCaller caller .returned) := by
  by_cases notifying : server.callers caller = .notifying
  · cases woken with
    | none =>
      by_cases asleep : ∃ worker, server.workers worker = .asleep
      · exact .inl (by simp [step, notifying, notifyOne, asleep])
      · refine .inr ⟨notifying, .inl ?_⟩
        simp only [step, if_pos notifying, notifyOne, if_neg asleep]
    | some worker =>
      by_cases asleep : server.workers worker = .asleep
      · refine .inr ⟨notifying, .inr ⟨worker, asleep, ?_⟩⟩
        simp only [step, if_pos notifying, notifyOne, if_pos asleep]
      · exact .inl (by simp [step, notifying, notifyOne, asleep])
  · exact .inl (by simp [step, notifying])

/-! ## Each step keeps the server busy and leaves less to do -/

/-- The other workers work on as one moves. -/
theorem working_moveWorker (busy : server.Busy callers) {worker : Fin poolSize}
    {place : WorkerState} {queueMutex : Option (Thread poolSize)}
    {requestQueue : List ClientRequest} (working : place.Working requestQueue)
    (taken : requestQueue = server.requestQueue ∨ (server.workers worker).holdsLock = true)
    (other : Fin poolSize) :
    ((moveWorker { server with queueMutex, requestQueue } worker place).workers other).Working
      requestQueue := by
  by_cases same : other = worker
  · subst same
    rw [workers_moveWorker_self]
    exact working
  · rw [workers_moveWorker_of_ne same]
    rcases taken with sameQueue | inside
    · exact sameQueue ▸ busy.working other
    · -- Only the worker that takes a request is inside a guard.
      have outside : (server.workers other).holdsLock = false := by
        refine Bool.eq_false_iff.mpr fun otherInside => same ?_
        have sameThread : Thread.worker other = Thread.worker worker :=
          busy.watchful.exclusive.eq otherInside inside
        exact Thread.worker.inj sameThread
      exact working_of_not_holdsLock outside (busy.working other) requestQueue

/-- A longer queue leaves them working. -/
theorem working_append {place : WorkerState} {requestQueue : List ClientRequest}
    (working : place.Working requestQueue) (pushed : List ClientRequest) :
    place.Working (requestQueue ++ pushed) := by
  cases place with
  | stopTest | taking => exact List.append_ne_nil_of_left_ne_nil working pushed
  | unlocking next => cases next <;> exact working
  | loopTest | locking | testing | parking | asleep | waking | serving _ | exited => exact working

/-- A caller whose place changes is one of those in a call. -/
theorem Busy.others_moveCaller (busy : server.Busy callers) {caller : Nat}
    (inCall : ¬ (server.callers caller).AtRest) (place : CallerState) {other : Nat}
    (notCalled : other ∉ callers) :
    (Function.update server.callers caller place other).AtRest := by
  have different : other ≠ caller := fun same => inCall (same ▸ busy.others other notCalled)
  rw [Function.update_of_ne different]
  exact busy.others other notCalled

theorem not_atRest_of_notifying {caller : Nat} (notifying : server.callers caller = .notifying) :
    ¬ (server.callers caller).AtRest := by
  simp [notifying, CallerState.AtRest]

/-- A step keeps the server busy. -/
theorem busy_step (server : ServerManager poolSize) (action : Action poolSize)
    (busy : server.Busy callers) (moves : server.Moves action) :
    (server.step action).Busy callers := by
  have watchful := watchful_step server action busy.watchful
  suffices kept : (server.step action).shouldStop = false ∧
      (∀ worker, ((server.step action).workers worker).Working (server.step action).requestQueue) ∧
        ∀ caller, caller ∉ callers → ((server.step action).callers caller).AtRest from
    ⟨watchful, kept.1, kept.2.1, kept.2.2⟩
  cases action with
  | call caller request => exact absurd moves.1 id
  | stop => exact absurd moves.1 id
  | worker worker =>
    obtain same | ⟨mutex, queue, place, isAfter, working, -, taken⟩ := workerStep_cases busy worker
    · exact absurd same moves.2
    · rw [show server.step (.worker worker) = _ from isAfter]
      exact ⟨busy.running, working_moveWorker busy working taken, busy.others⟩
  | enqueue caller =>
    obtain same | ⟨mutex, pushed, place, isAfter, -, inCall⟩ := enqueueStep_cases server caller
    · exact absurd same moves.2
    · rw [show server.step (.enqueue caller) = _ from isAfter]
      exact ⟨busy.running, fun worker => working_append (busy.working worker) pushed,
        fun other => busy.others_moveCaller inCall place⟩
  | notifyOne caller woken =>
    obtain same | ⟨notifying, isAfter | ⟨worker, asleep, isAfter⟩⟩ :=
      notifyOne_cases server caller woken
    · exact absurd same moves.2
    · rw [isAfter]
      exact ⟨busy.running, busy.working,
        fun other => busy.others_moveCaller (not_atRest_of_notifying notifying) .returned⟩
    · rw [isAfter]
      exact ⟨busy.running, working_moveWorker busy trivial (.inl rfl),
        fun other => busy.others_moveCaller (not_atRest_of_notifying notifying) .returned⟩

/-- A step that moves costs effort. -/
theorem effort_step (server : ServerManager poolSize) (action : Action poolSize)
    (busy : server.Busy callers) (moves : server.Moves action) :
    effort callers (server.step action) < effort callers server := by
  have inCallers : ∀ {caller : Nat}, ¬ (server.callers caller).AtRest → caller ∈ callers :=
    fun inCall => by_contra fun notCalled => inCall (busy.others _ notCalled)
  cases action with
  | call caller request => exact absurd moves.1 id
  | stop => exact absurd moves.1 id
  | worker worker =>
    obtain same | ⟨mutex, queue, place, isAfter, -, less, -⟩ := workerStep_cases busy worker
    · exact absurd same moves.2
    · have workers := @sum_workers _ server (server.step (.worker worker)) worker place
        (congrArg ServerManager.workers isAfter)
      have length : (server.step (.worker worker)).requestQueue = queue :=
        congrArg ServerManager.requestQueue isAfter
      have sameCallers : (server.step (.worker worker)).callers = server.callers :=
        callers_workerStep worker
      rw [effort, effort, length, sameCallers]
      omega
  | enqueue caller =>
    obtain same | ⟨mutex, pushed, place, isAfter, less, inCall⟩ := enqueueStep_cases server caller
    · exact absurd same moves.2
    · have moved := @sum_callers _ server (server.step (.enqueue caller)) callers caller
        (inCallers inCall) place (congrArg ServerManager.callers isAfter)
      have queue : (server.step (.enqueue caller)).requestQueue = server.requestQueue ++ pushed :=
        congrArg ServerManager.requestQueue isAfter
      have workers : (server.step (.enqueue caller)).workers = server.workers :=
        workers_enqueueStep caller
      rw [effort, effort, queue, workers, List.length_append]
      omega
  | notifyOne caller woken =>
    obtain same | ⟨notifying, isAfter⟩ := notifyOne_cases server caller woken
    · exact absurd same moves.2
    · have inCall := inCallers (not_atRest_of_notifying notifying)
      have nine : (server.callers caller).effort = 9 := by rw [notifying]; rfl
      have none : CallerState.returned.effort = 0 := rfl
      rcases isAfter with isAfter | ⟨worker, asleep, isAfter⟩
      · have moved := @sum_callers _ server _ callers caller inCall .returned
          (congrArg ServerManager.callers isAfter)
        rw [isAfter] at moved ⊢
        rw [effort, effort]
        change 7 * server.requestQueue.length + (∑ other, (server.workers other).effort) + _ < _
        omega
      · have moved := @sum_callers _ server _ callers caller inCall .returned
          (congrArg ServerManager.callers isAfter)
        have woke := @sum_workers _ server _ worker .waking
          (congrArg ServerManager.workers isAfter)
        have eight : WorkerState.waking.effort = 8 := rfl
        have zero : (server.workers worker).effort = 0 := by rw [asleep]; rfl
        rw [isAfter] at moved woke ⊢
        rw [effort, effort]
        change 7 * server.requestQueue.length + _ + _ < _
        omega

/-! ## At rest -/

/-- Where no thread can take a step, every worker sleeps and nothing is on its way. -/
structure Done (server : ServerManager poolSize) : Prop where
  asleep : ∀ worker, server.workers worker = .asleep
  empty : server.requestQueue = []
  atRest : ∀ caller, (server.callers caller).AtRest

/-- A worker that neither sleeps nor waits for the mutex can take its next step. -/
theorem moves_worker {worker : Fin poolSize} (awake : server.workers worker ≠ .asleep)
    (inLoop : server.workers worker ≠ .exited)
    (free : (server.workers worker).holdsLock = true ∨ server.queueMutex = none) :
    server.Moves (.worker worker) := by
  suffices leaves : (server.workerStep worker).workers worker ≠ server.workers worker from
    ⟨trivial, fun same => leaves (congrArg (fun after => after.workers worker) same)⟩
  cases place : server.workers worker with
  | asleep => exact absurd place awake
  | exited => exact absurd place inLoop
  | locking | waking =>
    rw [place] at free
    have mutex : server.queueMutex = none := free.resolve_left Bool.false_ne_true
    simp [workerStep, place, mutex]
  | loopTest | testing | stopTest =>
    simp only [workerStep, place, workers_moveWorker_self]
    split <;> simp
  | taking => cases queue : server.requestQueue <;> simp [workerStep, place, queue]
  | unlocking next => cases next <;> simp [workerStep, place, afterUnlock]
  | parking | serving request => simp [workerStep, place]

/-- So can a caller that is inside its guard or finds the mutex free. -/
theorem moves_enqueue {caller : Nat} (inCall : ¬ (server.callers caller).AtRest)
    (pushes : server.callers caller ≠ .notifying)
    (free : (server.callers caller).holdsLock = true ∨ server.queueMutex = none) :
    server.Moves (.enqueue caller) := by
  suffices leaves : (server.enqueueStep caller).callers caller ≠ server.callers caller from
    ⟨trivial, fun same => leaves (congrArg (fun after => after.callers caller) same)⟩
  cases place : server.callers caller with
  | idle => exact absurd (.inl place) inCall
  | returned => exact absurd (.inr place) inCall
  | notifying => exact absurd place pushes
  | locking request =>
    rw [place] at free
    have mutex : server.queueMutex = none := free.resolve_left Bool.false_ne_true
    simp [enqueueStep, place, mutex]
  | pushing request | unlocking => simp [enqueueStep, place]

/-- A notification can always be given. -/
theorem moves_notifyOne {caller : Nat} (notifying : server.callers caller = .notifying) :
    ∃ woken, server.Moves (.notifyOne caller woken) := by
  have returns : ∀ {before : ServerManager poolSize},
      before.moveCaller caller .returned ≠ server := by
    intro before same
    have place := congrArg (fun after => after.callers caller) same
    rw [callers_moveCaller_self, notifying] at place
    cases place
  by_cases asleep : ∃ worker, server.workers worker = .asleep
  · obtain ⟨worker, isAsleep⟩ := asleep
    refine ⟨some worker, trivial, ?_⟩
    simp only [step, if_pos notifying, notifyOne, if_pos isAsleep]
    exact returns
  · refine ⟨none, trivial, ?_⟩
    simp only [step, if_pos notifying, notifyOne, if_neg asleep]
    exact returns

/-- A busy server in which no thread can take a step is done. -/
theorem Busy.done_of_stuck (busy : server.Busy callers) (some : 0 < poolSize)
    (stuck : Stuck Moves server) : server.Done := by
  have inLoop : ∀ worker, server.workers worker ≠ .exited := by
    intro worker exited
    have working := busy.working worker
    rw [exited] at working
    exact working
  -- The owner of the mutex could go on, so there is none.
  have free : server.queueMutex = none := by
    refine Option.eq_none_iff_forall_ne_some.mpr fun owner owned => ?_
    have inside := (busy.watchful.exclusive owner).mpr owned
    cases owner with
    | worker worker =>
      have holds : (server.workers worker).holdsLock = true := inside
      refine stuck _ (moves_worker (fun asleep => ?_) (inLoop worker) (.inl holds))
      rw [asleep] at holds
      cases holds
    | caller caller =>
      have holds : (server.callers caller).holdsLock = true := inside
      refine stuck _ (moves_enqueue ?_ (fun notifying => ?_) (.inl holds))
      · rintro (idle | returned)
        · rw [idle] at holds
          cases holds
        · rw [returned] at holds
          cases holds
      · rw [notifying] at holds
        cases holds
  have asleep : ∀ worker, server.workers worker = .asleep := fun worker =>
    by_contra fun awake => stuck _ (moves_worker awake (inLoop worker) (.inr free))
  have atRest : ∀ caller, (server.callers caller).AtRest := by
    intro caller
    by_contra inCall
    by_cases notifying : server.callers caller = .notifying
    · obtain ⟨woken, moves⟩ := moves_notifyOne notifying
      exact stuck _ moves
    · exact stuck _ (moves_enqueue inCall notifying (.inr free))
  refine ⟨asleep, ?_, atRest⟩
  -- A sleeper, no worker on its way and no caller that owes a notification: no request.
  obtain ⟨notifiers, owe, attended⟩ := busy.watchful.attended busy.running ⟨⟨0, some⟩, asleep _⟩
  have noNotifier : notifiers = ∅ := by
    refine Finset.eq_empty_of_forall_notMem fun caller member => ?_
    have owes := owe caller member
    rcases atRest caller with idle | returned
    · rw [idle] at owes
      cases owes
    · rw [returned] at owes
      cases owes
  have noAlert : server.alertWorkers = ∅ := by
    refine Finset.filter_eq_empty_iff.mpr fun worker _ alert => ?_
    rw [asleep worker] at alert
    cases alert
  rw [noNotifier, noAlert, Finset.card_empty, Finset.card_empty] at attended
  exact List.eq_nil_of_length_eq_zero (by omega)

/-! ## From every reachable state -/

/-- The callers that an action brings into a call. -/
def called : Action poolSize → List Nat
  | .call caller _ => [caller]
  | .worker _ | .enqueue _ | .notifyOne _ _ | .stop => []

/-- The state at the start. -/
theorem busy_started (requests : List ClientRequest) :
    (started requests : ServerManager poolSize).Busy ∅ where
  watchful := watchful_started requests
  running := rfl
  working _ := trivial
  others _ _ := .inl rfl

/-- More callers may be counted. -/
theorem Busy.mono {larger : Finset Nat} (busy : server.Busy callers) (subset : callers ⊆ larger) :
    server.Busy larger where
  watchful := busy.watchful
  running := busy.running
  working := busy.working
  others caller notCalled := busy.others caller fun member => notCalled (subset member)

/-- Any action but that of `StopServer` keeps the server busy. -/
theorem busy_step_called (server : ServerManager poolSize) {action : Action poolSize}
    (goesOn : action ≠ .stop) (busy : server.Busy callers) :
    (server.step action).Busy (callers ∪ (called action).toFinset) := by
  by_cases moves : server.Moves action
  · exact (busy_step server action busy moves).mono Finset.subset_union_left
  by_cases same : server.step action = server
  · rw [same]
    exact busy.mono Finset.subset_union_left
  cases action with
  | worker _ | enqueue _ | notifyOne _ _ => exact absurd ⟨trivial, same⟩ moves
  | stop => exact absurd rfl goesOn
  | call caller request =>
    have watchful := watchful_step server (.call caller request) busy.watchful
    by_cases idle : server.callers caller = .idle
    · have isAfter : ∃ place, server.step (.call caller request) = server.moveCaller caller place := by
        cases request with
        | none => exact ⟨.returned, by simp only [step, if_pos idle]⟩
        | some request => exact ⟨.locking request, by simp only [step, if_pos idle]⟩
      obtain ⟨place, isAfter⟩ := isAfter
      rw [isAfter] at watchful ⊢
      refine ⟨watchful, busy.running, busy.working, fun other notCalled => ?_⟩
      have different : other ≠ caller := by
        rintro rfl
        exact notCalled (Finset.mem_union_right _ (List.mem_toFinset.mpr List.mem_cons_self))
      rw [callers_moveCaller_of_ne different]
      exact busy.others other fun member => notCalled (Finset.mem_union_left _ member)
    · exact absurd (by simp only [step, if_neg idle]) same

/-- A run without `StopServer` keeps the server busy. -/
theorem busy_run (busy : server.Busy callers) {actions : List (Action poolSize)}
    (goesOn : .stop ∉ actions) :
    (run step server actions).Busy (callers ∪ (actions.flatMap called).toFinset) := by
  induction actions generalizing server callers with
  | nil =>
    rw [List.flatMap_nil, List.toFinset_nil, Finset.union_empty]
    exact busy
  | cons action actions ih =>
    have other : action ≠ .stop := fun same => goesOn (same ▸ List.mem_cons_self)
    have later := ih (busy_step_called server other busy) (List.not_mem_of_not_mem_cons goesOn)
    rw [List.flatMap_cons, List.toFinset_append, ← Finset.union_assoc]
    exact later

theorem WorkerState.effort_le (place : WorkerState) : place.effort ≤ 11 := by
  cases place <;> simp [WorkerState.effort]

theorem CallerState.effort_le (place : CallerState) : place.effort ≤ 19 := by
  cases place <;> simp [CallerState.effort]

/-- The effort is bounded by the queue, the workers and the callers. -/
theorem effort_le (server : ServerManager poolSize) (callers : Finset Nat) :
    effort callers server ≤
      7 * server.requestQueue.length + 11 * poolSize + 19 * callers.card := by
  have workers : ∑ worker, (server.workers worker).effort ≤ poolSize * 11 := by
    have bound := Finset.sum_le_card_nsmul Finset.univ (fun worker => (server.workers worker).effort)
      11 fun worker _ => WorkerState.effort_le _
    rw [Finset.card_univ, Fintype.card_fin] at bound
    exact bound
  have inCalls : ∑ caller ∈ callers, (server.callers caller).effort ≤ callers.card * 19 :=
    Finset.sum_le_card_nsmul callers (fun caller => (server.callers caller).effort) 19
      fun caller _ => CallerState.effort_le _
  rw [effort]
  omega

/-- Nothing is in a worker's hands or with a caller of a server that is done. -/
theorem Done.served (done : server.Done) :
    server.inHands = [] ∧ ∀ caller, (server.callers caller).unsent = [] := by
  constructor
  · refine List.flatMap_eq_nil_iff.mpr fun worker _ => ?_
    rw [done.asleep worker]
    rfl
  · intro caller
    rcases done.atRest caller with idle | returned
    · rw [idle]
      rfl
    · rw [returned]
      rfl

/-- From every state that is reached before `StopServer` is called, and however the threads
are scheduled while no new call begins: they come to rest after a bounded number of steps,
and then each request that a caller was given has been served exactly once. -/
theorem all_requests_served (some : 0 < poolSize) (requests : List ClientRequest)
    (actions : List (Action poolSize)) (goesOn : .stop ∉ actions) :
    let first : ServerManager poolSize := started requests
    let server := run step first actions
    (∃ schedule, EachCall step Moves server schedule ∧ Stuck Moves (run step server schedule)) ∧
      ∀ schedule, EachCall step Moves server schedule →
        schedule.length ≤ 7 * server.requestQueue.length + 11 * poolSize +
          19 * (actions.flatMap called).toFinset.card ∧
        (Stuck Moves (run step server schedule) →
          (requests ++ gathered step pushes first (actions ++ schedule)).Perm
            (gathered step serves first (actions ++ schedule)) ∧
          ∀ caller, gathered step (ofCaller caller asks) first (actions ++ schedule) =
            gathered step (ofCaller caller pushes) first (actions ++ schedule)) := by
  intro first server
  have busy := busy_run (busy_started requests) goesOn
  rw [Finset.empty_union] at busy
  refine ⟨exists_run_to_stuck busy_step effort_step busy, fun schedule moves => ⟨?_, fun stuck => ?_⟩⟩
  · have bounded := moves.length_le busy_step effort_step busy
    have atMost := effort_le server (actions.flatMap called).toFinset
    exact (Nat.le_add_right _ _).trans (bounded.trans atMost)
  · have done := (moves.run_invariant busy_step busy).done_of_stuck some stuck
    obtain ⟨noneInHands, noneUnsent⟩ := done.served
    have sameRun : run step first (actions ++ schedule) = run step server schedule :=
      List.foldl_append
    obtain ⟨asked, queued, served⟩ := @requests_conserved poolSize requests (actions ++ schedule)
    rw [sameRun] at asked queued served
    refine ⟨?_, fun caller => ?_⟩
    · rw [queued, done.empty, List.append_nil]
      rw [noneInHands, List.append_nil] at served
      exact served
    · rw [asked caller, noneUnsent caller, List.append_nil]

/-- One worker, one request that was there and one call. -/
theorem all_requests_served_one_worker :
    let server : ServerManager 1 := run step (started [7]) [.call 0 (some 8)]
    ∃ schedule, EachCall step Moves server schedule ∧
      (gathered step serves (started [7]) ([.call 0 (some 8)] ++ schedule)).Perm
        ([7] ++ gathered step pushes (started [7]) ([.call 0 (some 8)] ++ schedule)) := by
  obtain ⟨⟨schedule, moves, stuck⟩, served⟩ :=
    @all_requests_served 1 Nat.one_pos [7] [.call 0 (some 8)] (by simp)
  exact ⟨schedule, moves, ((served schedule moves).2 stuck).1.symm⟩

end ServerManager

end MiniDB.Concurrency
