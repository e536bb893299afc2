import MiniDB.Concurrency.Shutdown
import MiniDB.Foundation.Accounts
import Mathlib.Data.List.Basic

/-!
# The way of a request

A request is with its caller until it is pushed, in the queue until a worker takes it,
and with that worker until it is served. Each step of a thread moves at most one
request one place on, so no interleaving loses or repeats one, and the queue hands them
out in the order in which they came.
-/

namespace MiniDB.Concurrency

open Foundation

/-- The request that a worker has taken and not yet served. -/
def WorkerState.inHand : WorkerState → List ClientRequest
  | .unlocking (.serve request) => [request]
  | .serving request => [request]
  | _ => []

/-- The request that a caller has yet to push. -/
def CallerState.unsent : CallerState → List ClientRequest
  | .locking request => [request]
  | .pushing request => [request]
  | _ => []

namespace ServerManager

variable {poolSize : Nat} {server : ServerManager poolSize}

/-- The requests that the workers have in hand. -/
def inHands (server : ServerManager poolSize) : List ClientRequest :=
  (List.finRange poolSize).flatMap fun worker => (server.workers worker).inHand

/-- The request with which `EnqueueRequest` is called. -/
def asks (server : ServerManager poolSize) : Action poolSize → List ClientRequest
  | .call caller (some request) => if server.callers caller = .idle then [request] else []
  | _ => []

/-- `request_queue_.push(req)`. -/
def pushes (server : ServerManager poolSize) : Action poolSize → List ClientRequest
  | .enqueue caller =>
    match server.callers caller with
    | .pushing request => [request]
    | _ => []
  | _ => []

/-- `request_queue_.front()` and `pop()`. -/
def takes (server : ServerManager poolSize) : Action poolSize → List ClientRequest
  | .worker worker =>
    match server.workers worker with
    | .taking => server.requestQueue.head?.toList
    | _ => []
  | _ => []

/-- `HandleClientRequest`, `SendResponse` and the deletion of the request. -/
def serves (server : ServerManager poolSize) : Action poolSize → List ClientRequest
  | .worker worker =>
    match server.workers worker with
    | .serving request => [request]
    | _ => []
  | _ => []

/-- What an action yields if it is one of this caller. -/
def ofCaller (caller : Nat) (yields : ServerManager poolSize → Action poolSize → List ClientRequest)
    (server : ServerManager poolSize) (action : Action poolSize) : List ClientRequest :=
  match action with
  | .call other _ | .enqueue other => if other = caller then yields server action else []
  | _ => []

/-! ## The queue -/

@[simp] theorem requestQueue_moveWorker (worker : Fin poolSize) (place : WorkerState) :
    (server.moveWorker worker place).requestQueue = server.requestQueue := rfl

@[simp] theorem requestQueue_moveCaller (caller : Nat) (place : CallerState) :
    (server.moveCaller caller place).requestQueue = server.requestQueue := rfl

/-- `StopServer` leaves the queue, its mutex and the callers alone. -/
theorem stopStep_leaves : server.stopStep.requestQueue = server.requestQueue ∧
    server.stopStep.queueMutex = server.queueMutex ∧ server.stopStep.callers = server.callers := by
  unfold stopStep
  cases server.stopper with
  | joining joined =>
    dsimp only
    split
    · split <;> exact ⟨rfl, rfl, rfl⟩
    · exact ⟨rfl, rfl, rfl⟩
  | stopping | halting | notifying | returned => exact ⟨rfl, rfl, rfl⟩

/-- So does `notify_one`. -/
theorem notifyOne_leaves {woken : Option (Fin poolSize)} {after : ServerManager poolSize}
    (notified : server.notifyOne woken = some after) :
    after.requestQueue = server.requestQueue ∧ after.queueMutex = server.queueMutex ∧
      after.callers = server.callers := by
  unfold notifyOne at notified
  cases woken <;> dsimp only at notified <;> split at notified <;> cases notified <;>
    exact ⟨rfl, rfl, rfl⟩

/-- A worker takes at most the request at the front. -/
theorem requestQueue_workerStep (worker : Fin poolSize) :
    server.requestQueue =
      server.takes (.worker worker) ++ (server.workerStep worker).requestQueue := by
  cases place : server.workers worker with
  | locking | waking => cases mutex : server.queueMutex <;> simp [takes, workerStep, place, mutex]
  | taking => cases queue : server.requestQueue <;> simp [takes, workerStep, place, queue]
  | loopTest | testing | parking | asleep | stopTest | unlocking next | serving request | exited =>
    simp [takes, workerStep, place]

/-- A caller pushes at most its request, at the back. -/
theorem requestQueue_enqueueStep (caller : Nat) :
    (server.enqueueStep caller).requestQueue =
      server.requestQueue ++ server.pushes (.enqueue caller) := by
  cases place : server.callers caller with
  | locking request =>
    cases mutex : server.queueMutex <;> simp [pushes, enqueueStep, place, mutex]
  | idle | pushing request | unlocking | notifying | returned =>
    simp [pushes, enqueueStep, place]

/-- Each step keeps the queue a queue. -/
theorem requestQueue_step (server : ServerManager poolSize) (action : Action poolSize) :
    server.requestQueue ++ server.pushes action =
      server.takes action ++ (server.step action).requestQueue := by
  cases action with
  | worker worker => simpa [pushes, step] using requestQueue_workerStep worker
  | enqueue caller => simpa [takes, step] using (requestQueue_enqueueStep caller).symm
  | call caller request =>
    simp only [pushes, takes, step, List.append_nil, List.nil_append]
    cases request <;> dsimp only <;> split <;> rfl
  | notifyOne caller woken =>
    simp only [pushes, takes, step, List.append_nil, List.nil_append]
    split
    · cases notified : server.notifyOne woken with
      | none => rfl
      | some after => exact (notifyOne_leaves notified).1.symm
    · rfl
  | stop => simpa [pushes, takes, step] using stopStep_leaves.1.symm

/-! ## The workers -/

/-- A worker's step hands on what it has in hand. -/
theorem inHand_workerStep (worker : Fin poolSize) :
    (server.workers worker).inHand ++ server.takes (.worker worker) =
      server.serves (.worker worker) ++ ((server.workerStep worker).workers worker).inHand := by
  cases place : server.workers worker with
  | locking | waking =>
    cases mutex : server.queueMutex <;>
      simp [takes, serves, workerStep, place, mutex, WorkerState.inHand]
  | taking =>
    cases queue : server.requestQueue <;>
      simp [takes, serves, workerStep, place, queue, WorkerState.inHand]
  | unlocking next =>
    cases next <;> simp [takes, serves, workerStep, place, afterUnlock, WorkerState.inHand]
  | loopTest | testing | stopTest =>
    simp only [takes, serves, workerStep, place, workers_moveWorker_self]
    split <;> rfl
  | parking | serving request | asleep | exited =>
    simp [takes, serves, workerStep, place, WorkerState.inHand]

/-- The requests in hand, with those of one worker in front. -/
theorem inHands_perm (server : ServerManager poolSize) (worker : Fin poolSize) :
    server.inHands.Perm ((server.workers worker).inHand ++
      ((List.finRange poolSize).erase worker).flatMap fun other =>
        (server.workers other).inHand) := by
  have front := List.perm_cons_erase (List.mem_finRange worker)
  exact front.flatMap_right _

/-- What a worker has in hand changes by its own steps only. -/
theorem inHands_step_of_ne {action : Action poolSize} (other : ∀ worker, action ≠ .worker worker) :
    (server.step action).inHands = server.inHands := by
  refine List.flatMap_congr fun worker _ => ?_
  rcases @workers_step_of_ne _ server _ _ (other worker) with same | ⟨asleep, woken⟩
  · rw [same]
  · rw [asleep, woken]
    rfl

/-- Each step moves a request from the queue to a worker, or from a worker to its
client, or none. -/
theorem inHands_step (server : ServerManager poolSize) (action : Action poolSize) :
    (server.inHands ++ server.takes action).Perm
      (server.serves action ++ (server.step action).inHands) := by
  cases action with
  | worker worker =>
    have others : (((List.finRange poolSize).erase worker).flatMap fun other =>
        ((server.workerStep worker).workers other).inHand) =
          ((List.finRange poolSize).erase worker).flatMap fun other =>
            (server.workers other).inHand := by
      refine List.flatMap_congr fun other member => ?_
      have different := ((List.nodup_finRange poolSize).mem_erase_iff.mp member).1
      rw [workers_workerStep_of_ne different]
    have before := (inHands_perm server worker).append_right (server.takes (.worker worker))
    have after := (inHands_perm (server.workerStep worker) worker).append_left
      (server.serves (.worker worker))
    rw [others] at after
    refine before.trans (List.Perm.trans ?_ after.symm)
    rw [← List.append_assoc, ← inHand_workerStep, List.append_assoc, List.append_assoc]
    exact List.perm_append_comm.append_left _
  | call _ _ | enqueue _ | notifyOne _ _ | stop =>
    rw [inHands_step_of_ne]
    · simp [takes, serves]
    · exact fun _ => nofun

/-! ## The callers -/

@[simp] theorem callers_moveCaller_self (caller : Nat) (place : CallerState) :
    (server.moveCaller caller place).callers caller = place := by
  simp [moveCaller]

/-- The other callers stay where they are. -/
theorem callers_moveCaller_of_ne {caller other : Nat} (different : other ≠ caller)
    (place : CallerState) :
    (server.moveCaller caller place).callers other = server.callers other := by
  simp [moveCaller, different]

/-- A worker moves no caller. -/
theorem callers_workerStep (worker : Fin poolSize) :
    (server.workerStep worker).callers = server.callers := by
  unfold workerStep
  cases server.workers worker with
  | locking | waking => cases server.queueMutex <;> rfl
  | taking => cases server.requestQueue <;> rfl
  | loopTest | testing | parking | asleep | stopTest | unlocking next | serving request | exited =>
    rfl

/-- A caller moves no other one. -/
theorem callers_enqueueStep_of_ne {caller other : Nat} (different : other ≠ caller) :
    (server.enqueueStep caller).callers other = server.callers other := by
  unfold enqueueStep
  cases server.callers caller with
  | locking request =>
    cases server.queueMutex with
    | some owner => rfl
    | none => exact callers_moveCaller_of_ne different _
  | pushing request | unlocking => exact callers_moveCaller_of_ne different _
  | idle | notifying | returned => rfl

/-- The place of a caller changes by its own actions only. -/
theorem callers_step_of_ne {action : Action poolSize} {caller : Nat}
    (notCall : ∀ request, action ≠ .call caller request) (notEnqueue : action ≠ .enqueue caller)
    (notNotify : ∀ woken, action ≠ .notifyOne caller woken) :
    (server.step action).callers caller = server.callers caller := by
  cases action with
  | worker worker => exact congrFun (callers_workerStep worker) caller
  | stop => exact congrFun stopStep_leaves.2.2 caller
  | enqueue other =>
    exact callers_enqueueStep_of_ne fun same => notEnqueue (congrArg Action.enqueue same.symm)
  | call other request =>
    have different : caller ≠ other := fun same => notCall request (same ▸ rfl)
    unfold step
    cases request <;> dsimp only <;> split <;>
      first | exact callers_moveCaller_of_ne different _ | rfl
  | notifyOne other woken =>
    have different : caller ≠ other := fun same => notNotify woken (same ▸ rfl)
    unfold step
    dsimp only
    split
    · cases notified : server.notifyOne woken with
      | none => rfl
      | some after =>
        exact (callers_moveCaller_of_ne different _).trans
          (congrFun ((notifyOne_leaves notified).2.2) caller)
    · rfl

/-- `EnqueueRequest` hands on the request of its call. -/
theorem unsent_enqueueStep (caller : Nat) :
    (server.callers caller).unsent =
      server.pushes (.enqueue caller) ++ ((server.enqueueStep caller).callers caller).unsent := by
  cases place : server.callers caller with
  | locking request =>
    cases mutex : server.queueMutex <;>
      simp [pushes, enqueueStep, place, mutex, CallerState.unsent]
  | idle | pushing request | unlocking | notifying | returned =>
    simp [pushes, enqueueStep, place, CallerState.unsent]

/-- A step of a caller hands on the request of its call. -/
theorem unsent_step (caller : Nat) (server : ServerManager poolSize) (action : Action poolSize) :
    (server.callers caller).unsent ++ ofCaller caller asks server action =
      ofCaller caller pushes server action ++ ((server.step action).callers caller).unsent := by
  by_cases own : action = .enqueue caller
  · subst own
    simpa [ofCaller, asks, step] using unsent_enqueueStep caller
  by_cases called : ∃ request, action = .call caller request
  · obtain ⟨request, rfl⟩ := called
    by_cases idle : server.callers caller = .idle
    · cases request <;> simp [ofCaller, asks, pushes, step, idle, CallerState.unsent]
    · cases request <;> simp [ofCaller, asks, pushes, step, idle]
  by_cases notifies : ∃ woken, action = .notifyOne caller woken
  · obtain ⟨woken, rfl⟩ := notifies
    by_cases notifying : server.callers caller = .notifying
    · cases notified : server.notifyOne woken <;>
        simp [ofCaller, step, notifying, notified, CallerState.unsent]
    · simp [ofCaller, step, notifying]
  · have same := @callers_step_of_ne _ server action caller
      (fun request same => called ⟨request, same⟩) own (fun woken same => notifies ⟨woken, same⟩)
    have silent : ∀ yields, ofCaller caller yields server action = [] := by
      intro yields
      unfold ofCaller
      cases action with
      | call other request =>
        exact if_neg fun isCaller => called ⟨request, congrArg (Action.call · request) isCaller⟩
      | enqueue other => exact if_neg fun isCaller => own (congrArg Action.enqueue isCaller)
      | worker _ | notifyOne _ _ | stop => rfl
    rw [silent, silent, same, List.append_nil, List.nil_append]

/-- For every interleaving of the workers, of `EnqueueRequest` calls and of one
`StopServer` call: a caller pushes the request of its call once, requests leave the
queue in the order in which they entered it, and each one that was taken was served
once or is in the hands of one worker. -/
theorem requests_conserved (requests : List ClientRequest) (actions : List (Action poolSize)) :
    let first : ServerManager poolSize := started requests
    let last := run step first actions
    (∀ caller, gathered step (ofCaller caller asks) first actions =
      gathered step (ofCaller caller pushes) first actions ++ (last.callers caller).unsent) ∧
    requests ++ gathered step pushes first actions =
      gathered step takes first actions ++ last.requestQueue ∧
    (gathered step takes first actions).Perm
      (gathered step serves first actions ++ last.inHands) := by
  intro first last
  refine ⟨fun caller => ?_, ?_, ?_⟩
  · exact gathered_in_order (unsent_step caller) first actions
  · exact gathered_in_order requestQueue_step first actions
  · have empty : first.inHands = [] := List.flatMap_eq_nil_iff.mpr fun _ _ => rfl
    have passed := gathered_perm inHands_step first actions
    rwa [empty, List.nil_append] at passed

end ServerManager

end MiniDB.Concurrency
