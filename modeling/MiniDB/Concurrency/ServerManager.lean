import MiniDB.Foundation.Run
import Mathlib.Logic.Function.Basic

/-!
# The worker pool of the server

`ServerManager` hands requests to worker threads through a queue, a mutex and a
condition variable. The threads interleave: every thread has a place in its code,
and an action lets one thread take its next step. A step that has to wait for the
mutex, for a notification or for another thread leaves the state as it is until
it can be taken. `queue_cv_.wait(lock, pred)` tests `pred` under the mutex, and
releases the mutex and falls asleep in a second step; there are no spurious
wakeups. Sockets, sessions and the text of a response are left out.
-/

namespace MiniDB.Concurrency

open Foundation

/-- The identity of a `ClientRequest` object. -/
abbrev ClientRequest := Nat

/-- Where `WorkerThreadLoop` goes when its guard releases the mutex. -/
inductive AfterUnlock where
  /-- `break` -/
  | exit
  /-- `continue` -/
  | again
  | serve (request : ClientRequest)
deriving DecidableEq, Repr

/-- The place of a worker in `WorkerThreadLoop`. -/
inductive WorkerState where
  /-- `while (!should_stop_)` -/
  | loopTest
  /-- The constructor of `lock`. -/
  | locking
  /-- The test of the predicate, holding the mutex. -/
  | testing
  /-- The predicate was false; the mutex is still held. -/
  | parking
  | asleep
  /-- Notified, and on the way back to the mutex. -/
  | waking
  /-- `if (should_stop_) break;` -/
  | stopTest
  /-- `front` and `pop`. -/
  | taking
  | unlocking (next : AfterUnlock)
  | serving (request : ClientRequest)
  | exited
deriving DecidableEq, Repr

/-- The place of a caller of `EnqueueRequest`. -/
inductive CallerState where
  | idle
  | locking (request : ClientRequest)
  | pushing (request : ClientRequest)
  | unlocking
  /-- `queue_cv_.notify_one()` -/
  | notifying
  | returned
deriving DecidableEq, Repr

/-- The place of the one caller of `StopServer`. -/
inductive StopperState where
  /-- `should_stop_ = true;` -/
  | stopping
  /-- `is_running_ = false;` -/
  | halting
  /-- `queue_cv_.notify_all();` -/
  | notifying
  /-- The loop of joins, at one worker. -/
  | joining (worker : Nat)
  | returned
deriving DecidableEq, Repr

/-- The places of `StopServer` after its notification. -/
def StopperState.hasNotified : StopperState → Bool
  | .stopping | .halting | .notifying => false
  | .joining _ | .returned => true

/-- A thread that can hold `queue_mutex_`. -/
inductive Thread (poolSize : Nat) where
  | worker (worker : Fin poolSize)
  | caller (caller : Nat)
deriving DecidableEq, Repr

/-- The shared state with the place of every thread. -/
structure ServerManager (poolSize : Nat) where
  shouldStop : Bool := false
  isRunning : Bool := true
  requestQueue : List ClientRequest := []
  /-- The owner of `queue_mutex_`. -/
  queueMutex : Option (Thread poolSize) := none
  workers : Fin poolSize → WorkerState := fun _ => .loopTest
  callers : Nat → CallerState := fun _ => .idle
  stopper : StopperState := .stopping

namespace ServerManager

variable {poolSize : Nat}

/-- The next step of one thread. `notifyOne` names the sleeper that wakes up. -/
inductive Action (poolSize : Nat) where
  | worker (worker : Fin poolSize)
  | call (caller : Nat) (request : Option ClientRequest)
  | enqueue (caller : Nat)
  | notifyOne (caller : Nat) (woken : Option (Fin poolSize))
  | stop
deriving DecidableEq, Repr

/-- Put a worker at a place. -/
def moveWorker (server : ServerManager poolSize) (worker : Fin poolSize) (place : WorkerState) :
    ServerManager poolSize :=
  { server with workers := Function.update server.workers worker place }

/-- Put a caller at a place. -/
def moveCaller (server : ServerManager poolSize) (caller : Nat) (place : CallerState) :
    ServerManager poolSize :=
  { server with callers := Function.update server.callers caller place }

/-- The predicate of the wait. -/
def hasWork (server : ServerManager poolSize) : Bool :=
  server.shouldStop || !server.requestQueue.isEmpty

/-- The place after the guard of `WorkerThreadLoop` has gone. -/
def afterUnlock : AfterUnlock → WorkerState
  | .exit => .exited
  | .again => .loopTest
  | .serve request => .serving request

/-- One step of `WorkerThreadLoop`. -/
def workerStep (server : ServerManager poolSize) (worker : Fin poolSize) :
    ServerManager poolSize :=
  match server.workers worker with
  | .loopTest => server.moveWorker worker (if server.shouldStop then .exited else .locking)
  | .locking | .waking =>
    match server.queueMutex with
    | some _ => server
    | none => moveWorker { server with queueMutex := some (.worker worker) } worker .testing
  | .testing => server.moveWorker worker (if server.hasWork then .stopTest else .parking)
  | .parking => moveWorker { server with queueMutex := none } worker .asleep
  | .asleep => server
  | .stopTest =>
    server.moveWorker worker (if server.shouldStop then .unlocking .exit else .taking)
  | .taking =>
    match server.requestQueue with
    | [] => server.moveWorker worker (.unlocking .again)
    | request :: rest =>
      moveWorker { server with requestQueue := rest } worker (.unlocking (.serve request))
  | .unlocking next => moveWorker { server with queueMutex := none } worker (afterUnlock next)
  | .serving _ => server.moveWorker worker .loopTest
  | .exited => server

/-- One step of `EnqueueRequest` after its start and before its notification. -/
def enqueueStep (server : ServerManager poolSize) (caller : Nat) : ServerManager poolSize :=
  match server.callers caller with
  | .locking request =>
    match server.queueMutex with
    | some _ => server
    | none => moveCaller { server with queueMutex := some (.caller caller) } caller (.pushing request)
  | .pushing request =>
    moveCaller { server with requestQueue := server.requestQueue ++ [request] } caller .unlocking
  | .unlocking => moveCaller { server with queueMutex := none } caller .notifying
  | .idle | .notifying | .returned => server

/-- `queue_cv_.notify_one()`: some sleeper wakes up, if there is one. -/
def notifyOne (server : ServerManager poolSize) : Option (Fin poolSize) →
    Option (ServerManager poolSize)
  | some woken =>
    if server.workers woken = .asleep then some (server.moveWorker woken .waking) else none
  | none => if ∃ worker, server.workers worker = .asleep then none else some server

/-- `queue_cv_.notify_all()`. -/
def notifyAll (server : ServerManager poolSize) : ServerManager poolSize :=
  { server with
    workers := fun worker =>
      if server.workers worker = .asleep then .waking else server.workers worker }

/-- One step of `StopServer`; a join waits until its worker has left its loop. -/
def stopStep (server : ServerManager poolSize) : ServerManager poolSize :=
  match server.stopper with
  | .stopping => { server with shouldStop := true, stopper := .halting }
  | .halting => { server with isRunning := false, stopper := .notifying }
  | .notifying => { server.notifyAll with stopper := .joining 0 }
  | .joining worker =>
    if inPool : worker < poolSize then
      if server.workers ⟨worker, inPool⟩ = .exited then
        { server with stopper := .joining (worker + 1) }
      else server
    else { server with stopper := .returned }
  | .returned => server

/-- One step of the thread that the action names. -/
def step (server : ServerManager poolSize) : Action poolSize → ServerManager poolSize
  | .worker worker => server.workerStep worker
  | .call caller request =>
    if server.callers caller = .idle then
      match request with
      | none => server.moveCaller caller .returned
      | some request => server.moveCaller caller (.locking request)
    else server
  | .enqueue caller => server.enqueueStep caller
  | .notifyOne caller woken =>
    if server.callers caller = .notifying then
      match server.notifyOne woken with
      | some after => after.moveCaller caller .returned
      | none => server
    else server
  | .stop => server.stopStep

/-- The server as `StartServer` leaves it, with requests that came before it. -/
def started (requests : List ClientRequest) : ServerManager poolSize :=
  { requestQueue := requests }

/-- `StopServer` has executed `notify_all`. -/
def Notified (server : ServerManager poolSize) : Prop := server.stopper.hasNotified = true

instance (server : ServerManager poolSize) : Decidable server.Notified :=
  inferInstanceAs (Decidable (_ = true))

end ServerManager

end MiniDB.Concurrency
