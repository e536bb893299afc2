import MiniDB.Foundation.LockTables
import MiniDB.Foundation.Progress
import MiniDB.Concurrency.LockCompatibility

/-!
# Two-phase locking with the lock manager

Transactions lock rows with the lock manager and access them in any interleaving. Where
each of them accesses only rows that it was granted, writes only rows that it was granted
exclusively and asks for no lock once it gave one up, and where no call is one that breaks
the compatibility of exclusive locks, the interleaving has the outcome of running the
transactions one after the other (`LockSession.twoPhase_serializable`).
-/

namespace MiniDB.Concurrency

open Foundation

namespace LockHistory

/-- What is noted for one transaction leaves the others. -/
theorem note_other {locks : Transaction → RID → Bool} {txn holder : Transaction}
    (different : holder ≠ txn) (rid row : RID) (value : Bool) :
    note locks txn rid value holder row = locks holder row :=
  note_of_ne fun both => different both.1

theorem note_true_of {locks : Transaction → RID → Bool} {txn holder : Transaction} {rid row : RID}
    (held : locks holder row = true) : note locks txn rid true holder row = true := by
  unfold note
  split
  · rfl
  · exact held

theorem of_note_false {locks : Transaction → RID → Bool} {txn holder : Transaction} {rid row : RID}
    (held : note locks txn rid false holder row = true) : locks holder row = true := by
  unfold note at held
  split at held
  · cases held
  · exact held

/-- The grants of a history whose exclusive locks are alone. -/
def table (history : LockHistory) (tracks : history.Tracks) (compatible : history.Compatible) :
    LockTable Transaction RID where
  holds txn rid := history.granted txn rid = true
  holdsAlone txn rid := history.exclusive txn rid = true
  holds_of_alone := tracks.exclusive
  alone txn rid held other different := by
    rw [compatible txn rid held other different]
    exact Bool.false_ne_true

/-- The transaction that asks for a lock. -/
def requester : LockCall → Option Transaction
  | .lockShared txn _ => txn
  | .lockExclusive txn _ => txn
  | .unlock _ _ => none

/-- The transaction that gives up a lock that it was granted. -/
def releaser (history : LockHistory) : LockCall → Option Transaction
  | .unlock (some txn) rid => if history.granted txn rid then some txn else none
  | _ => none

/-- A request adds locks, and only for the transaction that makes it. -/
theorem table_request {history : LockHistory} (call : LockCall) {txn : Transaction}
    (requests : requester call = some txn) {tracks : history.Tracks}
    {compatible : history.Compatible} {tracksNext : (history.step call).Tracks}
    {compatibleNext : (history.step call).Compatible} :
    (history.table tracks compatible).ChangesOnly
        ((history.step call).table tracksNext compatibleNext) txn ∧
      (history.table tracks compatible).Grows
        ((history.step call).table tracksNext compatibleNext) := by
  have noted : ((history.step call).granted = history.granted ∨
      ∃ rid, (history.step call).granted = note history.granted txn rid true) ∧
      ((history.step call).exclusive = history.exclusive ∨
      ∃ rid, (history.step call).exclusive = note history.exclusive txn rid true) := by
    match call, requests with
    | .lockShared (some _) rid, rfl =>
      obtain ⟨grantedEq, exclusiveEq⟩ := step_lockShared history txn rid
      refine ⟨?_, .inl exclusiveEq⟩
      rw [grantedEq]
      split
      · exact .inr ⟨rid, rfl⟩
      · exact .inl rfl
    | .lockExclusive (some _) rid, rfl =>
      obtain ⟨grantedEq, exclusiveEq⟩ := step_lockExclusive history txn rid
      rw [grantedEq, exclusiveEq]
      split
      · exact ⟨.inr ⟨rid, rfl⟩, .inr ⟨rid, rfl⟩⟩
      · exact ⟨.inl rfl, .inl rfl⟩
  obtain ⟨grantedEq, exclusiveEq⟩ := noted
  constructor
  · constructor
    · intro other different row
      change (history.step call).granted other row = true ↔ history.granted other row = true
      rcases grantedEq with same | ⟨rid, added⟩
      · rw [same]
      · rw [added, note_other different]
    · intro other different row
      change (history.step call).exclusive other row = true ↔ history.exclusive other row = true
      rcases exclusiveEq with same | ⟨rid, added⟩
      · rw [same]
      · rw [added, note_other different]
  · constructor
    · intro holder row held
      change (history.step call).granted holder row = true
      rcases grantedEq with same | ⟨rid, added⟩
      · rwa [same]
      · exact added ▸ note_true_of held
    · intro holder row held
      change (history.step call).exclusive holder row = true
      rcases exclusiveEq with same | ⟨rid, added⟩
      · rwa [same]
      · exact added ▸ note_true_of held

/-- An unlock takes locks away, and only from the transaction that makes it. -/
theorem table_unlock {history : LockHistory} {txn : Transaction} {rid : RID}
    {tracks : history.Tracks} {compatible : history.Compatible}
    {tracksNext : (history.step (.unlock (some txn) rid)).Tracks}
    {compatibleNext : (history.step (.unlock (some txn) rid)).Compatible} :
    (history.table tracks compatible).ChangesOnly
        ((history.step (.unlock (some txn) rid)).table tracksNext compatibleNext) txn ∧
      ((history.step (.unlock (some txn) rid)).table tracksNext compatibleNext).Grows
        (history.table tracks compatible) := by
  refine ⟨⟨?_, ?_⟩, ⟨?_, ?_⟩⟩
  · intro other different row
    exact iff_of_eq (congrArg (· = true) (note_other different rid row false))
  · intro other different row
    exact iff_of_eq (congrArg (· = true) (note_other different rid row false))
  · exact fun holder row held => of_note_false held
  · exact fun holder row held => of_note_false held

/-- An unlock by a transaction that does not hold the row takes nothing away. -/
theorem table_unlock_of_not_held {history : LockHistory} {txn : Transaction} {rid : RID}
    (free : ¬ history.granted txn rid = true) {tracks : history.Tracks}
    {compatible : history.Compatible} {tracksNext : (history.step (.unlock (some txn) rid)).Tracks}
    {compatibleNext : (history.step (.unlock (some txn) rid)).Compatible} :
    (history.table tracks compatible).Grows
      ((history.step (.unlock (some txn) rid)).table tracksNext compatibleNext) := by
  have elsewhere : ∀ {holder row}, history.granted holder row = true →
      ¬ (holder = txn ∧ row = rid) := by
    rintro holder row held ⟨rfl, rfl⟩
    exact free held
  constructor
  · intro holder row held
    exact (note_of_ne (elsewhere held)).trans held
  · intro holder row held
    exact (note_of_ne (elsewhere (tracks.exclusive holder row held))).trans held

end LockHistory

/-- What happens in a session: a call of the lock manager, or an access to a row. -/
inductive LockEvent where
  | call (call : LockCall)
  | access (access : Access Transaction RID)
deriving DecidableEq

/-- The locks, the transactions that gave one up in the order in which they first did, and
the accesses so far. -/
structure LockSession where
  history : LockHistory := {}
  released : List Transaction := []
  accesses : List (Access Transaction RID) := []

namespace LockSession

/-- A transaction is noted when it gives up its first lock. -/
def noteReleased (released : List Transaction) : Option Transaction → List Transaction
  | none => released
  | some txn => if txn ∈ released then released else released ++ [txn]

def step (session : LockSession) : LockEvent → LockSession
  | .call call =>
    { session with
      history := session.history.step call
      released := noteReleased session.released (session.history.releaser call) }
  | .access access => { session with accesses := session.accesses ++ [access] }

/-- The discipline of two-phase locking. A call keeps exclusive locks alone and does not
ask for a lock after its transaction gave one up; an access is to a row that the
transaction was granted, a write to one that it was granted exclusively. -/
def Disciplined (session : LockSession) : LockEvent → Prop
  | .call call =>
    session.history.Admits call ∧
      ∀ txn ∈ LockHistory.requester call, txn ∉ session.released
  | .access access =>
    if access.write then session.history.exclusive access.owner access.item = true
    else session.history.granted access.owner access.item = true

instance (session : LockSession) : (event : LockEvent) → Decidable (session.Disciplined event)
  | .call _ => inferInstanceAs (Decidable (_ ∧ _))
  | .access _ => inferInstanceAs (Decidable (ite _ _ _))

/-- The locks are in order, and so are the accesses under them. -/
structure Sound (session : LockSession) : Prop where
  tracks : session.history.Tracks
  compatible : session.history.Compatible
  phases : TwoPhase (session.history.table tracks compatible) session.released session.accesses

theorem sound_initial : Sound {} where
  tracks := LockHistory.tracks_initial
  compatible := LockHistory.compatible_initial
  phases := TwoPhase.initial _

/-- A disciplined call of the lock manager keeps the accesses so far in order. -/
theorem phases_call {session : LockSession} (sound : session.Sound) {call : LockCall}
    (growing : ∀ txn ∈ LockHistory.requester call, txn ∉ session.released)
    (tracks : (session.history.step call).Tracks)
    (compatible : (session.history.step call).Compatible) :
    TwoPhase ((session.history.step call).table tracks compatible)
      (noteReleased session.released (session.history.releaser call)) session.accesses := by
  match call with
  | .lockShared none rid => exact sound.phases
  | .lockExclusive none rid => exact sound.phases
  | .unlock none rid => exact sound.phases
  | .lockShared (some txn) rid =>
    obtain ⟨changes, grows⟩ := LockHistory.table_request (.lockShared (some txn) rid) rfl
    exact sound.phases.gain changes grows (growing txn rfl)
  | .lockExclusive (some txn) rid =>
    obtain ⟨changes, grows⟩ := LockHistory.table_request (.lockExclusive (some txn) rid) rfl
    exact sound.phases.gain changes grows (growing txn rfl)
  | .unlock (some txn) rid =>
    obtain ⟨changes, shrinks⟩ := LockHistory.table_unlock
    by_cases held : session.history.granted txn rid = true
    · have released : session.history.releaser (.unlock (some txn) rid) = some txn := if_pos held
      rw [released]
      exact sound.phases.release changes shrinks
    · have released : session.history.releaser (.unlock (some txn) rid) = none := if_neg held
      rw [released]
      exact sound.phases.same (LockHistory.table_unlock_of_not_held held) shrinks

/-- A disciplined event leaves the locks and the accesses in order. -/
theorem sound_step {session : LockSession} {event : LockEvent} (sound : session.Sound)
    (disciplined : session.Disciplined event) : (session.step event).Sound := by
  cases event with
  | call call =>
    have tracks := LockHistory.tracks_step sound.tracks call
    have compatible :=
      (LockHistory.compatible_step_iff sound.tracks sound.compatible call).mpr disciplined.1
    exact ⟨tracks, compatible, phases_call sound disciplined.2 tracks compatible⟩
  | access access =>
    refine ⟨sound.tracks, sound.compatible, sound.phases.access ?_⟩
    exact disciplined

/-- Transactions that lock in two phases are serializable: whatever they compute from what
they read, rows and transactions end as if the transactions had run one after the other,
in the order in which they first gave a lock up. -/
theorem twoPhase_serializable {Local Value : Type} {events : List LockEvent}
    (disciplined : EachCall step Disciplined {} events)
    (program : Access Transaction RID → Local → Value → Local × Value)
    (world : World Transaction RID Local Value) :
    run (perform program) world (run step {} events).accesses =
      run (perform program) world
        (serial (lockOrder (run step {} events).released (run step {} events).accesses)
          (run step {} events).accesses) := by
  have sound := disciplined.run_invariant (fun _ _ => sound_step) sound_initial
  exact (sound.phases.serializable program world).symm

/-- A transaction that adds one to a row: it learns what it reads and writes one more. -/
def increment (access : Access Transaction RID) (known value : Nat) : Nat × Nat :=
  if access.write then (known, known + 1) else (value, value)

/-- Transaction 1 increments the first row while transaction 2 is at the second one, and
gives the first row up to transaction 2. -/
def twoIncrements : List LockEvent :=
  [.call (.lockExclusive (some 1) ⟨0, 0⟩), .access ⟨1, ⟨0, 0⟩, false⟩,
    .call (.lockExclusive (some 2) ⟨0, 1⟩), .access ⟨2, ⟨0, 1⟩, false⟩,
    .access ⟨1, ⟨0, 0⟩, true⟩, .access ⟨2, ⟨0, 1⟩, true⟩, .call (.unlock (some 1) ⟨0, 0⟩),
    .call (.lockExclusive (some 2) ⟨0, 0⟩), .access ⟨2, ⟨0, 0⟩, false⟩,
    .access ⟨2, ⟨0, 0⟩, true⟩, .call (.unlock (some 2) ⟨0, 1⟩), .call (.unlock (some 2) ⟨0, 0⟩)]

theorem twoPhase_serializable_increments :
    run (perform increment) ⟨fun _ => 0, fun _ => 5⟩ (run step {} twoIncrements).accesses =
      run (perform increment) ⟨fun _ => 0, fun _ => 5⟩
        (serial (lockOrder (run step {} twoIncrements).released
          (run step {} twoIncrements).accesses) (run step {} twoIncrements).accesses) :=
  twoPhase_serializable (by decide) increment ⟨fun _ => 0, fun _ => 5⟩

/-- An exclusive lock granted over another one loses an update: both transactions read 5
and leave 6, where either order of them leaves 7. -/
example :
    let session := run step {}
      [.call (.lockExclusive (some 1) ⟨0, 0⟩), .call (.lockExclusive (some 2) ⟨0, 0⟩),
        .access ⟨1, ⟨0, 0⟩, false⟩, .access ⟨2, ⟨0, 0⟩, false⟩, .access ⟨1, ⟨0, 0⟩, true⟩,
        .access ⟨2, ⟨0, 0⟩, true⟩]
    let outcome := fun accesses =>
      (run (perform increment) ⟨fun _ => 0, fun _ => 5⟩ accesses).values ⟨0, 0⟩
    outcome session.accesses = 6 ∧ outcome (serial [1, 2] session.accesses) = 7 ∧
      outcome (serial [2, 1] session.accesses) = 7 := by
  decide

end LockSession

end MiniDB.Concurrency
