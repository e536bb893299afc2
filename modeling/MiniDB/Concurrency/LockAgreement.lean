import MiniDB.Foundation.Run
import MiniDB.Concurrency.LockCompatibility

/-!
# The lock table and the transactions

A lock is written down twice: as a holder of the RID in the lock table, and as a
RID in the lock set of the transaction. `Agrees` is the invariant that joins the
two records and the recorded mode; `agrees_step` keeps it through every call,
granted, refused or repeated.
-/

namespace MiniDB.Concurrency

open Foundation

namespace LockManager

/-- One call with the value it returns. -/
def apply (manager : LockManager) : LockCall → Bool × LockManager
  | .lockShared txn rid => manager.lockShared txn rid
  | .lockExclusive txn rid => manager.lockExclusive txn rid
  | .unlock txn rid => manager.unlock txn rid

/-- A call seen as a step of the manager. -/
def step (manager : LockManager) (call : LockCall) : LockManager := (manager.apply call).2

/-- The two records of a lock say the same, and a RID has a mode just when it has holders. -/
structure Agrees (manager : LockManager) : Prop where
  holders : ∀ txn rid, txn ∈ (manager.info rid).holders ↔ manager.hasLock txn rid = true
  mode : ∀ rid, (manager.info rid).lockType = .none ↔ (manager.info rid).holders = ∅

/-- A call that requests a lock. -/
def IsRequest : LockCall → Prop
  | .lockShared _ _ | .lockExclusive _ _ => True
  | .unlock _ _ => False

/-- A request that is refused leaves the table and the lock sets as they were. -/
def RefusesCleanly (manager : LockManager) : Prop :=
  ∀ call, IsRequest call → (manager.apply call).1 = false →
    (manager.step call).lockTable = manager.lockTable ∧
      (manager.step call).locksHeld = manager.locksHeld

theorem agrees_initial : Agrees {} where
  holders := by
    intro txn rid
    simp [info, hasLock]
    exact Finset.notMem_empty txn
  mode := by
    intro rid
    simp only [info, UnorderedMap.valueAt_empty]
    exact iff_of_true rfl rfl

/-! ## Requests -/

theorem hasLock_addLock {manager : LockManager} {txn holder : Transaction} {rid row : RID} :
    (manager.addLock txn rid).hasLock holder row = true ↔
      (holder = txn ∧ row = rid) ∨ manager.hasLock holder row = true := by
  unfold addLock hasLock
  by_cases same : holder = txn
  · subst same
    simp
  · simp [same]

/-- A granted request adds its RID to the lock set of its caller, unless the caller
held it before; a refused one adds nothing. -/
theorem hasLock_request (wanted refusing : LockType) (txn holder : Transaction) (rid row : RID)
    (manager : LockManager) :
    (request wanted refusing txn rid manager).2.hasLock holder row = true ↔
      (holder = txn ∧ row = rid ∧ txn ∉ (manager.info rid).holders ∧
        manager.Grants refusing txn rid) ∨ manager.hasLock holder row = true := by
  unfold request Grants info
  simp only [UnorderedMap.subscript_fst, isHeldByOthers_and_iff]
  by_cases held : txn ∈ (manager.lockTable.valueAt rid).holders
  · simp [held, hasLock]
  · rw [if_neg held]
    by_cases refused : Conflicts refusing (manager.lockTable.valueAt rid) txn
    · simp [held, refused, hasLock]
    · rw [if_neg refused]
      unfold grant
      rw [hasLock_addLock]
      simp [held, refused, hasLock]

/-- A request keeps the records together: it changes neither of them, or it adds the
same lock to both and records a mode. -/
theorem agrees_request {before after : LockManager} (agrees : before.Agrees)
    {wanted refusing : LockType} {txn : Transaction} {rid : RID} (real : wanted ≠ .none)
    (infoEq : ∀ row, after.info row = (request wanted refusing txn rid before).2.info row)
    (locksEq : after.locksHeld = (request wanted refusing txn rid before).2.locksHeld) :
    after.Agrees := by
  have hasLockEq : ∀ holder row, after.hasLock holder row =
      (request wanted refusing txn rid before).2.hasLock holder row := by
    intro holder row
    unfold hasLock
    rw [locksEq]
  constructor
  · intro holder row
    rw [hasLockEq, infoEq, hasLock_request, info_request, ← agrees.holders holder row]
    split
    · next added =>
      obtain ⟨rfl, absent, granted⟩ := added
      simp [absent, granted]
    · next unchanged =>
      constructor
      · exact .inr
      · rintro (⟨-, rowEq, absent, granted⟩ | already)
        · exact absurd ⟨rowEq, absent, granted⟩ unchanged
        · exact already
  · intro row
    rw [infoEq, info_request]
    split
    · exact iff_of_false real (Finset.insert_ne_empty _ _)
    · exact agrees.mode row

/-- A request neither reads nor changes the latch. -/
theorem request_setMutex (wanted refusing : LockType) (txn : Transaction) (rid : RID)
    (manager : LockManager) (mutex : Mutex) :
    request wanted refusing txn rid { manager with mtx := mutex } =
      ((request wanted refusing txn rid manager).1,
        { (request wanted refusing txn rid manager).2 with mtx := mutex }) := by
  unfold request
  dsimp only
  split
  · rfl
  · split <;> rfl

/-- Under the latch a request leaves the table and the lock sets that it leaves without it. -/
theorem guard_request (wanted refusing : LockType) (txn : Transaction) (rid : RID)
    (manager : LockManager) :
    (lockGuard (request wanted refusing txn rid) manager).2.lockTable =
        (request wanted refusing txn rid manager).2.lockTable ∧
      (lockGuard (request wanted refusing txn rid) manager).2.locksHeld =
        (request wanted refusing txn rid manager).2.locksHeld := by
  have locked := request_setMutex wanted refusing txn rid manager manager.mtx.lock
  constructor
  · exact congrArg (fun result => result.2.lockTable) locked
  · exact congrArg (fun result => result.2.locksHeld) locked

/-- Only a RID that has an entry is refused, so `operator[]` inserted nothing. -/
theorem request_of_refused {manager : LockManager} {wanted refusing : LockType}
    {txn : Transaction} {rid : RID} (real : refusing ≠ .none)
    (refused : ¬ manager.Grants refusing txn rid) :
    (request wanted refusing txn rid manager).2 = manager := by
  have notHeld : txn ∉ (manager.lockTable.valueAt rid).holders := fun held => refused (.inl held)
  have conflict : Conflicts refusing (manager.lockTable.valueAt rid) txn := by
    by_contra noConflict
    exact refused (.inr noConflict)
  obtain ⟨entry, found⟩ : ∃ entry, manager.lockTable.lookup rid = some entry := by
    cases found : manager.lockTable.lookup rid with
    | some entry => exact ⟨entry, rfl⟩
    | none =>
      have noMode : (manager.lockTable.valueAt rid).lockType = .none := by
        simp only [UnorderedMap.valueAt, found]
        rfl
      rw [conflict.2] at noMode
      exact absurd noMode real
  unfold request
  simp only [UnorderedMap.subscript_fst, isHeldByOthers_and_iff, if_neg notHeld, if_pos conflict,
    UnorderedMap.subscript_snd_of_lookup found]

/-! ## Releases -/

/-- `Unlock` takes the lock out of both records, and the mode with the last holder. -/
theorem agrees_unlock {manager : LockManager} (agrees : manager.Agrees) (txn : Transaction)
    (rid : RID) : (manager.unlock (some txn) rid).2.Agrees := by
  have locks : ∀ holder row, (manager.unlock (some txn) rid).2.hasLock holder row = true ↔
      ¬ (holder = txn ∧ row = rid) ∧ manager.hasLock holder row = true := by
    intro holder row
    change decide (row ∈ Function.update manager.locksHeld txn
      ((manager.locksHeld txn).erase rid) holder) = true ↔ _
    by_cases same : holder = txn
    · subst same
      simp [hasLock]
    · simp [same, hasLock]
  constructor
  · intro holder row
    rw [locks, info_unlock, ← agrees.holders holder row]
    by_cases sameRow : row = rid
    · subst sameRow
      simp [release]
    · simp [sameRow]
  · intro row
    rw [info_unlock]
    split
    · by_cases empty : (manager.info rid).holders.erase txn = ∅
      · exact iff_of_true (if_pos empty) empty
      · refine iff_of_false ?_ empty
        intro noMode
        have unlocked : (manager.info rid).lockType = .none := (if_neg empty).symm.trans noMode
        refine empty ?_
        rw [(agrees.mode rid).mp unlocked]
        exact Finset.erase_empty _
    · exact agrees.mode row

/-! ## Whole runs -/

/-- Every call keeps the records together. -/
theorem agrees_step {manager : LockManager} (agrees : manager.Agrees) (call : LockCall) :
    (manager.step call).Agrees := by
  match call with
  | .lockShared none rid => exact agrees
  | .lockExclusive none rid => exact agrees
  | .unlock none rid => exact agrees
  | .lockShared (some txn) rid =>
    exact agrees_request agrees (by decide) (manager.lockShared_some txn rid).2
      (guard_request .shared .exclusive txn rid manager).2
  | .lockExclusive (some txn) rid =>
    exact agrees_request agrees (by decide) (manager.lockExclusive_some txn rid).2
      (guard_request .exclusive .shared txn rid manager).2
  | .unlock (some txn) rid => exact agrees_unlock agrees txn rid

theorem guard_request_of_refused {manager : LockManager} {wanted refusing : LockType}
    {txn : Transaction} {rid : RID} (real : refusing ≠ .none)
    (refused : decide (manager.Grants refusing txn rid) = false) :
    (lockGuard (request wanted refusing txn rid) manager).2.lockTable = manager.lockTable ∧
      (lockGuard (request wanted refusing txn rid) manager).2.locksHeld = manager.locksHeld := by
  obtain ⟨tableEq, locksEq⟩ := guard_request wanted refusing txn rid manager
  rw [request_of_refused real (of_decide_eq_false refused)] at tableEq locksEq
  exact ⟨tableEq, locksEq⟩

theorem refusesCleanly (manager : LockManager) : manager.RefusesCleanly := by
  intro call isRequest refused
  match call with
  | .lockShared none rid => exact ⟨rfl, rfl⟩
  | .lockExclusive none rid => exact ⟨rfl, rfl⟩
  | .lockShared (some txn) rid =>
    exact guard_request_of_refused (by decide)
      ((manager.lockShared_some txn rid).1.symm.trans refused)
  | .lockExclusive (some txn) rid =>
    exact guard_request_of_refused (by decide)
      ((manager.lockExclusive_some txn rid).1.symm.trans refused)

/-- In every state that calls on an empty lock manager reach, the holders of a RID
are the transactions that have its lock, a RID without holders is the one of mode
`NONE`, and a refused request changes nothing. -/
theorem throughout_agrees (calls : List LockCall) :
    Throughout step (fun manager =>
      (∀ txn rid, txn ∈ (manager.info rid).holders ↔ manager.hasLock txn rid = true) ∧
      (∀ rid, (manager.getLockType rid).1 = "NONE" ↔ (manager.info rid).holders = ∅) ∧
      manager.RefusesCleanly) {} calls := by
  refine @throughout_of_invariant _ _ step Agrees _ ?_ ?_ _ agrees_initial calls
  · intro manager call agrees
    exact agrees_step agrees call
  intro manager agrees
  refine ⟨agrees.holders, fun rid => ?_, manager.refusesCleanly⟩
  rw [getLockType_fst, ← agrees.mode rid]
  exact LockType.text_injective.eq_iff (a := (manager.info rid).lockType) (b := .none)

end LockManager

end MiniDB.Concurrency
