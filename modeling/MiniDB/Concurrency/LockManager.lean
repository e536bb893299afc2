import MiniDB.Foundation.Mutex
import MiniDB.Foundation.UnorderedMap
import MiniDB.Common.Types
import Mathlib.Data.Finset.Basic

/-!
# The lock manager

`LockManager` keeps one recorded mode and one set of holders for each RID; the
transactions keep the RIDs they hold. A request never waits: it is granted or
refused on the spot. `LockInfo::wait_queue` is never read or written by the
source and is left out.
-/

namespace MiniDB.Concurrency

open Foundation

/-- The identity of a `Transaction` object, which is what a `Transaction*` compares. -/
abbrev Transaction := Nat

/-- `LockType`. -/
inductive LockType where
  | none
  | shared
  | exclusive
deriving DecidableEq, Repr

/-- The texts of `GetLockType`. -/
def LockType.text : LockType → String
  | .shared => "SHARED"
  | .exclusive => "EXCLUSIVE"
  | .none => "NONE"

theorem LockType.text_injective : Function.Injective LockType.text := by
  intro first second
  cases first <;> cases second <;> decide

/-- `LockInfo`: the recorded mode of a RID and the transactions that hold it. -/
structure LockInfo where
  lockType : LockType := .none
  holders : Finset Transaction := ∅
deriving DecidableEq

instance : Inhabited LockInfo := ⟨{}⟩

/-- The lock manager with the lock sets of the transactions it changes. -/
structure LockManager where
  lockTable : UnorderedMap RID LockInfo := ∅
  mtx : Mutex := .unlocked
  /-- `Transaction::locks_held_` of every transaction. -/
  locksHeld : Transaction → Finset RID := fun _ => ∅

namespace LockManager

instance : Guarded LockManager where
  mutex manager := manager.mtx
  setMutex manager mutex := { manager with mtx := mutex }

/-- The entry of a RID, with the default for a RID never asked for. -/
def info (manager : LockManager) (rid : RID) : LockInfo := manager.lockTable.valueAt rid

/-- `Transaction::HasLock`. -/
def hasLock (manager : LockManager) (txn : Transaction) (rid : RID) : Bool :=
  decide (rid ∈ manager.locksHeld txn)

/-- `Transaction::AddLock`. -/
def addLock (manager : LockManager) (txn : Transaction) (rid : RID) : LockManager :=
  let locks := insert rid (manager.locksHeld txn)
  { manager with locksHeld := Function.update manager.locksHeld txn locks }

/-- `Transaction::RemoveLock`. -/
def removeLock (manager : LockManager) (txn : Transaction) (rid : RID) : LockManager :=
  let locks := (manager.locksHeld txn).erase rid
  { manager with locksHeld := Function.update manager.locksHeld txn locks }

/-- `LockManager::GetLockType`. -/
def getLockType (manager : LockManager) (rid : RID) : String × LockManager :=
  lockGuard (fun manager =>
    (match manager.lockTable.lookup rid with
      | .none => "NONE"
      | some info =>
        match info.lockType with
        | .shared => "SHARED"
        | .exclusive => "EXCLUSIVE"
        | .none => "NONE", manager)) manager

/-- The loop over `holders` that looks for a transaction other than the caller. -/
def isHeldByOthers (info : LockInfo) (txn : Transaction) : Bool :=
  decide (∃ holder ∈ info.holders, holder ≠ txn)

/-- Record a grant: the entry takes `lockType` and the caller, the caller takes the RID. -/
def grant (manager : LockManager) (txn : Transaction) (rid : RID) (info : LockInfo)
    (lockType : LockType) : LockManager :=
  let info : LockInfo := { lockType, holders := insert txn info.holders }
  addLock { manager with lockTable := manager.lockTable.insert rid info } txn rid

/-- The body shared by `LockShared` and `LockExclusive`: the two differ in the
mode they record and in the mode of other holders that makes them refuse. -/
def request (wanted refusing : LockType) (txn : Transaction) (rid : RID)
    (manager : LockManager) : Bool × LockManager :=
  let (info, lockTable) := manager.lockTable.subscript rid
  let manager := { manager with lockTable }
  if txn ∈ info.holders then
    (true, manager)
  else if isHeldByOthers info txn && decide (info.lockType = refusing) then
    (false, manager)
  else
    (true, manager.grant txn rid info wanted)

/-- `LockManager::LockShared`; a null transaction is refused before the latch. -/
def lockShared (manager : LockManager) (txn : Option Transaction) (rid : RID) :
    Bool × LockManager :=
  match txn with
  | .none => (false, manager)
  | some currTxn => lockGuard (request .shared .exclusive currTxn rid) manager

/-- `LockManager::LockExclusive`. Other holders make it refuse only when the
recorded mode is `SHARED`. -/
def lockExclusive (manager : LockManager) (txn : Option Transaction) (rid : RID) :
    Bool × LockManager :=
  match txn with
  | .none => (false, manager)
  | some currTxn => lockGuard (request .exclusive .shared currTxn rid) manager

/-- The entry that `Unlock` leaves behind: one holder fewer, and no mode without holders. -/
def release (info : LockInfo) (txn : Transaction) : LockInfo :=
  let holders := info.holders.erase txn
  { lockType := if holders = ∅ then .none else info.lockType, holders }

/-- The lock table after `Unlock`; a RID without an entry gets none. -/
def eraseHolder (lockTable : UnorderedMap RID LockInfo) (rid : RID) (txn : Transaction) :
    UnorderedMap RID LockInfo :=
  match lockTable.lookup rid with
  | .none => lockTable
  | some info => lockTable.insert rid (release info txn)

/-- `LockManager::Unlock`. -/
def unlock (manager : LockManager) (txn : Option Transaction) (rid : RID) :
    Bool × LockManager :=
  match txn with
  | .none => (false, manager)
  | some currTxn =>
    lockGuard (fun manager =>
      let lockTable := eraseHolder manager.lockTable rid currTxn
      (true, removeLock { manager with lockTable } currTxn rid)) manager

/-! ## What one call does to an entry -/

/-- Someone else holds the RID in the mode that makes the request refuse. -/
def Conflicts (refusing : LockType) (info : LockInfo) (txn : Transaction) : Prop :=
  (∃ holder ∈ info.holders, holder ≠ txn) ∧ info.lockType = refusing

instance (refusing : LockType) (info : LockInfo) (txn : Transaction) :
    Decidable (Conflicts refusing info txn) := inferInstanceAs (Decidable (_ ∧ _))

theorem isHeldByOthers_and_iff {refusing : LockType} {info : LockInfo} {txn : Transaction} :
    (isHeldByOthers info txn && decide (info.lockType = refusing)) = true ↔
      Conflicts refusing info txn := by
  simp [isHeldByOthers, Conflicts]

/-- When a request is granted. -/
def Grants (refusing : LockType) (manager : LockManager) (txn : Transaction) (rid : RID) : Prop :=
  txn ∈ (manager.info rid).holders ∨ ¬ Conflicts refusing (manager.info rid) txn

instance (refusing : LockType) (manager : LockManager) (txn : Transaction) (rid : RID) :
    Decidable (Grants refusing manager txn rid) := inferInstanceAs (Decidable (_ ∨ _))

theorem request_fst (wanted refusing : LockType) (txn : Transaction) (rid : RID)
    (manager : LockManager) :
    (request wanted refusing txn rid manager).1 = decide (manager.Grants refusing txn rid) := by
  unfold request Grants info
  simp only [UnorderedMap.subscript_fst, isHeldByOthers_and_iff]
  split
  · next held => simp [held]
  · next notHeld =>
    split
    · next refused => simp [notHeld, refused]
    · next granted => simp [granted]

/-- A request changes at most the entry of its own RID, and that only when the
caller did not hold it and the request is granted. -/
theorem info_request (wanted refusing : LockType) (txn : Transaction) (rid other : RID)
    (manager : LockManager) :
    (request wanted refusing txn rid manager).2.info other =
      if other = rid ∧ txn ∉ (manager.info rid).holders ∧ manager.Grants refusing txn rid then
        { lockType := wanted, holders := insert txn (manager.info rid).holders }
      else manager.info other := by
  unfold request Grants info
  simp only [UnorderedMap.subscript_fst, isHeldByOthers_and_iff]
  by_cases held : txn ∈ (manager.lockTable.valueAt rid).holders
  · simp [held]
  · rw [if_neg held]
    by_cases refused : Conflicts refusing (manager.lockTable.valueAt rid) txn
    · simp [held, refused]
    · by_cases same : other = rid
      · simp [held, refused, same, grant, addLock]
      · simp [refused, same, grant, addLock, UnorderedMap.valueAt_insert_of_ne same]

/-- `LockShared` reads and writes entries as `request` does: the latch is not part of them. -/
theorem lockShared_some (manager : LockManager) (txn : Transaction) (rid : RID) :
    (manager.lockShared (some txn) rid).1 = decide (manager.Grants .exclusive txn rid) ∧
      ∀ other, (manager.lockShared (some txn) rid).2.info other =
        (request .shared .exclusive txn rid manager).2.info other := by
  constructor
  · exact request_fst .shared .exclusive txn rid _
  · intro other
    rw [info_request]
    exact info_request .shared .exclusive txn rid other _

theorem lockExclusive_some (manager : LockManager) (txn : Transaction) (rid : RID) :
    (manager.lockExclusive (some txn) rid).1 = decide (manager.Grants .shared txn rid) ∧
      ∀ other, (manager.lockExclusive (some txn) rid).2.info other =
        (request .exclusive .shared txn rid manager).2.info other := by
  constructor
  · exact request_fst .exclusive .shared txn rid _
  · intro other
    rw [info_request]
    exact info_request .exclusive .shared txn rid other _

/-- `GetLockType` names the recorded mode, `NONE` for a RID without an entry. -/
theorem getLockType_fst (manager : LockManager) (rid : RID) :
    (manager.getLockType rid).1 = (manager.info rid).lockType.text := by
  change (match manager.lockTable.lookup rid with
    | .none => "NONE"
    | some info => _) = ((manager.lockTable.lookup rid).getD default).lockType.text
  cases manager.lockTable.lookup rid with
  | none => rfl
  | some entry =>
    obtain ⟨lockType, holders⟩ := entry
    cases lockType <;> rfl

/-- `Unlock` releases the caller's hold on the RID and touches no other entry. -/
theorem info_unlock (manager : LockManager) (txn : Transaction) (rid other : RID) :
    (manager.unlock (some txn) rid).2.info other =
      if other = rid then release (manager.info rid) txn else manager.info other := by
  change (eraseHolder manager.lockTable rid txn).valueAt other = _
  unfold eraseHolder
  split
  · next absent =>
    have emptyEntry : manager.info rid = default := by simp [info, UnorderedMap.valueAt, absent]
    split
    · next same =>
      subst same
      rw [emptyEntry]
      exact emptyEntry
    · rfl
  · next entry present =>
    have entryEq : manager.info rid = entry := by simp [info, UnorderedMap.valueAt, present]
    rw [UnorderedMap.valueAt_insert, entryEq]
    rfl

end LockManager

end MiniDB.Concurrency
