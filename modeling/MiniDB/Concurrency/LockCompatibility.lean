import MiniDB.Foundation.Run
import MiniDB.Concurrency.LockManager

/-!
# Lock compatibility over runs

`LockHistory` adds to the manager what its callers know: which requests were
granted and not unlocked since. `throughout_compatible_iff` finds the calls
that break the compatibility of an exclusive lock. There are two kinds: an
exclusive request that is granted over another holder, and a shared request
granted beside an exclusive lock that the table does not record as one.
-/

namespace MiniDB.Concurrency

open Foundation

/-- The calls of the lock manager; a null transaction is `none`. -/
inductive LockCall where
  | lockShared (txn : Option Transaction) (rid : RID)
  | lockExclusive (txn : Option Transaction) (rid : RID)
  | unlock (txn : Option Transaction) (rid : RID)
deriving DecidableEq

/-- A lock manager together with the locks its callers have been granted. -/
structure LockHistory where
  manager : LockManager := {}
  /-- A request of the transaction returned true, and it has not unlocked since. -/
  granted : Transaction → RID → Bool := fun _ _ => false
  /-- A `LockExclusive` of the transaction returned true, and it has not unlocked since. -/
  exclusive : Transaction → RID → Bool := fun _ _ => false

namespace LockHistory

/-- Note a grant or an unlock of one transaction on one RID. -/
def note (locks : Transaction → RID → Bool) (txn : Transaction) (rid : RID) (value : Bool) :
    Transaction → RID → Bool :=
  fun holder row => if holder = txn ∧ row = rid then value else locks holder row

/-- One call, with its outcome noted. -/
def step (history : LockHistory) : LockCall → LockHistory
  | .lockShared none rid => { history with manager := (history.manager.lockShared none rid).2 }
  | .lockShared (some txn) rid =>
    let (ok, manager) := history.manager.lockShared (some txn) rid
    { history with
      manager
      granted := if ok then note history.granted txn rid true else history.granted }
  | .lockExclusive none rid =>
    { history with manager := (history.manager.lockExclusive none rid).2 }
  | .lockExclusive (some txn) rid =>
    let (ok, manager) := history.manager.lockExclusive (some txn) rid
    { manager
      granted := if ok then note history.granted txn rid true else history.granted
      exclusive := if ok then note history.exclusive txn rid true else history.exclusive }
  | .unlock none rid => { history with manager := (history.manager.unlock none rid).2 }
  | .unlock (some txn) rid =>
    { manager := (history.manager.unlock (some txn) rid).2
      granted := note history.granted txn rid false
      exclusive := note history.exclusive txn rid false }

/-- Whoever was granted an exclusive lock is alone on the RID. -/
def Compatible (history : LockHistory) : Prop :=
  ∀ txn rid, history.exclusive txn rid = true →
    ∀ other, other ≠ txn → history.granted other rid = false

/-- The calls after which an exclusive lock is still alone. `LockExclusive` goes
wrong when another transaction holds the RID, unless the caller does not hold it
and the recorded mode is `SHARED`. `LockShared` goes wrong when a newcomer meets
an exclusive lock whose recorded mode is not `EXCLUSIVE`. -/
def Admits (history : LockHistory) : LockCall → Prop
  | .lockShared (some txn) rid =>
    ¬ (txn ∉ (history.manager.info rid).holders ∧
      (history.manager.info rid).lockType ≠ .exclusive ∧
      ∃ other ∈ (history.manager.info rid).holders,
        other ≠ txn ∧ history.exclusive other rid = true)
  | .lockExclusive (some txn) rid =>
    ¬ ((∃ other ∈ (history.manager.info rid).holders, other ≠ txn) ∧
      (txn ∈ (history.manager.info rid).holders ∨ (history.manager.info rid).lockType ≠ .shared))
  | _ => True

instance (history : LockHistory) : (call : LockCall) → Decidable (history.Admits call)
  | .lockShared none _ => inferInstanceAs (Decidable True)
  | .lockShared (some _) _ => inferInstanceAs (Decidable (¬ _))
  | .lockExclusive none _ => inferInstanceAs (Decidable True)
  | .lockExclusive (some _) _ => inferInstanceAs (Decidable (¬ _))
  | .unlock none _ => inferInstanceAs (Decidable True)
  | .unlock (some _) _ => inferInstanceAs (Decidable True)

/-- The holders recorded in the table are the transactions with a granted lock. -/
structure Tracks (history : LockHistory) : Prop where
  holders : ∀ txn rid, history.granted txn rid = true ↔
    txn ∈ (history.manager.info rid).holders
  exclusive : ∀ txn rid, history.exclusive txn rid = true → history.granted txn rid = true

theorem tracks_initial : Tracks {} where
  holders := by
    intro txn rid
    simp [LockManager.info]
    exact Finset.notMem_empty txn
  exclusive := by simp

/-- Without locks none is beside an exclusive one. -/
theorem compatible_initial : Compatible {} := by simp [Compatible]

@[simp] theorem note_self {locks : Transaction → RID → Bool} {txn : Transaction} {rid : RID}
    {value : Bool} : note locks txn rid value txn rid = value := by
  simp [note]

/-- What is noted of one lock leaves the others. -/
theorem note_of_ne {locks : Transaction → RID → Bool} {txn holder : Transaction} {rid row : RID}
    {value : Bool} (different : ¬ (holder = txn ∧ row = rid)) :
    note locks txn rid value holder row = locks holder row := by
  simp [note, different]

/-! ## One request -/

/-- Noting a granted request keeps the table and the grants together: the
request either changes nothing or adds its caller to the holders of its RID. -/
theorem holders_request {history : LockHistory} (tracks : history.Tracks)
    {wanted refusing : LockType} {txn : Transaction} {rid : RID}
    (granted : history.manager.Grants refusing txn rid) (holder : Transaction) (row : RID) :
    note history.granted txn rid true holder row = true ↔
      holder ∈ ((LockManager.request wanted refusing txn rid history.manager).2.info row).holders := by
  rw [LockManager.info_request]
  by_cases sameRow : row = rid
  · subst sameRow
    by_cases held : txn ∈ (history.manager.info row).holders
    · by_cases same : holder = txn
      · subst same
        simp [held]
      · rw [note_of_ne (fun both => same both.1), tracks.holders]
        simp [held]
    · by_cases same : holder = txn
      · subst same
        simp [held, granted]
      · rw [note_of_ne (fun both => same both.1), tracks.holders]
        simp [held, granted, same]
  · rw [note_of_ne (fun both => sameRow both.2), tracks.holders]
    simp [sameRow]

/-- A refused request leaves every entry as it was. -/
theorem info_of_refused {manager : LockManager} {wanted refusing : LockType} {txn : Transaction}
    {rid : RID} (refused : ¬ manager.Grants refusing txn rid) (row : RID) :
    (LockManager.request wanted refusing txn rid manager).2.info row = manager.info row := by
  rw [LockManager.info_request, if_neg]
  rintro ⟨-, -, granted⟩
  exact refused granted

/-- The step of a request by a transaction, in terms of whether it is granted. -/
theorem step_lockShared (history : LockHistory) (txn : Transaction) (rid : RID) :
    (history.step (.lockShared (some txn) rid)).granted =
        (if history.manager.Grants .exclusive txn rid then note history.granted txn rid true
          else history.granted) ∧
      (history.step (.lockShared (some txn) rid)).exclusive = history.exclusive := by
  simp [step, (history.manager.lockShared_some txn rid).1]

/-- What `LockExclusive` grants. -/
theorem step_lockExclusive (history : LockHistory) (txn : Transaction) (rid : RID) :
    (history.step (.lockExclusive (some txn) rid)).granted =
        (if history.manager.Grants .shared txn rid then note history.granted txn rid true
          else history.granted) ∧
      (history.step (.lockExclusive (some txn) rid)).exclusive =
        (if history.manager.Grants .shared txn rid then note history.exclusive txn rid true
          else history.exclusive) := by
  simp [step, (history.manager.lockExclusive_some txn rid).1]

/-- A request of either mode keeps the table and the grants together: its grant is
noted, and it makes a lock exclusive only by being granted. -/
theorem tracks_request {before after : LockHistory} (tracks : before.Tracks)
    {wanted refusing : LockType} {txn : Transaction} {rid : RID}
    (infoEq : ∀ row, after.manager.info row =
      (LockManager.request wanted refusing txn rid before.manager).2.info row)
    (grantedEq : after.granted =
      if before.manager.Grants refusing txn rid then note before.granted txn rid true
      else before.granted)
    (exclusive : ∀ holder row, after.exclusive holder row = true →
      before.exclusive holder row = true ∨
        before.manager.Grants refusing txn rid ∧ holder = txn ∧ row = rid) : after.Tracks := by
  refine ⟨fun holder row => ?_, fun holder row held => ?_⟩
  · rw [grantedEq, infoEq]
    by_cases granted : before.manager.Grants refusing txn rid
    · rw [if_pos granted]
      exact holders_request tracks granted holder row
    · rw [if_neg granted, tracks.holders, info_of_refused granted]
  · rw [grantedEq]
    rcases exclusive holder row held with already | ⟨granted, rfl, rfl⟩
    · have kept := tracks.exclusive holder row already
      split
      · unfold note
        split
        · rfl
        · exact kept
      · exact kept
    · rw [if_pos granted, note_self]

/-- `Unlock` keeps grants and holders in step. -/
theorem tracks_unlock {history : LockHistory} (tracks : history.Tracks) (txn : Transaction)
    (rid : RID) : (history.step (.unlock (some txn) rid)).Tracks := by
  refine ⟨fun holder row => ?_, fun holder row held => ?_⟩
  · change note history.granted txn rid false holder row = true ↔
      holder ∈ ((history.manager.unlock (some txn) rid).2.info row).holders
    rw [LockManager.info_unlock]
    by_cases sameRow : row = rid
    · subst sameRow
      by_cases same : holder = txn
      · subst same
        simp [LockManager.release]
      · rw [note_of_ne (fun both => same both.1), tracks.holders]
        simp [LockManager.release, same]
    · rw [note_of_ne (fun both => sameRow both.2), tracks.holders, if_neg sameRow]
  · change note history.exclusive txn rid false holder row = true at held
    change note history.granted txn rid false holder row = true
    unfold note at held ⊢
    split
    · next same => simp [same] at held
    · next different =>
      rw [if_neg different] at held
      exact tracks.exclusive holder row held

/-- Every call keeps the table and the grants together. -/
theorem tracks_step {history : LockHistory} (tracks : history.Tracks) (call : LockCall) :
    (history.step call).Tracks := by
  match call with
  | .lockShared none rid => exact tracks
  | .lockExclusive none rid => exact tracks
  | .unlock none rid => exact tracks
  | .lockShared (some txn) rid =>
    obtain ⟨grantedEq, exclusiveEq⟩ := step_lockShared history txn rid
    refine tracks_request tracks (history.manager.lockShared_some txn rid).2 grantedEq ?_
    intro holder row held
    exact .inl (exclusiveEq ▸ held)
  | .lockExclusive (some txn) rid =>
    obtain ⟨grantedEq, exclusiveEq⟩ := step_lockExclusive history txn rid
    refine tracks_request tracks (history.manager.lockExclusive_some txn rid).2 grantedEq ?_
    intro holder row held
    rw [exclusiveEq] at held
    split at held
    · next granted =>
      by_cases new : holder = txn ∧ row = rid
      · exact .inr ⟨granted, new⟩
      · rw [note_of_ne new] at held
        exact .inl held
    · exact .inl held
  | .unlock (some txn) rid => exact tracks_unlock tracks txn rid

/-! ## Which calls keep exclusive locks alone -/

/-- After a granted shared request, exclusive locks are alone just when no other
transaction has one on the RID. -/
theorem compatible_shared_grant {before after : LockHistory} {txn : Transaction} {rid : RID}
    (compatible : before.Compatible) (grantedEq : after.granted = note before.granted txn rid true)
    (exclusiveEq : after.exclusive = before.exclusive) :
    after.Compatible ↔ ∀ other, other ≠ txn → before.exclusive other rid = false := by
  constructor
  · intro alone other different
    by_contra held
    have exclusiveHeld : after.exclusive other rid = true := by
      rw [exclusiveEq]
      simpa using held
    have absent := alone other rid exclusiveHeld txn (Ne.symm different)
    rw [grantedEq, note_self] at absent
    cases absent
  · intro noOther holder row exclusiveHeld other different
    rw [exclusiveEq] at exclusiveHeld
    rw [grantedEq, note_of_ne]
    · exact compatible holder row exclusiveHeld other different
    · rintro ⟨rfl, rfl⟩
      rw [noOther holder (Ne.symm different)] at exclusiveHeld
      cases exclusiveHeld

/-- After a granted exclusive request, exclusive locks are alone just when no
other transaction held the RID. -/
theorem compatible_exclusive_grant {before after : LockHistory} {txn : Transaction} {rid : RID}
    (compatible : before.Compatible) (tracks : before.Tracks)
    (grantedEq : after.granted = note before.granted txn rid true)
    (exclusiveEq : after.exclusive = note before.exclusive txn rid true) :
    after.Compatible ↔ ∀ other, other ≠ txn → before.granted other rid = false := by
  constructor
  · intro alone other different
    have absent := alone txn rid (by rw [exclusiveEq, note_self]) other different
    rwa [grantedEq, note_of_ne (fun both => different both.1)] at absent
  · intro noOther holder row exclusiveHeld other different
    by_cases newLock : holder = txn ∧ row = rid
    · obtain ⟨rfl, rfl⟩ := newLock
      rw [grantedEq, note_of_ne (fun both => different both.1)]
      exact noOther other different
    · rw [exclusiveEq, note_of_ne newLock] at exclusiveHeld
      rw [grantedEq, note_of_ne]
      · exact compatible holder row exclusiveHeld other different
      · rintro ⟨rfl, rfl⟩
        have holds := tracks.exclusive holder row exclusiveHeld
        rw [noOther holder (Ne.symm different)] at holds
        cases holds

/-- `LockShared` keeps exclusive locks alone exactly if it is admitted. -/
theorem compatible_lockShared {history : LockHistory} (tracks : history.Tracks)
    (compatible : history.Compatible) (txn : Transaction) (rid : RID) :
    (history.step (.lockShared (some txn) rid)).Compatible ↔
      history.Admits (.lockShared (some txn) rid) := by
  obtain ⟨grantedEq, exclusiveEq⟩ := step_lockShared history txn rid
  have holds_of_exclusive : ∀ other, history.exclusive other rid = true →
      other ∈ (history.manager.info rid).holders := fun other held =>
    (tracks.holders other rid).mp (tracks.exclusive other rid held)
  by_cases granted : history.manager.Grants .exclusive txn rid
  · rw [if_pos granted] at grantedEq
    rw [compatible_shared_grant compatible grantedEq exclusiveEq]
    constructor
    · rintro noOther ⟨-, -, other, -, different, held⟩
      rw [noOther other different] at held
      cases held
    · intro admitted other different
      by_contra exclusiveHeld
      have held : history.exclusive other rid = true := by simpa using exclusiveHeld
      rcases granted with member | noConflict
      · have absent := compatible other rid held txn (Ne.symm different)
        rw [(tracks.holders txn rid).mpr member] at absent
        cases absent
      · have memberOther := holds_of_exclusive other held
        refine admitted ⟨?_, ?_, other, memberOther, different, held⟩
        · intro member
          have absent := compatible other rid held txn (Ne.symm different)
          rw [(tracks.holders txn rid).mpr member] at absent
          cases absent
        · intro exclusiveMode
          exact noConflict ⟨⟨other, memberOther, different⟩, exclusiveMode⟩
  · rw [if_neg granted] at grantedEq
    have unchanged : (history.step (.lockShared (some txn) rid)).Compatible := by
      intro holder row exclusiveHeld other different
      rw [exclusiveEq] at exclusiveHeld
      rw [grantedEq]
      exact compatible holder row exclusiveHeld other different
    refine iff_of_true unchanged ?_
    rintro ⟨-, sharedMode, -⟩
    exact granted (.inr fun conflict => sharedMode conflict.2)

/-- `LockExclusive` keeps exclusive locks alone exactly if it is admitted. -/
theorem compatible_lockExclusive {history : LockHistory} (tracks : history.Tracks)
    (compatible : history.Compatible) (txn : Transaction) (rid : RID) :
    (history.step (.lockExclusive (some txn) rid)).Compatible ↔
      history.Admits (.lockExclusive (some txn) rid) := by
  obtain ⟨grantedEq, exclusiveEq⟩ := step_lockExclusive history txn rid
  by_cases granted : history.manager.Grants .shared txn rid
  · rw [if_pos granted] at grantedEq exclusiveEq
    rw [compatible_exclusive_grant compatible tracks grantedEq exclusiveEq]
    constructor
    · rintro noOther ⟨⟨other, member, different⟩, -⟩
      have held := (tracks.holders other rid).mpr member
      rw [noOther other different] at held
      cases held
    · intro admitted other different
      by_contra otherHeld
      have member := (tracks.holders other rid).mp (by simpa using otherHeld)
      refine admitted ⟨⟨other, member, different⟩, ?_⟩
      rcases granted with own | noConflict
      · exact .inl own
      · exact .inr fun sharedMode => noConflict ⟨⟨other, member, different⟩, sharedMode⟩
  · rw [if_neg granted] at grantedEq exclusiveEq
    have unchanged : (history.step (.lockExclusive (some txn) rid)).Compatible := by
      intro holder row exclusiveHeld other different
      rw [exclusiveEq] at exclusiveHeld
      rw [grantedEq]
      exact compatible holder row exclusiveHeld other different
    refine iff_of_true unchanged ?_
    rintro ⟨-, own | notShared⟩
    · exact granted (.inl own)
    · exact granted (.inr fun conflict => notShared conflict.2)

/-- An unlock only takes locks away. -/
theorem compatible_unlock {history : LockHistory} (compatible : history.Compatible)
    (txn : Transaction) (rid : RID) : (history.step (.unlock (some txn) rid)).Compatible := by
  intro holder row exclusiveHeld other different
  change note history.exclusive txn rid false holder row = true at exclusiveHeld
  change note history.granted txn rid false other row = false
  unfold note at exclusiveHeld ⊢
  split
  · rfl
  · split at exclusiveHeld
    · cases exclusiveHeld
    · exact compatible holder row exclusiveHeld other different

/-- So it is with every call. -/
theorem compatible_step_iff {history : LockHistory} (tracks : history.Tracks)
    (compatible : history.Compatible) (call : LockCall) :
    (history.step call).Compatible ↔ history.Admits call := by
  match call with
  | .lockShared none rid => exact iff_of_true compatible trivial
  | .lockExclusive none rid => exact iff_of_true compatible trivial
  | .unlock none rid => exact iff_of_true compatible trivial
  | .lockShared (some txn) rid => exact compatible_lockShared tracks compatible txn rid
  | .lockExclusive (some txn) rid => exact compatible_lockExclusive tracks compatible txn rid
  | .unlock (some txn) rid => exact iff_of_true (compatible_unlock compatible txn rid) trivial

/-- Over every sequence of calls on an empty lock manager, exclusive locks are
alone in every state exactly when every call is one that `Admits` allows. -/
theorem throughout_compatible_iff (calls : List LockCall) :
    Throughout step Compatible {} calls ↔ EachCall step Admits {} calls :=
  throughout_iff_eachCall (fun _ call tracks compatible => compatible_step_iff tracks compatible call)
    (fun _ call tracks _ _ => tracks_step tracks call) tracks_initial compatible_initial

/-- Two transactions are both granted an exclusive lock on the same RID. -/
theorem two_exclusive_holders :
    ¬ Compatible (run step {}
      [.lockExclusive (some 1) ⟨0, 0⟩, .lockExclusive (some 2) ⟨0, 0⟩]) := by
  intro compatible
  have alone := compatible 1 ⟨0, 0⟩ (by decide) 2 (by decide)
  revert alone
  decide

end LockHistory

end MiniDB.Concurrency
