import MiniDB.Concurrency.LockAgreement

/-!
# Recorded modes and upgrades

A request by a transaction that already holds the RID returns before the mode is
looked at. For a repeated request that is harmless; for an upgrade it grants an
exclusive lock that the table goes on recording as `SHARED`, whoever shares the
RID. `throughout_reflects_iff` shows that upgrades are the only such calls.
-/

namespace MiniDB.Concurrency

open Foundation

namespace LockHistory

/-- Every granted exclusive lock is recorded as one. -/
def Reflects (history : LockHistory) : Prop :=
  ∀ txn rid, history.exclusive txn rid = true →
    (history.manager.getLockType rid).1 = "EXCLUSIVE"

/-- The transaction was granted the RID in shared mode only. -/
def Shares (history : LockHistory) (txn : Transaction) (rid : RID) : Prop :=
  history.granted txn rid = true ∧ history.exclusive txn rid = false

instance (history : LockHistory) (txn : Transaction) (rid : RID) :
    Decidable (history.Shares txn rid) := inferInstanceAs (Decidable (_ ∧ _))

/-- An exclusive request for a RID that the caller shares with another is refused. -/
def RefusesSharer (history : LockHistory) : LockCall → Prop
  | .lockExclusive (some txn) rid =>
    history.granted txn rid = true → (∃ other, other ≠ txn ∧ history.Shares other rid) →
      (history.manager.lockExclusive (some txn) rid).1 = false
  | _ => True

/-- The call does not ask for the upgrade of a lock that the caller holds in shared mode. -/
def NoUpgrade (history : LockHistory) : LockCall → Prop
  | .lockExclusive (some txn) rid => ¬ history.Shares txn rid
  | _ => True

instance (history : LockHistory) : (call : LockCall) → Decidable (history.NoUpgrade call)
  | .lockShared none _ => inferInstanceAs (Decidable True)
  | .lockShared (some _) _ => inferInstanceAs (Decidable True)
  | .lockExclusive none _ => inferInstanceAs (Decidable True)
  | .lockExclusive (some _) _ => inferInstanceAs (Decidable (¬ _))
  | .unlock none _ => inferInstanceAs (Decidable True)
  | .unlock (some _) _ => inferInstanceAs (Decidable True)

/-- What holds beside `Reflects` as long as nobody upgrades. -/
structure Records (history : LockHistory) : Prop where
  tracks : history.Tracks
  agrees : history.manager.Agrees
  /-- All holders of a RID recorded as exclusive have exclusive locks. -/
  exclusive : ∀ txn rid, (history.manager.info rid).lockType = .exclusive →
    history.granted txn rid = true → history.exclusive txn rid = true

theorem reflects_iff {history : LockHistory} : history.Reflects ↔
    ∀ txn rid, history.exclusive txn rid = true →
      (history.manager.info rid).lockType = .exclusive := by
  have mode : ∀ rid, (history.manager.getLockType rid).1 = "EXCLUSIVE" ↔
      (history.manager.info rid).lockType = .exclusive := by
    intro rid
    rw [LockManager.getLockType_fst]
    exact LockType.text_injective.eq_iff (a := (history.manager.info rid).lockType)
      (b := .exclusive)
  simp only [Reflects, mode]

theorem records_initial : Records {} where
  tracks := tracks_initial
  agrees := LockManager.agrees_initial
  exclusive := by simp

theorem reflects_initial : Reflects {} := by simp [Reflects]

/-- The history and the manager take the same step. -/
theorem manager_step (history : LockHistory) (call : LockCall) :
    (history.step call).manager = history.manager.step call := by
  match call with
  | .lockShared none _ | .lockExclusive none _ | .unlock none _ => rfl
  | .lockShared (some _) _ | .lockExclusive (some _) _ | .unlock (some _) _ => rfl

theorem agrees_history_step {history : LockHistory} (agrees : history.manager.Agrees)
    (call : LockCall) : (history.step call).manager.Agrees := by
  rw [manager_step]
  exact LockManager.agrees_step agrees call

/-- A held RID has a mode. -/
theorem Records.mode_ne_none {history : LockHistory} (records : history.Records)
    {txn : Transaction} {rid : RID} (held : txn ∈ (history.manager.info rid).holders) :
    (history.manager.info rid).lockType ≠ .none := by
  intro noMode
  rw [(records.agrees.mode rid).mp noMode] at held
  exact Finset.notMem_empty txn held

/-! ## Shared requests -/

/-- A granted shared request by a newcomer finds no exclusive lock on the RID. -/
theorem Records.not_exclusive_of_shared_grant {history : LockHistory} (records : history.Records)
    (reflects : history.Reflects) {txn : Transaction} {rid : RID}
    (absent : txn ∉ (history.manager.info rid).holders)
    (granted : history.manager.Grants .exclusive txn rid) (holder : Transaction) :
    history.exclusive holder rid = false := by
  by_contra held
  have exclusiveHeld : history.exclusive holder rid = true := by simpa using held
  have member := (records.tracks.holders holder rid).mp
    (records.tracks.exclusive holder rid exclusiveHeld)
  have different : holder ≠ txn := by
    rintro rfl
    exact absent member
  have noConflict := granted.resolve_left absent
  exact noConflict ⟨⟨holder, member, different⟩, reflects_iff.mp reflects holder rid exclusiveHeld⟩

theorem reflects_lockShared {history : LockHistory} (records : history.Records)
    (reflects : history.Reflects) (txn : Transaction) (rid : RID) :
    (history.step (.lockShared (some txn) rid)).Reflects ∧
      (history.step (.lockShared (some txn) rid)).Records := by
  obtain ⟨grantedEq, exclusiveEq⟩ := step_lockShared history txn rid
  have infoEq : ∀ row, (history.step (.lockShared (some txn) rid)).manager.info row = _ :=
    fun row => ((history.manager.lockShared_some txn rid).2 row).trans
      (LockManager.info_request _ _ _ _ _ _)
  refine ⟨reflects_iff.mpr fun holder row held => ?_, tracks_step records.tracks _,
    agrees_history_step records.agrees _, fun holder row mode held => ?_⟩
  · rw [exclusiveEq] at held
    rw [infoEq]
    split
    · next added =>
      obtain ⟨rfl, absent, granted⟩ := added
      rw [records.not_exclusive_of_shared_grant reflects absent granted holder] at held
      cases held
    · exact reflects_iff.mp reflects holder row held
  · rw [infoEq] at mode
    rw [exclusiveEq]
    split at mode
    · cases mode
    · next unchanged =>
      refine records.exclusive holder row mode ?_
      rw [grantedEq] at held
      split at held
      · next granted =>
        by_cases new : holder = txn ∧ row = rid
        · obtain ⟨rfl, rfl⟩ := new
          refine (records.tracks.holders holder row).mpr ?_
          by_contra absent
          exact unchanged ⟨rfl, absent, granted⟩
        · rwa [note_of_ne new] at held
      · exact held

/-! ## Exclusive requests -/

/-- A granted exclusive request by a newcomer finds exclusive locks only. -/
theorem Records.exclusive_of_exclusive_grant {history : LockHistory} (records : history.Records)
    {txn : Transaction} {rid : RID} (absent : txn ∉ (history.manager.info rid).holders)
    (granted : history.manager.Grants .shared txn rid) {holder : Transaction}
    (held : history.granted holder rid = true) : history.exclusive holder rid = true := by
  have member := (records.tracks.holders holder rid).mp held
  have different : holder ≠ txn := by
    rintro rfl
    exact absent member
  have noConflict := granted.resolve_left absent
  refine records.exclusive holder rid ?_ held
  cases mode : (history.manager.info rid).lockType with
  | none => exact absurd mode (records.mode_ne_none member)
  | shared => exact absurd ⟨⟨holder, member, different⟩, mode⟩ noConflict
  | exclusive => rfl

/-- After an exclusive request the modes are right just when it was no upgrade. -/
theorem reflects_lockExclusive_iff {history : LockHistory} (records : history.Records)
    (reflects : history.Reflects) (txn : Transaction) (rid : RID) :
    (history.step (.lockExclusive (some txn) rid)).Reflects ↔ ¬ history.Shares txn rid := by
  obtain ⟨-, exclusiveEq⟩ := step_lockExclusive history txn rid
  have infoEq : ∀ row, (history.step (.lockExclusive (some txn) rid)).manager.info row = _ :=
    fun row => ((history.manager.lockExclusive_some txn rid).2 row).trans
      (LockManager.info_request _ _ _ _ _ _)
  rw [reflects_iff]
  constructor
  · rintro recorded ⟨held, notExclusive⟩
    have member := (records.tracks.holders txn rid).mp held
    have granted : history.manager.Grants .shared txn rid := .inl member
    have mode := recorded txn rid (by rw [exclusiveEq, if_pos granted, note_self])
    rw [infoEq, if_neg (fun added => added.2.1 member)] at mode
    rw [records.exclusive txn rid mode held] at notExclusive
    cases notExclusive
  · intro noUpgrade holder row held
    rw [infoEq]
    split
    · rfl
    · next unchanged =>
      refine reflects_iff.mp reflects holder row ?_
      rw [exclusiveEq] at held
      split at held
      · next granted =>
        by_cases new : holder = txn ∧ row = rid
        · obtain ⟨rfl, rfl⟩ := new
          have member : holder ∈ (history.manager.info row).holders := by
            by_contra absent
            exact unchanged ⟨rfl, absent, granted⟩
          by_contra notExclusive
          exact noUpgrade ⟨(records.tracks.holders holder row).mpr member, by simpa using notExclusive⟩
        · rwa [note_of_ne new] at held
      · exact held

theorem records_lockExclusive {history : LockHistory} (records : history.Records)
    (txn : Transaction) (rid : RID) :
    (history.step (.lockExclusive (some txn) rid)).Records := by
  obtain ⟨grantedEq, exclusiveEq⟩ := step_lockExclusive history txn rid
  refine ⟨tracks_step records.tracks _, agrees_history_step records.agrees _,
    fun holder row mode held => ?_⟩
  have infoEq : (history.step (.lockExclusive (some txn) rid)).manager.info row = _ :=
    ((history.manager.lockExclusive_some txn rid).2 row).trans
      (LockManager.info_request _ _ _ _ _ _)
  rw [infoEq] at mode
  by_cases granted : history.manager.Grants .shared txn rid
  · rw [grantedEq, if_pos granted] at held
    rw [exclusiveEq, if_pos granted]
    by_cases new : holder = txn ∧ row = rid
    · obtain ⟨rfl, rfl⟩ := new
      exact note_self
    · rw [note_of_ne new] at held ⊢
      split at mode
      · next added =>
        obtain ⟨rfl, absent, -⟩ := added
        exact records.exclusive_of_exclusive_grant absent granted held
      · exact records.exclusive holder row mode held
  · rw [grantedEq, if_neg granted] at held
    rw [exclusiveEq, if_neg granted]
    rw [if_neg (fun added => granted added.2.2)] at mode
    exact records.exclusive holder row mode held

/-! ## Releases -/

theorem reflects_unlock {history : LockHistory} (records : history.Records)
    (reflects : history.Reflects) (txn : Transaction) (rid : RID) :
    (history.step (.unlock (some txn) rid)).Reflects ∧
      (history.step (.unlock (some txn) rid)).Records := by
  have infoEq : ∀ row, (history.step (.unlock (some txn) rid)).manager.info row = _ :=
    history.manager.info_unlock txn rid
  refine ⟨reflects_iff.mpr fun holder row held => ?_, tracks_step records.tracks _,
    agrees_history_step records.agrees _, fun holder row mode held => ?_⟩
  · change note history.exclusive txn rid false holder row = true at held
    have other : ¬ (holder = txn ∧ row = rid) := by
      rintro ⟨rfl, rfl⟩
      rw [note_self] at held
      cases held
    rw [note_of_ne other] at held
    have mode := reflects_iff.mp reflects holder row held
    rw [infoEq]
    split
    · next sameRow =>
      subst sameRow
      have remains : holder ∈ (history.manager.info row).holders.erase txn :=
        Finset.mem_erase.mpr ⟨fun same => other ⟨same, rfl⟩,
          (records.tracks.holders holder row).mp (records.tracks.exclusive holder row held)⟩
      exact (if_neg (Finset.ne_empty_of_mem remains)).trans mode
    · exact mode
  · change note history.granted txn rid false holder row = true at held
    change note history.exclusive txn rid false holder row = true
    have other : ¬ (holder = txn ∧ row = rid) := by
      rintro ⟨rfl, rfl⟩
      rw [note_self] at held
      cases held
    rw [note_of_ne other] at held ⊢
    refine records.exclusive holder row ?_ held
    rw [infoEq] at mode
    split at mode
    · next sameRow =>
      subst sameRow
      unfold LockManager.release at mode
      dsimp only at mode
      split at mode
      · cases mode
      · exact mode
    · exact mode

/-! ## Whole runs -/

theorem reflects_step_iff {history : LockHistory} (records : history.Records)
    (reflects : history.Reflects) (call : LockCall) :
    (history.step call).Reflects ↔ history.NoUpgrade call := by
  match call with
  | .lockShared none rid => exact iff_of_true reflects trivial
  | .lockExclusive none rid => exact iff_of_true reflects trivial
  | .unlock none rid => exact iff_of_true reflects trivial
  | .lockShared (some txn) rid =>
    exact iff_of_true (reflects_lockShared records reflects txn rid).1 trivial
  | .lockExclusive (some txn) rid => exact reflects_lockExclusive_iff records reflects txn rid
  | .unlock (some txn) rid =>
    exact iff_of_true (reflects_unlock records reflects txn rid).1 trivial

theorem records_step {history : LockHistory} (records : history.Records)
    (reflects : history.Reflects) (call : LockCall) : (history.step call).Records := by
  match call with
  | .lockShared none rid => exact records
  | .lockExclusive none rid => exact records
  | .unlock none rid => exact records
  | .lockShared (some txn) rid => exact (reflects_lockShared records reflects txn rid).2
  | .lockExclusive (some txn) rid => exact records_lockExclusive records txn rid
  | .unlock (some txn) rid => exact (reflects_unlock records reflects txn rid).2

/-- A caller that does not upgrade shares its RID with nobody who only reads it. -/
theorem refusesSharer_of_noUpgrade {history : LockHistory} (records : history.Records)
    (reflects : history.Reflects) {call : LockCall} (noUpgrade : history.NoUpgrade call) :
    history.RefusesSharer call := by
  match call with
  | .lockShared _ _ => exact trivial
  | .unlock _ _ => exact trivial
  | .lockExclusive none _ => exact trivial
  | .lockExclusive (some txn) rid =>
    rintro held ⟨other, -, otherHeld, otherShared⟩
    have ownExclusive : history.exclusive txn rid = true := by
      by_contra notExclusive
      exact noUpgrade ⟨held, by simpa using notExclusive⟩
    have mode := reflects_iff.mp reflects txn rid ownExclusive
    rw [records.exclusive other rid mode otherHeld] at otherShared
    cases otherShared

/-- Over every sequence of calls on an empty lock manager, the recorded modes
reflect the granted exclusive locks in every state, and no sharer is given an
exclusive lock, exactly when no call asks for an upgrade. -/
theorem throughout_reflects_iff (calls : List LockCall) :
    Throughout step Reflects {} calls ∧ EachCall step RefusesSharer {} calls ↔
      EachCall step NoUpgrade {} calls := by
  have exactRun : Throughout step Reflects {} calls ↔ EachCall step NoUpgrade {} calls :=
    throughout_iff_eachCall
      (fun _ call records reflects => reflects_step_iff records reflects call)
      (fun _ call records reflects _ => records_step records reflects call)
      records_initial reflects_initial
  constructor
  · exact fun both => exactRun.mp both.1
  · intro noUpgrade
    refine ⟨exactRun.mpr noUpgrade, ?_⟩
    refine @EachCall.imp _ _ step NoUpgrade (fun history => history.Records ∧ history.Reflects)
      RefusesSharer ?_ ?_ _ _ ⟨records_initial, reflects_initial⟩ noUpgrade
    · rintro history call ⟨records, reflects⟩ allowed
      exact ⟨records_step records reflects call, (reflects_step_iff records reflects call).mpr allowed⟩
    · rintro history call ⟨records, reflects⟩ allowed
      exact refusesSharer_of_noUpgrade records reflects allowed

/-- An upgrade: the exclusive lock is granted and the mode stays `SHARED`. -/
theorem upgrade_not_recorded :
    ¬ Throughout step Reflects {}
      [.lockShared (some 1) ⟨0, 0⟩, .lockExclusive (some 1) ⟨0, 0⟩] := by
  rintro ⟨-, -, recorded⟩
  have mode := recorded 1 ⟨0, 0⟩ (by decide)
  revert mode
  decide

end LockHistory

end MiniDB.Concurrency
