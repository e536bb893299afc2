import MiniDB.Buffer.PinCounts
import MiniDB.Executors.IndexScanExecutor

/-!
# The pins of an index scan

`Begin` hands the leaf it found to the iterator with its pin. The iterator has no
destructor of its own, and neither `operator++` nor the executor unpins the leaf, so
the pin is never given back. Every other page that a scan visits is released at once.
-/

namespace MiniDB.Index

open Foundation Buffer PoolProgram Storage

variable {D : Type} [Disk D] {pool : BufferPool D} {pins : Nat → Nat}

/-- The child that `FindLeafPage` goes to first. -/
def leftmostChild (data : Bytes) : Int := intAt data (2 + intAt data 1 + 1 + 0)

/-- The way along the first children leads from a page to a leaf that has entries,
and the pool can bring every page on it. -/
inductive LeadsToEntries : BufferPool D → Int → Prop where
  | leaf {pool : BufferPool D} {pageId : Int} {frame : Nat}
      (fetched : (pool.fetchPage pageId).1 = some frame)
      (isLeaf : isLeaf ((pool.fetchPage pageId).2.pageAt frame).data = true)
      (entries : intAt ((pool.fetchPage pageId).2.pageAt frame).data 1 ≠ 0) :
      LeadsToEntries pool pageId
  | inner {pool : BufferPool D} {pageId : Int} {frame : Nat}
      (fetched : (pool.fetchPage pageId).1 = some frame)
      (inner : isLeaf ((pool.fetchPage pageId).2.pageAt frame).data = false)
      (leads : LeadsToEntries ((pool.fetchPage pageId).2.unpinPage pageId false).2
        (leftmostChild ((pool.fetchPage pageId).2.pageAt frame).data)) :
      LeadsToEntries pool pageId

namespace BPlusTree

/-- What a descent to the leftmost leaf leaves behind: a pin on the leaf. -/
structure EndsPinned (pins : Nat → Nat) (frame : Nat) (after : BufferPool D) : Prop where
  counted : after.frames.PinsAs (Function.update pins frame (pins frame + 1))
  resident : after.frames.pageTable.lookup (after.pageAt frame).pageId = some frame

/-- A descent releases every page except the leaf at its end. -/
theorem pinsAs_descend (counted : pool.frames.PinsAs pins) (key : Int) (fuel : Nat) (pageId : Int) :
    match run (descend key true fuel pageId) pool with
    | (.unfinished, after) => after.frames.PinsAs pins
    | (.null, after) => after.frames.PinsAs pins ∧ ¬ LeadsToEntries pool pageId
    | (.leaf frame, after) => EndsPinned pins frame after ∧
        (LeadsToEntries pool pageId ↔ intAt (after.pageAt frame).data 1 ≠ 0) := by
  induction fuel generalizing pool pageId with
  | zero => exact counted
  | succ fuel ih =>
    simp only [descend, run_bind, run_fetchPage]
    cases fetched : (pool.fetchPage pageId).1 with
    | none =>
      refine ⟨BufferPool.pinsAs_fetchPage_null counted fetched, ?_⟩
      rintro (⟨found, -, -⟩ | ⟨found, -, -⟩) <;> cases fetched.symm.trans found
    | some frame =>
      obtain ⟨pinned, resident, sameId⟩ := BufferPool.pinsAs_fetchPage counted fetched
      cases leaf : isLeaf ((pool.fetchPage pageId).2.pageAt frame).data with
      | true =>
        simp only [run_bind, run_getData, leaf, if_true, run_pure]
        refine ⟨⟨pinned, sameId.symm ▸ resident⟩, ?_, fun entries => .leaf fetched leaf entries⟩
        rintro (⟨found, -, entries⟩ | ⟨found, inner, -⟩)
        · obtain rfl := Option.some.inj (fetched.symm.trans found)
          exact entries
        · obtain rfl := Option.some.inj (fetched.symm.trans found)
          cases leaf.symm.trans inner
      | false =>
        have released := BufferPool.pinsAs_unpinPage false pinned resident
        have goesOn : LeadsToEntries pool pageId ↔
            LeadsToEntries ((pool.fetchPage pageId).2.unpinPage pageId false).2
              (leftmostChild ((pool.fetchPage pageId).2.pageAt frame).data) := by
          refine ⟨?_, fun leads => .inner fetched leaf leads⟩
          rintro (⟨found, isLeaf, -⟩ | ⟨found, -, leads⟩)
          · obtain rfl := Option.some.inj (fetched.symm.trans found)
            cases leaf.symm.trans isLeaf
          · obtain rfl := Option.some.inj (fetched.symm.trans found)
            exact leads
        simp only [run_bind, run_getData, leaf, Bool.false_eq_true, if_false, if_true, run_unpinPage,
          goesOn]
        exact ih released _

/-- `Begin` would find entries. -/
def LeadsToFirst (tree : BPlusTree) (pool : BufferPool D) : Prop :=
  tree.rootPageId ≠ -1 ∧ LeadsToEntries pool tree.rootPageId

/-- `Begin` leaves a pin behind exactly when it finds entries. -/
theorem pinsAs_begin (counted : pool.frames.PinsAs pins) (tree : BPlusTree) (fuel : Nat) :
    match run (tree.begin fuel) pool with
    | ((none, _), _) => True
    | ((some none, _), after) => after.frames.PinsAs pins ∧ ¬ tree.LeadsToFirst pool
    | ((some (some (frame, _)), _), after) =>
      after.frames.PinsAs (Function.update pins frame (pins frame + 1)) ∧ tree.LeadsToFirst pool := by
  by_cases noRoot : tree.rootPageId = -1
  · simp only [begin, guarded, if_pos noRoot, run_bind, run_pure]
    exact ⟨counted, fun leads => leads.1 noRoot⟩
  · have first : tree.LeadsToFirst pool ↔ LeadsToEntries pool tree.rootPageId := and_iff_right noRoot
    have ends := pinsAs_descend counted 0 fuel tree.rootPageId
    rw [first]
    cases ran : run (descend 0 true fuel tree.rootPageId) pool with
    | mk descent after =>
      rw [ran] at ends
      cases descent with
      | unfinished =>
        simp only [begin, guarded, if_neg noRoot, findLeafPage, run_bind, ran, run_pure]
      | null =>
        simp only [begin, guarded, if_neg noRoot, findLeafPage, run_bind, ran, run_pure]
        exact ends
      | leaf frame =>
        obtain ⟨⟨pinned, resident⟩, leads⟩ := ends
        by_cases empty : intAt (after.pageAt frame).data 1 = 0
        · simp only [begin, guarded, if_neg noRoot, findLeafPage, run_bind, ran, run_getData,
            run_getPageId, empty, if_true, run_unpinPage, run_pure]
          exact ⟨BufferPool.pinsAs_unpinPage false pinned resident, fun found => leads.mp found empty⟩
        · simp only [begin, guarded, if_neg noRoot, findLeafPage, run_bind, ran, run_getData,
            run_getPageId, empty, if_false, run_pure]
          exact ⟨pinned, leads.mpr empty⟩

end BPlusTree

end MiniDB.Index

namespace MiniDB.Executors

open Foundation Buffer PoolProgram Storage TableHeap Index

variable {D : Type} [Disk D] {pool : BufferPool D} {pins : Nat → Nat}

/-- `GetTuple` releases the page it reads. -/
theorem pinsAs_getTuple (counted : pool.frames.PinsAs pins) (rid : RID) (out : Tuple) :
    (run (getTuple rid out) pool).2.frames.PinsAs pins := by
  unfold getTuple
  split
  · exact counted
  · simp only [run_bind, run_fetchPage]
    cases fetched : (pool.fetchPage rid.pageId).1 with
    | none => exact BufferPool.pinsAs_fetchPage_null counted fetched
    | some frame =>
      obtain ⟨pinned, resident, -⟩ := BufferPool.pinsAs_fetchPage counted fetched
      exact BufferPool.pinsAs_unpinPage false pinned resident

/-- Reading through an iterator leaves the pool as it is. -/
theorem pool_getRid (iterator : IndexIterator) : (run iterator.getRid pool).2 = pool := by
  unfold IndexIterator.getRid
  split
  · split
    · rfl
    · rw [run_bind]
      split <;> rfl
  · rfl

theorem pool_advance (iterator : IndexIterator) : (run iterator.advance pool).2 = pool := by
  unfold IndexIterator.advance
  split <;> rfl

namespace IndexScanExecutor

/-- `Next` for each of the rows that the caller passes. One that does not return ends
the use. -/
def nexts (fuel : Nat) : List Row → IndexScanExecutor → PoolProgram IndexScanExecutor
  | [], executor => return executor
  | row :: rows, executor => do
    match ← executor.next fuel row with
    | (none, executor) => return executor
    | (some _, executor) => nexts fuel rows executor

/-- The executor is initialized, asked for rows, and dropped; the destructors of the
executor and of its iterators do nothing. -/
def use (fuel : Nat) (rows : List Row) (executor : IndexScanExecutor) : PoolProgram Unit := do
  match ← executor.init fuel with
  | none => return ()
  | some executor =>
    let _ ← executor.nexts fuel rows
    return ()

/-- `Next` gives back what it pins. -/
theorem pinsAs_next (counted : pool.frames.PinsAs pins) (fuel : Nat) (row : Row)
    {executor : IndexScanExecutor} (initialized : executor.initialized = true) :
    (run (executor.next fuel row) pool).2.frames.PinsAs pins ∧
      (run (executor.next fuel row) pool).1.2.initialized = true := by
  simp only [next, initialized, if_true, nextRow]
  split
  · exact ⟨counted, initialized⟩
  · have read := pinsAs_getTuple counted (run executor.indexIter.getRid pool).1 row.1
    simp only [run_bind, pool_getRid]
    generalize run (getTuple (run executor.indexIter.getRid pool).1 row.1) pool = outcome at read ⊢
    obtain ⟨answer, after⟩ := outcome
    cases answer with
    | none => exact ⟨read, initialized⟩
    | some result =>
      obtain ⟨found, tuple⟩ := result
      cases found with
      | false => exact ⟨read, initialized⟩
      | true =>
        simp only [run_bind, run_pure, pool_advance]
        exact ⟨read, trivial⟩

theorem pinsAs_nexts (counted : pool.frames.PinsAs pins) (fuel : Nat) (rows : List Row)
    {executor : IndexScanExecutor} (initialized : executor.initialized = true) :
    (run (executor.nexts fuel rows) pool).2.frames.PinsAs pins := by
  induction rows generalizing pool executor with
  | nil => exact counted
  | cons row rows ih =>
    have stepped := pinsAs_next counted fuel row initialized
    simp only [nexts, run_bind]
    generalize run (executor.next fuel row) pool = outcome at stepped ⊢
    obtain ⟨⟨answer, executor⟩, after⟩ := outcome
    cases answer with
    | none => exact stepped.1
    | some result => exact ih stepped.1 stepped.2

/-- What a scan leaves behind: all pins as they were, or one more on a frame. -/
theorem pinsAs_use (counted : pool.frames.PinsAs pins) (executor : IndexScanExecutor) (fuel : Nat)
    (rows : List Row) (returns : (run (executor.init fuel) pool).1 ≠ none) :
    (¬ executor.index.LeadsToFirst pool ∧
        (run (executor.use fuel rows) pool).2.frames.PinsAs pins) ∨
      (executor.index.LeadsToFirst pool ∧ ∃ frame,
        (run (executor.use fuel rows) pool).2.frames.PinsAs
          (Function.update pins frame (pins frame + 1))) := by
  have begins := BPlusTree.pinsAs_begin counted executor.index fuel
  simp only [init, run_bind] at returns
  simp only [use, init, run_bind]
  generalize run (executor.index.begin fuel) pool = outcome at begins returns ⊢
  obtain ⟨⟨found, index⟩, after⟩ := outcome
  cases found with
  | none => exact absurd rfl returns
  | some place =>
    cases place with
    | none =>
      refine .inl ⟨begins.2, ?_⟩
      simp only [run_pure, run_bind]
      exact pinsAs_nexts begins.1 fuel rows rfl
    | some leaf =>
      refine .inr ⟨begins.2, leaf.1, ?_⟩
      simp only [run_pure, run_bind]
      exact pinsAs_nexts begins.1 fuel rows rfl

/-- An index scan gives back all pins exactly when `Begin` finds no entries: the tree
is empty, or the way to its first leaf meets a page that the pool cannot bring or
ends at an empty leaf. -/
theorem use_restores_pins_iff (mapped : pool.frames.Mapped) (executor : IndexScanExecutor)
    (fuel : Nat) (rows : List Row) (returns : (run (executor.init fuel) pool).1 ≠ none) :
    (∀ frame, (run (executor.use fuel rows) pool).2.frames.pinCountAt frame =
        pool.frames.pinCountAt frame) ↔
      ¬ executor.index.LeadsToFirst pool := by
  obtain ⟨nowhere, counted⟩ | ⟨leads, frame, counted⟩ :=
    pinsAs_use ⟨mapped, rfl⟩ executor fuel rows returns
  · exact iff_of_true (fun frame => congrFun counted.pins frame) nowhere
  · refine iff_of_false (fun same => ?_) (not_not.mpr leads)
    have more := congrFun counted.pins frame
    rw [same, Function.update_self] at more
    omega

/-- One entry is inserted into an empty tree over an empty pool of one frame. -/
def oneEntry : (Option Bool × BPlusTree) × BufferPool DiskManager :=
  run (({ leafMaxSize := 4, internalMaxSize := 4 } : BPlusTree).insert 1 5 { pageId := 1, slotNum := 0 })
    (BufferPool.new 1 (DiskManager.new (some {})))

theorem mapped_oneEntry : oneEntry.2.frames.Mapped := BufferPool.mapped_run _ _ _ _

/-- The scan over the tree of one entry. -/
abbrev scanOfOne : IndexScanExecutor := { index := oneEntry.1.2, table := {} }

theorem use_restores_pins_iff_one :
    (∀ frame, (run (scanOfOne.use 1 [({}, {})]) oneEntry.2).2.frames.pinCountAt frame =
        oneEntry.2.frames.pinCountAt frame) ↔
      ¬ scanOfOne.index.LeadsToFirst oneEntry.2 :=
  use_restores_pins_iff mapped_oneEntry scanOfOne 1 [({}, {})] (Option.some_ne_none _)

/-- The scan over one entry leaves its leaf pinned, whether or not a row is taken. -/
theorem scan_keeps_leaf_pinned :
    ¬ ∀ (executor : IndexScanExecutor) (fuel : Nat) (rows : List Row) (pool : BufferPool DiskManager),
      pool.frames.Mapped → (run (executor.init fuel) pool).1 ≠ none →
        ∀ frame, (run (executor.use fuel rows) pool).2.frames.pinCountAt frame =
          pool.frames.pinCountAt frame := by
  intro restores
  have same := restores scanOfOne 1 [] oneEntry.2 mapped_oneEntry (Option.some_ne_none _) 0
  revert same
  decide +kernel

end IndexScanExecutor

end MiniDB.Executors
