import MiniDB.Executors.FullScan
import MiniDB.Executors.IndexScanExecutor
import MiniDB.Executors.InsertExecutor
import MiniDB.Index.TreePages

/-!
# Two ways to the rows of a table

A table and its index are filled by insertion executors. The scan of the table and
the scan of the index have to agree on the rows. The scan of an empty table has a
row too many, and a second entry of the index is put where the scan does not look
for it; with one row the two agree if `GetTuple` accepts its slot entry.
-/

namespace MiniDB.Executors

open Foundation Buffer PoolProgram Storage TableHeap Index

/-- Lists of tuples go into a table and its index, one executor for each list. `none`
is an insertion that did not return. -/
def fillIndexed (E : Type) [Executor E] (fuel : Nat) :
    List (List Tuple) → TableHeap → BPlusTree → PoolProgram (Option (TableHeap × BPlusTree))
  | [], table, index => return some (table, index)
  | tuples :: lists, table, index => do
    let executor : InsertExecutor E :=
      { table, indexes := [index], directInsertTuples := tuples }
    match ← collect fuel ({}, {}) executor with
    | (some _, { table, indexes := [index], .. }) => fillIndexed E fuel lists table index
    | _ => return none

/-- A table and an empty index are built and filled. -/
def buildIndexed (E : Type) [Executor E] (fuel : Nat) (leafMaxSize internalMaxSize : Int)
    (lists : List (List Tuple)) : PoolProgram (Option (TableHeap × BPlusTree)) := do
  let table ← TableHeap.new
  fillIndexed E fuel lists table { leafMaxSize, internalMaxSize }

/-- Both scans end; the scan of the index returns each RID of the scan of the table
once and no other, and its tuples in the order of their keys. -/
def ScansAgree (table : TableHeap) (index : BPlusTree) (pool : BufferPool DiskManager) : Prop :=
  ∀ row, ∃ fuel seqRows indexFuel indexRows,
    (run (collect fuel row (SeqScanExecutor.new table)) pool).1.1 = some seqRows ∧
      (run (collect indexFuel row ({ index, table } : IndexScanExecutor)) pool).1.1 =
        some indexRows ∧
      (indexRows.map Prod.snd).Nodup ∧
      (∀ rid, rid ∈ indexRows.map Prod.snd ↔ rid ∈ seqRows.map Prod.snd) ∧
      (indexRows.map fun row => row.1.getIntValue 0).Pairwise (· ≤ ·)

/-- The scans agree on a table and an index that were filled on the pool. -/
def IndexAgrees (E : Type) [Executor E] (fuel : Nat) (pool : BufferPool DiskManager)
    (leafMaxSize internalMaxSize : Int) (lists : List (List Tuple)) : Prop :=
  let outcome := run (buildIndexed E fuel leafMaxSize internalMaxSize lists) pool
  ∃ table index, outcome.1 = some (table, index) ∧ ScansAgree table index outcome.2

/-- `GetTuple` returns true at the slot entry. -/
def EntryAccepted (pageData : Bytes) (slot : Nat) : Prop :=
  0 < (getSlot pageData slot).2 ∧
    (getSlot pageData slot).1 + (getSlot pageData slot).2 ≤ pageSize ∧
    0 ≤ (getSlot pageData slot).1 ∧ (getSlot pageData slot).2 ≤ Tuple.maxSize

instance (pageData : Bytes) : DecidablePred (EntryAccepted pageData) := fun _ =>
  inferInstanceAs (Decidable (_ ∧ _ ∧ _ ∧ _))

/-- An entry that `GetTuple` accepts lies inside the page. -/
theorem EntryAccepted.inside {pageData : Bytes} {slot : Nat}
    (accepted : EntryAccepted pageData slot) : EntryInside pageData slot := by
  obtain ⟨some, upper, lower, bounded⟩ := accepted
  refine fun _ => ⟨?_, fun _ => ⟨lower, bounded⟩⟩
  simp only [pageSize] at upper
  simp only [IsInt]
  omega

/-- The lists have one tuple in all, and `GetTuple` accepts the slot entry that it
leaves. -/
def OneRow (lists : List (List Tuple)) : Prop :=
  ∃ tuple, lists.flatten = [tuple] ∧ EntryAccepted (firstPageOf [tuple]) 0

/-- What `GetTuple` makes of a slot of the page. -/
theorem readTuple_cases {pageData : Bytes} {count slot : Nat} {pageId : Int}
    (slots : getNSlots pageData = count) (below : slot < count) (out : Tuple) :
    (EntryAccepted pageData slot ∧
        ∃ tuple, readTuple pageData { pageId, slotNum := slot } out = some (true, tuple)) ∨
      (¬ EntryAccepted pageData slot ∧ EntryInside pageData slot ∧
        readTuple pageData { pageId, slotNum := slot } out = some (false, out)) ∨
      (¬ EntryInside pageData slot ∧
        readTuple pageData { pageId, slotNum := slot } out = none) := by
  simp only [readTuple, EntryAccepted, EntryInside, slots]
  generalize getSlot pageData slot = entry
  obtain ⟨offset, size⟩ := entry
  rw [if_neg (by omega)]
  simp only [IsInt]
  split_ifs with none isInt outside undefined
  · exact .inr (.inl ⟨by omega, by omega, rfl⟩)
  · exact .inr (.inl ⟨by omega, by omega, rfl⟩)
  · exact .inr (.inr ⟨by omega, rfl⟩)
  · exact .inl ⟨by omega, _, rfl⟩
  · exact .inr (.inr ⟨by omega, rfl⟩)

/-! ## One entry in the index -/

section OneEntry

variable {pool : BufferPool DiskManager} {table : TableHeap} {index : BPlusTree} {data : Bytes}
  {key : Int} {rid : RID}

/-- `Begin` on a tree of one leaf. -/
theorem run_begin (settled : pool.frames.Settled)
    (resident : pool.frames.contents index.rootPageId = some data)
    (single : SingleLeaf data key rid) (fuel : Nat) :
    ∃ frame after, pool.Holds index.rootPageId frame after ∧
      run (index.begin (fuel + 1)) pool =
        ((some (some (frame, index.rootPageId)), index.relatched), after) := by
  have leaf : isLeaf data = true := by simp only [isLeaf, single.leaf, decide_true]
  have path : Path pool.frames.contents 0 true index.rootPageId index.rootPageId
      [index.rootPageId] := .leaf resident leaf
  obtain ⟨frame, after, holds, ends⟩ :=
    BPlusTree.run_findLeafPage settled path (show [index.rootPageId].length ≤ fuel + 1 by simp)
  obtain ⟨sameId, held⟩ := BufferPool.pageAt_of_lookup holds.serves.settled holds.found
  rw [holds.serves.contents, resident] at held
  refine ⟨frame, after, holds, ?_⟩
  simp only [BPlusTree.begin, BPlusTree.run_guarded, if_neg (path.root_ne settled), run_bind, ends,
    run_getData, ← Option.some.inj held, run_getPageId, sameId, single.size, Int.one_ne_zero,
    if_false, run_pure]

/-- The scan at the one entry of the leaf. -/
abbrev atEntry (index : BPlusTree) (table : TableHeap) (frame : Nat) : IndexScanExecutor :=
  { index := index.relatched, table, indexIter := .atLeaf (some (frame, index.rootPageId))
    initialized := true }

/-- After the last entry the iterator has no RID, and `Next` returns false because
`GetTuple` does. -/
theorem drain_after_last (fuel : Nat) (row : Row) {executor : IndexScanExecutor}
    (initialized : executor.initialized = true)
    (notEnd : executor.indexIter.equals executor.indexEnd = false)
    (isEnd : executor.indexIter.isEnd = true) :
    (run (drain (fuel + 1) row executor) pool).1.1 = some [] := by
  have noRid : executor.indexIter.getRid = (return {}) := by
    simp only [IndexIterator.getRid, isEnd]
  simp only [drain, Executor.next, IndexScanExecutor.next, initialized, if_true,
    IndexScanExecutor.nextRow, notEnd, Bool.false_eq_true, if_false, noRid, run_bind, run_pure,
    getTuple, RID.isValid]
  rfl

/-- The scan of an index of one entry. -/
theorem run_indexScan {pageData : Bytes} (settled : pool.frames.Settled)
    (resident : pool.frames.contents index.rootPageId = some data)
    (single : SingleLeaf data key rid) (last : intAt data 5 = -1) (valid : rid.isValid = true)
    (page : pool.frames.contents rid.pageId = some pageData) (fuel : Nat) (row : Row) :
    (run (collect (fuel + 1) row ({ index, table } : IndexScanExecutor)) pool).1.1 =
      match readTuple pageData rid row.1 with
      | none => none
      | some (false, _) => some []
      | some (true, tuple) => if fuel = 0 then none else some [(tuple, rid)] := by
  obtain ⟨frame, opened, holds, begins⟩ := run_begin settled resident single fuel
  obtain ⟨after, reads, serves⟩ := run_getTuple holds.serves.settled
    (holds.serves.contents ▸ page) valid row.1
  have held := (BufferPool.pageAt_of_lookup holds.serves.settled holds.found).2
  rw [holds.serves.contents, resident] at held
  have heldAfter := (BufferPool.pageAt_of_lookup serves.settled (serves.table ▸ holds.found)).2
  rw [serves.contents, holds.serves.contents, resident] at heldAfter
  have init : run (Executor.init (fuel + 1) ({ index, table } : IndexScanExecutor)) pool =
      (some (atEntry index table frame), opened) := by
    simp only [Executor.init, IndexScanExecutor.init, run_bind, begins, run_pure]
    rfl
  have here : run (IndexIterator.atLeaf (some (frame, index.rootPageId))).getRid opened =
      (rid, opened) := by
    simp only [IndexIterator.getRid, IndexIterator.atLeaf, Int.lt_irrefl, if_false, run_bind,
      run_getData, ← Option.some.inj held, single.size, Int.zero_lt_one, if_true, run_pure,
      single.ridAt_eq]
  have steps : run (IndexIterator.atLeaf (some (frame, index.rootPageId))).advance after =
      ({ hasTree := true, currentLeafPage := some frame, currentKeyIndex := 1
         currentPageId := index.rootPageId, isEnd := true }, after) := by
    have next : intAt data (2 + 1 + 1 * 2) = -1 := last
    simp only [IndexIterator.advance, IndexIterator.atLeaf, run_bind, run_getData,
      ← Option.some.inj heldAfter, run_pure, IndexIterator.stepped, single.size, next]
    rfl
  have notEnd : (IndexIterator.atLeaf (some (frame, index.rootPageId))).equals {} = false := rfl
  simp only [collect, run_bind, init, drain, Executor.next, IndexScanExecutor.next, if_true,
    IndexScanExecutor.nextRow, notEnd, Bool.false_eq_true, if_false, here, reads]
  cases read : readTuple pageData rid row.1 with
  | none => rfl
  | some result =>
    obtain ⟨found, tuple⟩ := result
    cases found with
    | false => rfl
    | true =>
      simp only [run_bind, steps, run_pure]
      cases fuel with
      | zero => rfl
      | succ fuel =>
        rw [drain_after_last fuel _ rfl rfl rfl]
        rfl

theorem run_indexScan_unfinished (row : Row) :
    (run (collect 0 row ({ index, table } : IndexScanExecutor)) pool).1.1 = none := by
  simp only [collect, run_bind, Executor.init, IndexScanExecutor.init, BPlusTree.begin,
    BPlusTree.run_guarded]
  split <;> rfl

/-- The scan of an empty index. -/
theorem run_indexScan_empty (noRoot : index.rootPageId = -1) (fuel : Nat) (row : Row) :
    (run (collect fuel row ({ index, table } : IndexScanExecutor)) pool).1.1 =
      if fuel = 0 then none else some [] := by
  have init : run (Executor.init fuel ({ index, table } : IndexScanExecutor)) pool =
      (some { index := index.relatched, table, initialized := true }, pool) := by
    simp only [Executor.init, IndexScanExecutor.init, BPlusTree.begin, run_bind,
      BPlusTree.run_guarded, if_pos noRoot, run_pure]
    rfl
  simp only [collect, run_bind, init]
  cases fuel with
  | zero => rfl
  | succ fuel => rfl

end OneEntry

/-! ## Filling the table and the index -/

section Fill

variable {E : Type} [Executor E] {pool : BufferPool DiskManager} {table filled : TableHeap}
  {index grown : BPlusTree}

/-- An executor with nothing to insert. -/
theorem collect_nothing (fuel : Nat) (row : Row) :
    run (collect (fuel + 1) row ({ table, indexes := [index] } : InsertExecutor E)) pool =
      ((some [], { table, indexes := [index], initialized := true, finished := true }), pool) := rfl

/-- Without tuples nothing is inserted. -/
theorem run_fillIndexed_nothing (fuel : Nat) {lists : List (List Tuple)}
    (nothing : lists.flatten = []) :
    run (fillIndexed E (fuel + 1) lists table index) pool = (some (table, index), pool) := by
  induction lists with
  | nil => rfl
  | cons tuples lists ih =>
    obtain ⟨rfl, rest⟩ := List.append_eq_nil_iff.mp nothing
    simp only [fillIndexed, run_bind, collect_nothing, ih rest]

/-- An executor with one tuple. -/
theorem collect_one {tuple : Tuple} {rid : RID} {answer : Bool}
    {middle after : BufferPool DiskManager} (fuel : Nat) (row : Row)
    (inserts : run (table.insertTuple tuple) pool = ((some rid, filled), middle))
    (indexes : run (index.insert (fuel + 2) (tuple.getIntValue 0) rid) middle =
      ((some answer, grown), after)) :
    run (collect (fuel + 2) row
        ({ table, indexes := [index], directInsertTuples := [tuple] } : InsertExecutor E)) pool =
      ((some [(tuple, rid)],
        { table := filled, indexes := [grown], directInsertTuples := [tuple], directInsertIndex := 1
          initialized := true, finished := true, batchCount := 1 }), after) := by
  have small : ¬ batchInsertSize ≤ 0 + 1 := by decide
  simp only [collect, Executor.init, InsertExecutor.init, run_bind, run_pure, drain, Executor.next,
    InsertExecutor.next, if_true, InsertExecutor.nextRow, Bool.false_eq_true, if_false,
    InsertExecutor.takeTuple, List.getElem?_cons_zero, InsertExecutor.insertRow, inserts,
    InsertExecutor.countRow, if_neg small, InsertExecutor.insertEach,
    InsertExecutor.extractKeyFromTuple, indexes]
  rfl

/-- What the insertion of one tuple asks of the pool. -/
theorem each_collect_one {tuple : Tuple} {rid : RID} {middle : BufferPool DiskManager} (fuel : Nat)
    (row : Row) {meets : PoolRequest → BufferPool DiskManager → Prop}
    (inserts : run (table.insertTuple tuple) pool = ((some rid, filled), middle))
    (asks : Client.Each BufferPool.handle meets (collect (fuel + 1) row
      ({ table, indexes := [index], directInsertTuples := [tuple] } : InsertExecutor E)) pool) :
    Client.Each BufferPool.handle meets
      (index.insert (fuel + 1) (tuple.getIntValue 0) rid) middle := by
  have small : ¬ batchInsertSize ≤ 0 + 1 := by decide
  simp only [collect, Executor.init, InsertExecutor.init, run_pure, drain, Executor.next,
    InsertExecutor.next, if_true, InsertExecutor.nextRow, Bool.false_eq_true, if_false,
    InsertExecutor.takeTuple, List.getElem?_cons_zero, InsertExecutor.insertRow, each_bind, inserts,
    InsertExecutor.countRow, if_neg small, InsertExecutor.insertEach,
    InsertExecutor.extractKeyFromTuple] at asks
  exact asks.2.1.2.2.2.1.1

/-- One tuple goes into a table with room for it and into an empty index. -/
theorem run_fillIndexed_one {tuple : Tuple} {pageData : Bytes} (fuel : Nat)
    {lists : List (List Tuple)} (one : lists.flatten = [tuple]) (settled : pool.frames.Settled)
    (last : pool.frames.contents table.lastPageId = some pageData)
    (room : isFull pageData (copySize tuple) = false) (noRoot : index.rootPageId = -1)
    (finds : Client.Each BufferPool.handle BufferPool.FindsFrame
      (fillIndexed E (fuel + 2) lists table index) pool) :
    ∃ grown after, run (fillIndexed E (fuel + 2) lists table index) pool =
        (some (table, grown), after) ∧
      grown.rootPageId = pool.frames.disk.nextPageId ∧
      pool.Becomes (Function.update
        (Function.update pool.frames.contents table.lastPageId (some (storeTuple pageData tuple)))
        pool.frames.disk.nextPageId (some (rootLeaf Bytes.zeros (tuple.getIntValue 0)
          { pageId := table.lastPageId, slotNum := getNSlots pageData }))) 1 after := by
  induction lists with
  | nil => cases one
  | cons tuples lists ih =>
    rw [fillIndexed, each_bind] at finds
    rcases List.append_eq_singleton_iff.mp one with ⟨rfl, later⟩ | ⟨rfl, nothing⟩
    · rw [collect_nothing] at finds
      simp only [fillIndexed, run_bind, collect_nothing]
      exact ih later finds.2
    · obtain ⟨middle, inserts, stored⟩ := run_insertTuple_room settled last room
      have asks := each_collect_one (fuel + 1) ({}, {}) inserts finds.1
      rw [BPlusTree.insert, BPlusTree.each_guarded] at asks
      simp only [noRoot, if_true, BPlusTree.insertRoot, each_bind] at asks
      obtain ⟨after, grows, becomes⟩ :=
        BPlusTree.run_insert_root stored.settled noRoot asks.1.1 (fuel + 2) (tuple.getIntValue 0)
          { pageId := table.lastPageId, slotNum := getNSlots pageData }
      have next : middle.frames.disk.nextPageId = pool.frames.disk.nextPageId := by
        simpa using stored.next
      have whole := stored.trans becomes
      rw [stored.contents, next] at whole
      refine ⟨{ index.relatched with
        rootPageId := middle.frames.disk.nextPageId
        leafStartPageId := middle.frames.disk.nextPageId }, after, ?_, ?_, whole⟩
      · simp only [fillIndexed, run_bind, collect_one fuel ({}, {}) inserts grows,
          run_fillIndexed_nothing (fuel + 1) nothing]
      · exact next

end Fill

/-! ## Fuel is only a bound -/

section Fuel

variable {E : Type} [Executor E] {pool : BufferPool DiskManager}

/-- A descent that ends does the same with more fuel. -/
theorem run_descend_more {key : Int} {leftMost : Bool} {fuel more : Nat} {pageId : Int}
    (ends : (run (BPlusTree.descend key leftMost fuel pageId) pool).1 ≠ .unfinished)
    (enough : fuel ≤ more) :
    run (BPlusTree.descend key leftMost more pageId) pool =
      run (BPlusTree.descend key leftMost fuel pageId) pool := by
  induction fuel generalizing more pageId pool with
  | zero => exact absurd rfl ends
  | succ fuel ih =>
    obtain ⟨more, rfl⟩ := Nat.exists_eq_succ_of_ne_zero (Nat.ne_of_gt (Nat.lt_of_lt_of_le
      (Nat.succ_pos fuel) enough))
    simp only [BPlusTree.descend, run_bind, run_fetchPage] at ends ⊢
    cases fetched : (pool.fetchPage pageId).1 with
    | none => rfl
    | some frame =>
      simp only [fetched, run_bind] at ends ⊢
      by_cases leafPage : isLeaf (run (getData frame) (pool.fetchPage pageId).2).1
      · simp only [if_pos leafPage]
      · simp only [if_neg leafPage, run_bind] at ends ⊢
        exact ih ends (Nat.le_of_succ_le_succ enough)

/-- `Init` and `Next` that end do the same with more fuel. -/
class Steady (E : Type) [Executor E] : Prop where
  init : ∀ {fuel more : Nat} {executor : E} {pool : BufferPool DiskManager},
    (run (Executor.init fuel executor) pool).1 ≠ none → fuel ≤ more →
      run (Executor.init more executor) pool = run (Executor.init fuel executor) pool
  next : ∀ {fuel more : Nat} {row : Row} {executor : E} {pool : BufferPool DiskManager},
    (run (Executor.next fuel row executor) pool).1.1 ≠ none → fuel ≤ more →
      run (Executor.next more row executor) pool = run (Executor.next fuel row executor) pool

/-- More fuel makes no difference to a drain that ends. -/
theorem run_drain_more [Steady E] {fuel more : Nat} {row : Row} {executor : E}
    (ends : (run (drain fuel row executor) pool).1.1 ≠ none) (enough : fuel ≤ more) :
    run (drain more row executor) pool = run (drain fuel row executor) pool := by
  induction fuel generalizing more row executor pool with
  | zero => exact absurd rfl ends
  | succ fuel ih =>
    obtain ⟨more, rfl⟩ := Nat.exists_eq_succ_of_ne_zero (Nat.ne_of_gt (Nat.lt_of_lt_of_le
      (Nat.succ_pos fuel) enough))
    have below := Nat.le_of_succ_le_succ enough
    simp only [drain, run_bind] at ends ⊢
    have nextEnds : (run (Executor.next (fuel + 1) row executor) pool).1.1 ≠ none := by
      intro unfinished
      generalize run (Executor.next (fuel + 1) row executor) pool = outcome at ends unfinished
      obtain ⟨⟨_, _⟩, _⟩ := outcome
      subst unfinished
      exact ends rfl
    rw [Steady.next nextEnds enough]
    generalize run (Executor.next (fuel + 1) row executor) pool = outcome at ends
    obtain ⟨⟨_ | ⟨_ | _, row⟩, executor⟩, after⟩ := outcome
    · rfl
    · rfl
    · simp only [run_bind, run_pure, ne_eq, Option.map_eq_none_iff] at ends ⊢
      rw [ih ends below]

/-- Nor does it to a collection that ends. -/
theorem collect_more [Steady E] {fuel more : Nat} {row : Row} {executor : E}
    (ends : (run (collect fuel row executor) pool).1.1 ≠ none) (enough : fuel ≤ more) :
    run (collect more row executor) pool = run (collect fuel row executor) pool := by
  simp only [collect, run_bind] at ends ⊢
  have initEnds : (run (Executor.init fuel executor) pool).1 ≠ none := by
    intro unfinished
    rw [unfinished] at ends
    exact ends rfl
  rw [Steady.init initEnds enough]
  generalize run (Executor.init fuel executor) pool = outcome at ends
  obtain ⟨_ | _, after⟩ := outcome
  · rfl
  · exact run_drain_more ends enough

/-- So an executor has at most one list of rows. -/
theorem collect_unique [Steady E] {fuel other : Nat} {row : Row} {executor : E}
    {rows otherRows : List Row} (ends : (run (collect fuel row executor) pool).1.1 = some rows)
    (endsToo : (run (collect other row executor) pool).1.1 = some otherRows) : rows = otherRows := by
  have first := collect_more (by rw [ends]; simp) (Nat.le_max_left fuel other)
  have second := collect_more (by rw [endsToo]; simp) (Nat.le_max_right fuel other)
  rw [first] at second
  exact Option.some.inj (ends.symm.trans ((congrArg (·.1.1) second).trans endsToo))

/-- Nor to a scan that finds its row. -/
theorem run_nextLoop_more {fuel more : Nat} {row : Row} {executor : SeqScanExecutor}
    (ends : (run (SeqScanExecutor.nextLoop fuel row executor) pool).1.1 ≠ none)
    (enough : fuel ≤ more) :
    run (SeqScanExecutor.nextLoop more row executor) pool =
      run (SeqScanExecutor.nextLoop fuel row executor) pool := by
  induction fuel generalizing more row executor pool with
  | zero => exact absurd rfl ends
  | succ fuel ih =>
    obtain ⟨more, rfl⟩ := Nat.exists_eq_succ_of_ne_zero (Nat.ne_of_gt (Nat.lt_of_lt_of_le
      (Nat.succ_pos fuel) enough))
    simp only [SeqScanExecutor.nextLoop] at ends ⊢
    by_cases atEnd : executor.iter.equals TableHeap.finish
    · simp only [if_pos atEnd]
    · simp only [if_neg atEnd, run_bind] at ends ⊢
      cases read : (run executor.iter.deref pool).1 with
      | none => rfl
      | some tuple =>
        simp only [read, run_bind] at ends ⊢
        by_cases skipped : SeqScanExecutor.skips
            { executor with iter := (run executor.iter.advance (run executor.iter.deref pool).2).1 }
            executor.iter.currentRid.pageId
        · simp only [if_pos skipped] at ends ⊢
          exact ih ends (Nat.le_of_succ_le_succ enough)
        · simp only [if_neg skipped]

instance : Steady SeqScanExecutor where
  init _ _ := rfl
  next ends enough := run_nextLoop_more ends enough

/-- Nor to `Begin`. -/
theorem run_begin_more {fuel more : Nat} {tree : BPlusTree}
    (ends : (run (tree.begin fuel) pool).1.1 ≠ none) (enough : fuel ≤ more) :
    run (tree.begin more) pool = run (tree.begin fuel) pool := by
  simp only [BPlusTree.begin, BPlusTree.run_guarded] at ends ⊢
  by_cases noRoot : tree.rootPageId = -1
  · simp only [if_pos noRoot]
  · simp only [if_neg noRoot, run_bind, BPlusTree.findLeafPage] at ends ⊢
    rw [run_descend_more _ enough]
    intro unfinished
    rw [unfinished] at ends
    exact ends rfl

/-- Nor to `Init`. -/
theorem run_init_more {fuel more : Nat} {executor : IndexScanExecutor}
    (ends : (run (executor.init fuel) pool).1 ≠ none) (enough : fuel ≤ more) :
    run (executor.init more) pool = run (executor.init fuel) pool := by
  simp only [IndexScanExecutor.init, run_bind] at ends ⊢
  rw [run_begin_more _ enough]
  generalize run (executor.index.begin fuel) pool = outcome at ends
  obtain ⟨⟨_ | _, _⟩, _⟩ := outcome
  · exact absurd rfl ends
  · exact Option.some_ne_none _

instance : Steady IndexScanExecutor where
  init ends enough := run_init_more ends enough
  next {fuel more row executor pool} ends enough := by
    simp only [Executor.next, IndexScanExecutor.next] at ends ⊢
    by_cases initialized : executor.initialized
    · simp only [if_pos initialized]
    · simp only [if_neg initialized, run_bind] at ends ⊢
      rw [run_init_more _ enough]
      intro unfinished
      rw [unfinished] at ends
      exact ends rfl

end Fuel

/-! ## The two scans -/

section Agreement

variable {E : Type} [Executor E] {pool : BufferPool DiskManager} {table : TableHeap}
  {index : BPlusTree} {pageData : Bytes}

/-- The RIDs of a scan of a table. -/
theorem run_seqScan {count : Nat} (settled : pool.frames.Settled)
    (resident : pool.frames.contents table.firstPageId = some pageData)
    (slots : getNSlots pageData = count) (fuel : Nat) (row : Row) :
    (run (collect fuel row (SeqScanExecutor.new table)) pool).1.1.map (List.map Prod.snd) =
      if max count 1 < fuel ∧ Readable pageData 0 count then
        some (slotsFrom table.firstPageId 0 (max count 1))
      else none := by
  obtain ⟨frame, found⟩ := BufferPool.exists_frame settled resident
  have nonneg := (settled.issued found).1
  have outcome := run_drain nonneg (delivers_holding resident) ⟨settled, rfl⟩ slots table fuel 0 row
  rwa [← begin_eq_atSlot nonneg] at outcome

/-- Where the table has a row and the index has none, they do not agree. -/
theorem not_scansAgree_of_indexScan {count : Nat} (settled : pool.frames.Settled)
    (resident : pool.frames.contents table.firstPageId = some pageData)
    (slots : getNSlots pageData = count)
    (nothing : ∀ fuel rows,
      (run (collect fuel ({}, {}) ({ index, table } : IndexScanExecutor)) pool).1.1 = some rows →
        rows = []) :
    ¬ ScansAgree table index pool := by
  intro agree
  obtain ⟨fuel, seqRows, indexFuel, indexRows, scans, indexScans, -, same, -⟩ := agree ({}, {})
  have rids := run_seqScan settled resident slots fuel ({}, {})
  rw [scans, Option.map_some] at rids
  split at rids
  · have here : ({ pageId := table.firstPageId, slotNum := (0 : Nat) } : RID) ∈
        seqRows.map Prod.snd := by
      rw [Option.some.inj rids, show max count 1 = max count 1 - 1 + 1 by omega, slotsFrom_succ]
      exact List.mem_cons_self
    rw [nothing _ _ indexScans] at same
    exact absurd ((same _).mpr here) List.not_mem_nil
  · cases rids

/-- One row, in the table and in the index. -/
theorem scansAgree_one_iff {data : Bytes} {key : Int} (settled : pool.frames.Settled)
    (page : pool.frames.contents table.firstPageId = some pageData)
    (slots : getNSlots pageData = (1 : Nat))
    (resident : pool.frames.contents index.rootPageId = some data)
    (single : SingleLeaf data key { pageId := table.firstPageId, slotNum := (0 : Nat) })
    (last : intAt data 5 = -1) :
    ScansAgree table index pool ↔ EntryAccepted pageData 0 := by
  obtain ⟨frame, found⟩ := BufferPool.exists_frame settled page
  have valid : ({ pageId := table.firstPageId, slotNum := (0 : Nat) } : RID).isValid = true := by
    simp [RID.isValid, (settled.issued found).1]
  have indexScan := fun fuel row =>
    @run_indexScan pool table index data key _ pageData settled resident single last valid page
      fuel row
  have reads := @readTuple_cases pageData 1 0 table.firstPageId slots Nat.zero_lt_one
  constructor
  · intro agree
    rcases reads {} with ⟨accepted, -⟩ | ⟨-, -, refused⟩ | ⟨outside, -⟩
    · exact accepted
    · refine absurd agree (not_scansAgree_of_indexScan settled page slots ?_)
      intro fuel rows returned
      cases fuel with
      | zero =>
        rw [run_indexScan_unfinished] at returned
        cases returned
      | succ fuel =>
        rw [indexScan, refused] at returned
        exact (Option.some.inj returned).symm
    · obtain ⟨fuel, seqRows, -, -, scans, -⟩ := agree ({}, {})
      have rids := run_seqScan settled page slots fuel ({}, {})
      rw [scans, if_neg (fun ends => outside (ends.2 0 Nat.zero_lt_one))] at rids
      cases rids
  · intro accepted row
    have readable : Readable pageData 0 1 := by
      intro slot below
      obtain rfl : slot = 0 := by omega
      exact accepted.inside
    have rids := run_seqScan settled page slots 2 row
    rw [if_pos ⟨by omega, readable⟩] at rids
    obtain ⟨seqRows, scans, same⟩ := Option.map_eq_some_iff.mp rids
    rcases reads row.1 with ⟨-, tuple, read⟩ | ⟨refused, -⟩ | ⟨outside, -⟩
    · refine ⟨2, seqRows, 2, [(tuple, { pageId := table.firstPageId, slotNum := (0 : Nat) })], scans,
        ?_, List.nodup_singleton _, ?_, List.pairwise_singleton _ _⟩
      · rw [indexScan, read]
        rfl
      · intro rid
        rw [same]
        rfl
    · exact absurd accepted refused
    · exact absurd accepted.inside outside

/-- The tuple that `Tuple::GetIntValue` reads has an `int`. -/
theorem isInt_getIntValue (tuple : Tuple) (offset : Nat) : IsInt (tuple.getIntValue offset) := by
  rw [Tuple.getIntValue]
  split
  · exact Bytes.readInt_range tuple.data offset
  · decide

/-- The first page has room for every tuple. -/
theorem isFull_initPage (tuple : Tuple) :
    isFull (initPage Bytes.zeros) (copySize tuple) = false := by
  rw [isFull_eq_false_iff (header_initPage Bytes.zeros)]
  refine ⟨by decide, ?_⟩
  simp only [copySize, pageSize, slotHeader, slotEntrySize]
  omega

/-- The constructor of the table and the insertions find their frames. -/
theorem run_buildIndexed (settled : pool.frames.Settled) {fuel : Nat}
    {leafMaxSize internalMaxSize : Int} {lists : List (List Tuple)}
    (finds : Client.Each BufferPool.handle BufferPool.FindsFrame
      (buildIndexed E fuel leafMaxSize internalMaxSize lists) pool) :
    ∃ table after, table.firstPageId = pool.frames.disk.nextPageId ∧
      table.lastPageId = pool.frames.disk.nextPageId ∧
      pool.Becomes (Function.update pool.frames.contents pool.frames.disk.nextPageId
        (some (initPage Bytes.zeros))) 1 after ∧
      run (buildIndexed E fuel leafMaxSize internalMaxSize lists) pool =
        run (fillIndexed E fuel lists table { leafMaxSize, internalMaxSize }) after ∧
      Client.Each BufferPool.handle BufferPool.FindsFrame
        (fillIndexed E fuel lists table { leafMaxSize, internalMaxSize }) after := by
  rw [buildIndexed, each_bind] at finds
  obtain ⟨after, built, becomes⟩ := run_new settled (findFree_of_new finds.1)
  rw [built] at finds
  exact ⟨_, after, rfl, rfl, becomes, by simp only [buildIndexed, run_bind, built], finds.2⟩

/-- With no row the table has a row too many. -/
theorem not_indexAgrees_nothing (settled : pool.frames.Settled) {fuel : Nat}
    {leafMaxSize internalMaxSize : Int} {lists : List (List Tuple)} (nothing : lists.flatten = [])
    (finds : Client.Each BufferPool.handle BufferPool.FindsFrame
      (buildIndexed E (fuel + 1) leafMaxSize internalMaxSize lists) pool) :
    ¬ IndexAgrees E (fuel + 1) pool leafMaxSize internalMaxSize lists := by
  obtain ⟨table, built, first, -, becomes, builds, -⟩ := run_buildIndexed settled finds
  rw [run_fillIndexed_nothing fuel nothing] at builds
  rintro ⟨filled, grown, outcome, agree⟩
  rw [builds] at outcome agree
  obtain ⟨rfl, rfl⟩ := Prod.mk.inj (Option.some.inj outcome)
  refine absurd agree (not_scansAgree_of_indexScan becomes.settled ?_
    (header_initPage Bytes.zeros).slots ?_)
  · rw [becomes.contents, first, Function.update_self]
  · intro fuel rows returned
    rw [run_indexScan_empty rfl] at returned
    split at returned
    · cases returned
    · exact (Option.some.inj returned).symm

/-- With one row the two agree exactly if `GetTuple` accepts its slot entry. -/
theorem indexAgrees_one_iff (settled : pool.frames.Settled)
    (isInt : IsInt pool.frames.disk.nextPageId) {fuel : Nat} {leafMaxSize internalMaxSize : Int}
    {lists : List (List Tuple)} {tuple : Tuple} (one : lists.flatten = [tuple])
    (finds : Client.Each BufferPool.handle BufferPool.FindsFrame
      (buildIndexed E (fuel + 2) leafMaxSize internalMaxSize lists) pool) :
    IndexAgrees E (fuel + 2) pool leafMaxSize internalMaxSize lists ↔
      EntryAccepted (firstPageOf [tuple]) 0 := by
  obtain ⟨table, built, first, last, becomes, builds, asks⟩ := run_buildIndexed settled finds
  have room := isFull_initPage tuple
  have slots := (header_initPage Bytes.zeros).slots
  obtain ⟨grown, after, fills, root, stored⟩ := run_fillIndexed_one fuel one becomes.settled
    (by rw [becomes.contents, last, Function.update_self]) room rfl asks
  rw [slots, last] at stored
  have different : pool.frames.disk.nextPageId ≠ built.frames.disk.nextPageId := by
    rw [becomes.next]
    omega
  have page : after.frames.contents table.firstPageId = some (firstPageOf [tuple]) := by
    rw [stored.contents, first, Function.update_of_ne different, Function.update_self]
    rfl
  have resident : after.frames.contents grown.rootPageId = some (rootLeaf Bytes.zeros
      (tuple.getIntValue 0) { pageId := pool.frames.disk.nextPageId, slotNum := (0 : Nat) }) := by
    rw [stored.contents, root, Function.update_self]
  have single := singleLeaf_rootLeaf Bytes.zeros (isInt_getIntValue tuple 0)
    (show ({ pageId := pool.frames.disk.nextPageId, slotNum := (0 : Nat) } : RID).IsInt from
      ⟨isInt, (by decide : IsInt (0 : Nat))⟩)
  rw [← first] at single resident
  rw [← scansAgree_one_iff stored.settled page
    (header_stored (header_initPage Bytes.zeros) room).slots resident single
    (intAt_setInt_self (by decide)), IndexAgrees, builds, fills]
  constructor
  · rintro ⟨filled, index, outcome, agree⟩
    obtain ⟨rfl, rfl⟩ := Prod.mk.inj (Option.some.inj outcome)
    exact agree
  · intro agree
    exact ⟨table, grown, rfl, agree⟩

end Agreement

variable {E : Type} [Executor E]

/-- The table and the index agree when there is one row in all and `GetTuple` accepts
its slot entry; up to one row, they agree in no other case. More rows can agree by
accident: the misplaced RIDs are read from bytes of other entries, and these may spell
the RIDs of the table. That no call got stuck says that every new page found a null
frame. -/
theorem indexAgrees_oneRow (pool : BufferPool DiskManager) (settled : pool.frames.Settled)
    (isInt : IsInt pool.frames.disk.nextPageId) (atRest : AtRest pool.mutexes) (fuel : Nat)
    (leafMaxSize internalMaxSize : Int) (lists : List (List Tuple))
    (returned : ¬ IsStuck
      (run (buildIndexed E (fuel + 2) leafMaxSize internalMaxSize lists) pool).2.mutexes) :
    (OneRow lists → IndexAgrees E (fuel + 2) pool leafMaxSize internalMaxSize lists) ∧
      (lists.flatten.length ≤ 1 →
        IndexAgrees E (fuel + 2) pool leafMaxSize internalMaxSize lists → OneRow lists) := by
  have finds := (BufferPool.not_isStuck_run_iff _ atRest).mp returned
  constructor
  · rintro ⟨tuple, one, accepted⟩
    exact (indexAgrees_one_iff settled isInt one finds).mpr accepted
  · intro few agrees
    rcases Nat.le_one_iff_eq_zero_or_eq_one.mp few with none | one
    · exact absurd agrees (not_indexAgrees_nothing settled (List.length_eq_zero_iff.mp none) finds)
    · obtain ⟨tuple, one⟩ := List.length_eq_one_iff.mp one
      exact ⟨tuple, one, (indexAgrees_one_iff settled isInt one finds).mp agrees⟩

/-- One row, on a pool of two frames. -/
theorem indexAgrees_single_row :
    IndexAgrees SeqScanExecutor 2 (BufferPool.new 2 (DiskManager.new (some {}))) 50 25
      [[], [HeapHistory.intPair 12 8]] := by
  have atRest := BufferPool.atRest_new 2 (some {})
  refine (indexAgrees_oneRow _ (Frames.settled_empty _ (by decide)) (by decide) atRest 0 50 25 _
    ?_).1 ⟨HeapHistory.intPair 12 8, rfl, by decide +kernel⟩
  exact (BufferPool.not_isStuck_run_iff _ atRest).mpr (by decide +kernel)

/-- The RIDs that the two scans of a table and its index return. -/
def scannedRids (fuel : Nat) (filled : TableHeap × BPlusTree) (pool : BufferPool DiskManager) :
    Option (List RID) × Option (List RID) :=
  ((run (collect fuel ({}, {}) (SeqScanExecutor.new filled.1)) pool).1.1.map (List.map Prod.snd),
    (run (collect fuel ({}, {}) ({ index := filled.2, table := filled.1 } : IndexScanExecutor))
      pool).1.1.map (List.map Prod.snd))

-- Three rows on three pages agree by accident: the scan of the table sees the first
-- page only, and in the leaf a key that is 0 is read as the slot number of its RID.
example :
    let outcome := run (buildIndexed SeqScanExecutor 4 50 25
      [[{ HeapHistory.intPair 0 8 with size := 2048 }, { HeapHistory.intPair 0 0 with size := 2048 },
        { HeapHistory.intPair (-1) 0 with size := 2048 }]])
      (BufferPool.new 4 (DiskManager.new (some {})))
    outcome.1.map (fun filled => scannedRids 3 filled outcome.2) =
      some (some [{ pageId := 0, slotNum := 0 }], some [{ pageId := 0, slotNum := 0 }]) := by
  decide +kernel

/-- Of two rows in ascending order the scan of the index returns the first only. -/
theorem indexScan_misses_second_row :
    ¬ IndexAgrees SeqScanExecutor 3 (BufferPool.new 2 (DiskManager.new (some {}))) 50 25
      [[HeapHistory.intPair 12 8, HeapHistory.intPair 20 8]] := by
  have rids :
      let outcome := run (buildIndexed SeqScanExecutor 3 50 25
        [[HeapHistory.intPair 12 8, HeapHistory.intPair 20 8]])
        (BufferPool.new 2 (DiskManager.new (some {})))
      outcome.1.map (fun filled => scannedRids 3 filled outcome.2) =
        some (some [{ pageId := 0, slotNum := 0 }, { pageId := 0, slotNum := 1 }],
          some [{ pageId := 0, slotNum := 0 }]) := by
    decide +kernel
  rintro ⟨table, index, outcome, agree⟩
  obtain ⟨fuel, seqRows, indexFuel, indexRows, scans, indexScans, -, same, -⟩ := agree ({}, {})
  simp only [outcome, Option.map_some, Option.some.injEq, scannedRids, Prod.mk.injEq,
    Option.map_eq_some_iff] at rids
  obtain ⟨⟨rows, ends, seqRids⟩, otherRows, endsToo, indexRids⟩ := rids
  rw [collect_unique scans ends, collect_unique indexScans endsToo, seqRids, indexRids] at same
  exact absurd ((same { pageId := 0, slotNum := 1 }).mpr (by decide)) (by decide)

end MiniDB.Executors
