import Mathlib.Algebra.GroupWithZero.Nat
import MiniDB.Executors.Streams
import MiniDB.Storage.StoredTuples

/-!
# A full scan of a table

`InsertTuple` goes on to a new page when the last one is full, but the iterator
ends with the slots of the first page, and it stops at one slot even if the page
has none. So a scan meets the tuples that were inserted exactly when there are
some and the first page takes them all.
-/

namespace MiniDB.Executors

open Foundation Buffer PoolProgram Storage TableHeap

/-- The RIDs of `count` slots of a page, from one slot on. -/
def slotsFrom (pageId : Int) (slot count : Nat) : List RID :=
  (List.range' slot count).map fun slot : Nat => { pageId, slotNum := slot }

/-- A tuple fits a page of so many slots. -/
def Fits (nSlots nextFree : Nat) (tuple : Tuple) : Prop :=
  nSlots < maxSlotsPerPage ∧ nextFree + copySize tuple + slotEntrySize ≤ pageSize

/-- One tuple after another fits. -/
def FitAll : (nSlots nextFree : Nat) → List Tuple → Prop
  | _, _, [] => True
  | nSlots, nextFree, tuple :: tuples =>
    Fits nSlots nextFree tuple ∧ FitAll (nSlots + 1) (nextFree + copySize tuple) tuples

theorem isFull_eq_false_iff {pageData : Bytes} {nSlots nextFree : Nat}
    (header : Header pageData nSlots nextFree) (tuple : Tuple) :
    isFull pageData (copySize tuple) = false ↔ Fits nSlots nextFree tuple := by
  simp only [isFull, header.slots, header.free, Fits, Bool.or_eq_false_iff,
    decide_eq_false_iff_not]
  omega

/-- What fits in a whole, by count and by size. -/
theorem fitAll_iff (tuples : List Tuple) (nonempty : tuples ≠ []) (nSlots nextFree : Nat) :
    FitAll nSlots nextFree tuples ↔
      nSlots + tuples.length ≤ maxSlotsPerPage ∧
        nextFree + (tuples.map copySize).sum + slotEntrySize ≤ pageSize := by
  induction tuples generalizing nSlots nextFree with
  | nil => exact absurd rfl nonempty
  | cons tuple tuples ih =>
    simp only [FitAll, Fits, List.length_cons, List.map_cons, List.sum_cons]
    cases tuples with
    | nil =>
      simp only [FitAll, List.length_nil, List.map_nil, List.sum_nil, and_true]
      omega
    | cons next rest =>
      rw [ih (List.cons_ne_nil _ _)]
      simp only [List.length_cons]
      omega

/-! ## Filling the heap -/

variable {pool : BufferPool DiskManager} {heap : TableHeap}

theorem run_insertAll_cons {tuple : Tuple} {rid : RID} {filled : TableHeap}
    {after : BufferPool DiskManager}
    (outcome : run (heap.insertTuple tuple) pool = ((some rid, filled), after))
    (tuples : List Tuple) :
    run (heap.insertAll (tuple :: tuples)) pool =
      ((rid :: (run (filled.insertAll tuples) after).1.1, (run (filled.insertAll tuples) after).1.2),
        (run (filled.insertAll tuples) after).2) := by
  simp only [insertAll, run_bind, outcome]
  rfl

theorem slotsFrom_succ (pageId : Int) (slot count : Nat) :
    slotsFrom pageId slot (count + 1) =
      { pageId, slotNum := slot } :: slotsFrom pageId (slot + 1) count := by
  simp only [slotsFrom, List.range'_succ, List.map_cons]

/-- What the insertions leave behind: the first `count` tuples went to the first
page, the others to other pages. -/
structure Filled (first : Int) (nSlots : Nat) (count : Nat) (pageData : Bytes) (others : List RID)
    (outcome : (List RID × TableHeap) × BufferPool DiskManager) : Prop where
  rids : outcome.1.1 = slotsFrom first nSlots count ++ others
  elsewhere : ∀ rid ∈ others, rid.pageId ≠ first
  firstPage : outcome.1.2.firstPageId = first
  settled : outcome.2.frames.Settled
  contents : outcome.2.frames.contents first = some pageData

/-- Once the last page is not the first page, the first page stays as it is. -/
theorem filled_elsewhere (tuples : List Tuple) {firstData lastData : Bytes}
    (settled : pool.frames.Settled)
    (firstPage : pool.frames.contents heap.firstPageId = some firstData)
    (last : pool.frames.contents heap.lastPageId = some lastData)
    (different : heap.lastPageId ≠ heap.firstPageId)
    (finds : Client.Each BufferPool.handle BufferPool.FindsFrame (heap.insertAll tuples) pool)
    (nSlots : Nat) :
    ∃ others, others.length = tuples.length ∧
      Filled heap.firstPageId nSlots 0 firstData others (run (heap.insertAll tuples) pool) := by
  induction tuples generalizing heap pool lastData with
  | nil => exact ⟨[], rfl, rfl, by simp, rfl, settled, firstPage⟩
  | cons tuple tuples ih =>
    simp only [insertAll, each_bind] at finds
    obtain ⟨rid, pageId, stored, count, after, outcome, onPage, becomes, place⟩ :=
      run_insertTuple_cases settled last finds.1
    rw [outcome] at finds
    have elsewhere : pageId ≠ heap.firstPageId := by
      rcases place with ⟨-, rfl, -⟩ | ⟨-, rfl⟩
      · exact different
      · exact (BufferPool.ne_nextPageId settled firstPage).symm
    have firstAfter : after.frames.contents heap.firstPageId = some firstData := by
      rw [becomes.contents, Function.update_of_ne elsewhere.symm, firstPage]
    have lastAfter : after.frames.contents pageId = some stored := by
      rw [becomes.contents, Function.update_self]
    obtain ⟨others, length, filled⟩ := @ih after { heap with lastPageId := pageId } stored
      becomes.settled firstAfter lastAfter elsewhere finds.2.1
    rw [run_insertAll_cons outcome]
    refine ⟨rid :: others, by simp [length], ?_, ?_, filled.firstPage, filled.settled,
      filled.contents⟩
    · rw [filled.rids]
      rfl
    · intro other member
      rcases List.mem_cons.mp member with rfl | later
      · rw [onPage]
        exact elsewhere
      · exact filled.elsewhere other later

/-- The insertions into a heap of one page. The tuples stay on it exactly when each
of them fits. -/
theorem exists_filled (tuples : List Tuple) {pageData : Bytes} {nSlots nextFree : Nat}
    (settled : pool.frames.Settled) (onFirst : heap.lastPageId = heap.firstPageId)
    (firstPage : pool.frames.contents heap.firstPageId = some pageData)
    (header : Header pageData nSlots nextFree)
    (finds : Client.Each BufferPool.handle BufferPool.FindsFrame (heap.insertAll tuples) pool) :
    ∃ count others firstData,
      Filled heap.firstPageId nSlots count firstData others (run (heap.insertAll tuples) pool) ∧
        count + others.length = tuples.length ∧ getNSlots firstData = (nSlots + count : Nat) ∧
        (others = [] ↔ FitAll nSlots nextFree tuples) ∧
        (others = [] → firstData = tuples.foldl storeTuple pageData) := by
  induction tuples generalizing heap pool pageData nSlots nextFree with
  | nil =>
    exact ⟨0, [], pageData, ⟨rfl, by simp, rfl, settled, firstPage⟩, rfl, header.slots,
      iff_of_true rfl trivial, fun _ => rfl⟩
  | cons tuple tuples ih =>
    simp only [insertAll, each_bind] at finds
    obtain ⟨rid, pageId, stored, count, after, outcome, onPage, becomes, place⟩ :=
      run_insertTuple_cases settled (onFirst ▸ firstPage) finds.1
    rw [outcome] at finds
    rw [run_insertAll_cons outcome]
    have fits := isFull_eq_false_iff header tuple
    have storedThere : after.frames.contents pageId = some stored := by
      rw [becomes.contents, Function.update_self]
    rcases place with ⟨room, rfl, slotNum, rfl⟩ | ⟨full, rfl⟩
    · rw [onFirst] at storedThere onPage
      obtain ⟨count, others, firstData, filled, length, slots, fitAll, data⟩ :=
        ih becomes.settled onFirst storedThere (header_stored header room) finds.2.1
      have here : rid = { pageId := heap.firstPageId, slotNum := (nSlots : Int) } := by
        cases rid
        simp only [RID.mk.injEq]
        exact ⟨onPage, slotNum.trans header.slots⟩
      refine ⟨count + 1, others, firstData, ⟨?_, filled.elsewhere, filled.firstPage,
        filled.settled, filled.contents⟩, by simp only [List.length_cons]; omega, ?_, ?_, data⟩
      · rw [filled.rids, slotsFrom_succ, here]
        rfl
      · rw [slots]
        congr 1
        omega
      · simp only [fitAll, FitAll, fits.mp room, true_and]
    · have elsewhere := (BufferPool.ne_nextPageId settled firstPage).symm
      have firstAfter : after.frames.contents heap.firstPageId = some pageData := by
        rw [becomes.contents, Function.update_of_ne elsewhere.symm, firstPage]
      obtain ⟨others, length, filled⟩ := @filled_elsewhere after
        { heap with lastPageId := pool.frames.disk.nextPageId } tuples pageData stored
        becomes.settled firstAfter storedThere elsewhere finds.2.1 nSlots
      refine ⟨0, rid :: others, pageData, ⟨?_, ?_, filled.firstPage, filled.settled,
        filled.contents⟩, by simp [length], header.slots, iff_of_false (by simp) ?_, by simp⟩
      · rw [filled.rids]
        rfl
      · intro other member
        rcases List.mem_cons.mp member with rfl | later
        · rw [onPage]
          exact elsewhere
        · exact filled.elsewhere other later
      · rintro ⟨fit, -⟩
        rw [fits.mpr fit] at full
        cases full

/-! ## The scan -/

section Scan

variable {ready : BufferPool DiskManager → Prop} {pageId : Int} {pageData : Bytes} {count : Nat}

/-- The iterator at a slot. -/
abbrev atSlot (pageId : Int) (slot : Nat) : TableIterator :=
  { currentRid := { pageId, slotNum := slot }, isEnd := false }

theorem begin_eq_atSlot (nonneg : 0 ≤ heap.firstPageId) :
    heap.begin = atSlot heap.firstPageId 0 := by
  simp only [TableHeap.begin, if_pos nonneg, decide_eq_false (Int.not_lt.mpr nonneg)]
  rfl

/-- `GetSlotCount` of a page that is delivered. -/
theorem run_getSlotCount (nonneg : 0 ≤ pageId) (delivers : Delivers ready pageId pageData)
    (isReady : ready pool) :
    (run (getSlotCount pageId) pool).1 = getNSlots pageData ∧
      ready (run (getSlotCount pageId) pool).2 := by
  obtain ⟨frame, fetched, data, released⟩ := delivers pool isReady
  simp only [getSlotCount, if_neg (Int.not_lt.mpr nonneg), run_bind, run_fetchPage, fetched,
    run_getData, run_unpinPage, run_pure, data, true_and]
  exact released

/-- `operator++` on a page that is delivered. -/
theorem run_advance (nonneg : 0 ≤ pageId) (delivers : Delivers ready pageId pageData)
    (isReady : ready pool) (slot : Nat) :
    (run (atSlot pageId slot).advance pool).1 =
        { atSlot pageId (slot + 1) with
          isEnd := decide (getNSlots pageData ≤ (slot + 1 : Nat)) } ∧
      ready (run (atSlot pageId slot).advance pool).2 := by
  obtain ⟨answer, readyAfter⟩ := run_getSlotCount nonneg delivers isReady
  simp only [TableIterator.advance, Bool.false_eq_true, if_false, run_bind, run_pure, answer]
  exact ⟨rfl, readyAfter⟩

theorem visit_end (rid : RID) (fuel : Nat) :
    (run (TableIterator.visit finish (fuel + 1) { currentRid := rid, isEnd := true }) pool).1 =
      some [] := rfl

theorem visit_atSlot (pageId : Int) (slot fuel : Nat) :
    (run (TableIterator.visit finish (fuel + 1) (atSlot pageId slot)) pool).1 =
      (run (TableIterator.visit finish fuel (run (atSlot pageId slot).advance pool).1)
        (run (atSlot pageId slot).advance pool).2).1.map
          fun rids => { pageId, slotNum := slot } :: rids := by
  rw [TableIterator.visit, if_neg (by simp [TableIterator.equals, finish])]
  simp only [run_bind, run_pure]

/-- The iterator stops at every slot that is left, and at one slot in any case. -/
theorem run_visit (nonneg : 0 ≤ pageId) (delivers : Delivers ready pageId pageData)
    (isReady : ready pool) (slots : getNSlots pageData = count) (fuel slot : Nat) :
    (run (TableIterator.visit finish fuel (atSlot pageId slot)) pool).1 =
      if max (count - slot) 1 < fuel then some (slotsFrom pageId slot (max (count - slot) 1))
      else none := by
  induction fuel generalizing slot pool with
  | zero => rfl
  | succ fuel ih =>
    obtain ⟨answer, readyAfter⟩ := run_advance nonneg delivers isReady slot
    rw [visit_atSlot, answer, slots]
    simp only [Int.ofNat_le]
    by_cases last : count ≤ slot + 1
    · have one : max (count - slot) 1 = 1 := by omega
      rw [decide_eq_true last, one]
      cases fuel with
      | zero => rfl
      | succ fuel =>
        rw [visit_end, if_pos (by omega)]
        rfl
    · have more : max (count - slot) 1 = max (count - (slot + 1)) 1 + 1 := by omega
      rw [decide_eq_false last, ih readyAfter, more, slotsFrom_succ]
      simp only [Nat.add_lt_add_iff_right]
      split <;> rfl

/-- The slot entry does not lead `GetTuple` outside the page or the tuple. -/
def EntryInside (pageData : Bytes) (slot : Nat) : Prop :=
  0 < (getSlot pageData slot).2 →
    IsInt ((getSlot pageData slot).1 + (getSlot pageData slot).2) ∧
      ((getSlot pageData slot).1 + (getSlot pageData slot).2 ≤ pageSize →
        0 ≤ (getSlot pageData slot).1 ∧ (getSlot pageData slot).2 ≤ Tuple.maxSize)

instance (pageData : Bytes) : DecidablePred (EntryInside pageData) := fun _ =>
  inferInstanceAs (Decidable (_ → _ ∧ (_ → _ ∧ _)))

theorem readTuple_ne_none_iff (slots : getNSlots pageData = count) {slot : Nat} (out : Tuple) :
    readTuple pageData { pageId, slotNum := slot } out ≠ none ↔
      (slot < count → EntryInside pageData slot) := by
  simp only [readTuple, EntryInside, slots]
  generalize getSlot pageData slot = entry
  obtain ⟨offset, size⟩ := entry
  simp only [IsInt]
  split_ifs
  all_goals
    simp only [ne_eq, not_true_eq_false, reduceCtorEq, not_false_eq_true, true_iff, false_iff]
    omega

/-- `GetTuple` from a page that is delivered. -/
theorem run_getTuple_delivered {rid : RID} (valid : rid.isValid = true)
    (delivers : Delivers ready rid.pageId pageData) (isReady : ready pool) (tuple : Tuple) :
    (run (getTuple rid tuple) pool).1 = readTuple pageData rid tuple ∧
      ready (run (getTuple rid tuple) pool).2 := by
  obtain ⟨frame, fetched, data, released⟩ := delivers pool isReady
  simp only [getTuple, valid, Bool.true_eq_false, if_false, run_bind, run_fetchPage, fetched,
    run_getData, run_unpinPage, run_pure, data, true_and]
  exact released

/-- `operator*` on a page that is delivered. -/
theorem run_deref (nonneg : 0 ≤ pageId) (delivers : Delivers ready pageId pageData)
    (isReady : ready pool) (slot : Nat) :
    (run (atSlot pageId slot).deref pool).1 =
        (readTuple pageData { pageId, slotNum := slot } {}).map Prod.snd ∧
      ready (run (atSlot pageId slot).deref pool).2 := by
  have valid : ({ pageId, slotNum := (slot : Int) } : RID).isValid = true := by
    simp [RID.isValid, nonneg]
  obtain ⟨reads, readyAfter⟩ := run_getTuple_delivered valid delivers isReady {}
  simp only [TableIterator.deref, Bool.false_eq_true, if_false, run_bind, run_pure, reads, true_and]
  exact readyAfter

/-- A scan that is at a slot. -/
abbrev scanAt (heap : TableHeap) (iter : TableIterator) : SeqScanExecutor :=
  { table := heap, iter }

/-- `Next` at a slot: the row of the slot, and the iterator one slot further. -/
theorem run_next (nonneg : 0 ≤ pageId) (delivers : Delivers ready pageId pageData)
    (isReady : ready pool) (slots : getNSlots pageData = count) (heap : TableHeap)
    (fuel slot : Nat) (row : Row) :
    ∃ after : BufferPool DiskManager, ready after ∧
      run (SeqScanExecutor.next (fuel + 1) row (scanAt heap (atSlot pageId slot))) pool =
        (match readTuple pageData { pageId, slotNum := slot } {} with
          | none => (none, scanAt heap (atSlot pageId slot))
          | some (_, tuple) => (some (true, (tuple, { pageId, slotNum := slot })),
              scanAt heap { atSlot pageId (slot + 1) with isEnd := decide (count ≤ slot + 1) }),
          after) := by
  obtain ⟨derefs, readyDeref⟩ := run_deref nonneg delivers isReady slot
  obtain ⟨advances, readyAdvance⟩ := run_advance nonneg delivers readyDeref slot
  simp only [slots, Int.ofNat_le] at advances
  simp only [SeqScanExecutor.next, if_true, SeqScanExecutor.nextLoop]
  rw [if_neg (by simp [TableIterator.equals, finish])]
  cases read : readTuple pageData { pageId, slotNum := slot } {} with
  | none =>
    refine ⟨_, readyDeref, ?_⟩
    simp only [run_bind, derefs, read, Option.map_none, run_pure]
  | some result =>
    refine ⟨_, readyAdvance, ?_⟩
    simp only [run_bind, derefs, read, Option.map_some, advances, SeqScanExecutor.skips,
      Bool.false_eq_true, if_false, run_pure]

theorem drain_end (heap : TableHeap) (rid : RID) (fuel : Nat) (row : Row) :
    (run (drain (fuel + 1) row (scanAt heap { currentRid := rid, isEnd := true })) pool).1.1 =
      some [] := rfl

/-- The RIDs of the rows that a scan returns. -/
def scanned (fuel : Nat) (row : Row) (executor : SeqScanExecutor) (pool : BufferPool DiskManager) :
    Option (List RID) :=
  (run (drain fuel row executor) pool).1.1.map (List.map Prod.snd)

/-- The slots from one slot on can be read. -/
def Readable (pageData : Bytes) (slot count : Nat) : Prop :=
  ∀ k < count, EntryInside pageData (slot + k)

instance (pageData : Bytes) (slot count : Nat) : Decidable (Readable pageData slot count) :=
  inferInstanceAs (Decidable (∀ k < count, EntryInside pageData (slot + k)))

theorem readable_succ {slot : Nat} :
    Readable pageData slot (count + 1) ↔
      EntryInside pageData slot ∧ Readable pageData (slot + 1) count := by
  rw [Readable, Nat.forall_lt_succ_left]
  simp only [Nat.add_zero, Readable, Nat.add_assoc, Nat.add_comm 1]

/-- A scan from a slot on returns the rows of the slots that are left, and one row
in any case. -/
theorem run_drain (nonneg : 0 ≤ pageId) (delivers : Delivers ready pageId pageData)
    (isReady : ready pool) (slots : getNSlots pageData = count) (heap : TableHeap)
    (fuel slot : Nat) (row : Row) :
    scanned fuel row (scanAt heap (atSlot pageId slot)) pool =
      if max (count - slot) 1 < fuel ∧ Readable pageData slot (count - slot) then
        some (slotsFrom pageId slot (max (count - slot) 1))
      else none := by
  induction fuel generalizing slot pool row with
  | zero => rfl
  | succ fuel ih =>
    obtain ⟨after, readyAfter, nextRow⟩ :=
      run_next nonneg delivers isReady slots heap fuel slot row
    have inside := @readTuple_ne_none_iff pageId pageData count slots slot {}
    simp only [scanned, drain, run_bind, Executor.next, nextRow]
    cases read : readTuple pageData { pageId, slotNum := slot } {} with
    | none =>
      rw [if_neg]
      · rfl
      · rintro ⟨-, all⟩
        refine inside.mpr (fun below => ?_) read
        exact all 0 (by omega)
    | some result =>
      have insideHere := inside.mp (by simp [read])
      simp only [run_bind, run_pure, Option.map_map]
      by_cases last : count ≤ slot + 1
      · have one : max (count - slot) 1 = 1 := by omega
        rw [decide_eq_true last, one]
        cases fuel with
        | zero => rfl
        | succ fuel =>
          rw [drain_end, if_pos]
          · rfl
          · refine ⟨by omega, fun k below => ?_⟩
            obtain rfl : k = 0 := by omega
            exact insideHere (by omega)
      · have later := ih readyAfter (slot + 1) (result.2, { pageId, slotNum := slot })
        have more : count - slot = count - (slot + 1) + 1 := by omega
        have moreRows : max (count - slot) 1 = max (count - (slot + 1)) 1 + 1 := by omega
        rw [decide_eq_false last, moreRows, more]
        simp only [readable_succ, Nat.add_lt_add_iff_right, insideHere (by omega), true_and]
        calc
          _ = (scanned fuel (result.2, { pageId, slotNum := slot })
                (scanAt heap (atSlot pageId (slot + 1))) after).map fun rids =>
                  { pageId, slotNum := slot } :: rids := (Option.map_map _ _ _).symm
          _ = _ := by
            rw [later, slotsFrom_succ]
            split <;> rfl

/-- Where the loop of the iterator ends. -/
theorem visits_iff (nonneg : 0 ≤ pageId) (delivers : Delivers ready pageId pageData)
    (isReady : ready pool) (slots : getNSlots pageData = count) (rids : List RID) :
    (∃ fuel, (run (TableIterator.visit finish fuel (atSlot pageId 0)) pool).1 = some rids) ↔
      rids = slotsFrom pageId 0 (max count 1) := by
  simp only [run_visit nonneg delivers isReady slots, Nat.sub_zero]
  constructor
  · rintro ⟨fuel, visited⟩
    split at visited
    · exact (Option.some.inj visited).symm
    · cases visited
  · rintro rfl
    exact ⟨max count 1 + 1, if_pos (Nat.lt_succ_self _)⟩

theorem length_slotsFrom (pageId : Int) (slot count : Nat) :
    (slotsFrom pageId slot count).length = count := by
  simp only [slotsFrom, List.length_map, List.length_range']

/-- How many rows the executor returns. -/
theorem returns_iff (nonneg : 0 ≤ pageId) (delivers : Delivers ready pageId pageData)
    (isReady : ready pool) (slots : getNSlots pageData = count) (heap : TableHeap) (row : Row)
    (length : Nat) :
    (∃ fuel rows, (run (drain fuel row (scanAt heap (atSlot pageId 0))) pool).1.1 = some rows ∧
        rows.length = length) ↔
      length = max count 1 ∧ Readable pageData 0 count := by
  have outcome := fun fuel => run_drain nonneg delivers isReady slots heap fuel 0 row
  simp only [scanned, Nat.sub_zero] at outcome
  constructor
  · rintro ⟨fuel, rows, returned, rfl⟩
    have rids := outcome fuel
    rw [returned, Option.map_some] at rids
    split at rids
    · next ends =>
      have lengths := congrArg List.length (Option.some.inj rids)
      rw [List.length_map, length_slotsFrom] at lengths
      exact ⟨lengths, ends.2⟩
    · cases rids
  · rintro ⟨rfl, readable⟩
    have rids := outcome (max count 1 + 1)
    rw [if_pos ⟨Nat.lt_succ_self _, readable⟩] at rids
    obtain ⟨rows, returned, same⟩ := Option.map_eq_some_iff.mp rids
    refine ⟨_, rows, returned, ?_⟩
    rw [← length_slotsFrom pageId 0 (max count 1), ← same, List.length_map]

end Scan

/-! ## Whole tables -/

/-- A heap is built and tuples are inserted: the reported RIDs and the heap. -/
def fill (tuples : List Tuple) : PoolProgram (List RID × TableHeap) := do
  let heap ← TableHeap.new
  heap.insertAll tuples

/-- A scan meets the RIDs one by one in their order, and the executor returns as many
rows. -/
structure ScansAll (heap : TableHeap) (pool : BufferPool DiskManager) (rids : List RID) : Prop where
  visits : ∃ fuel, (run (TableIterator.visit finish fuel heap.begin) pool).1 = some rids
  returns : ∀ row, ∃ fuel rows,
    (run (collect fuel row (SeqScanExecutor.new heap)) pool).1.1 = some rows ∧
      rows.length = rids.length

/-- The scan of a table that was filled on the pool is complete. -/
def ScanComplete (pool : BufferPool DiskManager) (tuples : List Tuple) : Prop :=
  let outcome := run (fill tuples) pool
  ScansAll outcome.1.2 outcome.2 outcome.1.1

/-- The first page after its tuples. -/
def firstPageOf (tuples : List Tuple) : Bytes := tuples.foldl storeTuple (initPage Bytes.zeros)

/-- There are tuples, one page takes them all, and `GetTuple` stays inside the page
and the tuple at the slot entries that they leave. -/
def OnOnePage (tuples : List Tuple) : Prop :=
  tuples ≠ [] ∧ tuples.length ≤ maxSlotsPerPage ∧
    slotHeader + (tuples.map copySize).sum + slotEntrySize ≤ pageSize ∧
    Readable (firstPageOf tuples) 0 tuples.length

/-- The slots of a page are followed by nothing, and there is one at least, where
the iterator stops at them and at one slot in any case. -/
theorem slotsFrom_append_eq_iff {first : Int} {count : Nat} {others : List RID}
    (elsewhere : ∀ rid ∈ others, rid.pageId ≠ first) :
    slotsFrom first 0 count ++ others = slotsFrom first 0 (max count 1) ↔
      others = [] ∧ count ≠ 0 := by
  constructor
  · intro same
    cases count with
    | zero =>
      have here : ({ pageId := first, slotNum := (0 : Nat) } : RID) ∈ others := by
        change others = _ at same
        rw [same]
        exact List.mem_singleton.mpr rfl
      exact absurd rfl (elsewhere _ here)
    | succ count =>
      rw [show max (count + 1) 1 = count + 1 by omega, List.append_right_eq_self] at same
      exact ⟨same, Nat.succ_ne_zero _⟩
  · rintro ⟨rfl, some⟩
    rw [List.append_nil, show max count 1 = count by omega]

/-- What a table looks like after its tuples were inserted. The pool may hold other
pages. -/
theorem filled_fill (settled : pool.frames.Settled) (tuples : List Tuple)
    (finds : Client.Each BufferPool.handle BufferPool.FindsFrame (fill tuples) pool) :
    ∃ count others firstData,
      Filled pool.frames.disk.nextPageId 0 count firstData others (run (fill tuples) pool) ∧
        count + others.length = tuples.length ∧ getNSlots firstData = count ∧
        (others = [] ↔ FitAll 0 slotHeader tuples) ∧
        (others = [] → firstData = firstPageOf tuples) := by
  simp only [fill, each_bind] at finds
  obtain ⟨after, built, becomes⟩ := run_new settled (findFree_of_new finds.1)
  simp only [fill, run_bind, built]
  rw [built] at finds
  obtain ⟨count, others, firstData, filled, length, slots, rest⟩ :=
    exists_filled tuples becomes.settled rfl (by rw [becomes.contents, Function.update_self])
      (header_initPage Bytes.zeros) finds.2
  rw [Nat.zero_add] at slots
  exact ⟨count, others, firstData, filled, length, slots, rest⟩

/-- A scan of a filled table. -/
theorem scansAll_iff_filled {first : Int} (nonneg : 0 ≤ first) {count : Nat} {firstData : Bytes}
    {others : List RID} {outcome : (List RID × TableHeap) × BufferPool DiskManager}
    (filled : Filled first 0 count firstData others outcome)
    (slots : getNSlots firstData = count) :
    ScansAll outcome.1.2 outcome.2 outcome.1.1 ↔
      (others = [] ∧ count ≠ 0) ∧ Readable firstData 0 count := by
  obtain rfl := filled.firstPage
  have starts := begin_eq_atSlot nonneg
  have holding : Holding outcome.2.frames.contents outcome.2 := ⟨filled.settled, rfl⟩
  have delivers := delivers_holding filled.contents
  have visits := visits_iff nonneg delivers holding slots outcome.1.1
  have returns := fun row => returns_iff nonneg delivers holding slots outcome.1.2 row
    outcome.1.1.length
  rw [← starts] at visits returns
  rw [filled.rids, slotsFrom_append_eq_iff filled.elsewhere] at visits
  simp only [filled.rids, List.length_append, length_slotsFrom] at returns
  constructor
  · rintro ⟨visited, rows⟩
    rw [filled.rids] at visited
    rw [filled.rids, List.length_append, length_slotsFrom] at rows
    exact ⟨visits.mp visited, ((returns ({}, {})).mp (rows ({}, {}))).2⟩
  · rintro ⟨⟨rfl, some⟩, readable⟩
    have all : count + ([] : List RID).length = max count 1 := by
      simp only [List.length_nil]
      omega
    refine ⟨?_, ?_⟩
    · rw [filled.rids]
      exact visits.mpr ⟨rfl, some⟩
    · rw [filled.rids, List.length_append, length_slotsFrom]
      exact fun row => (returns row).mpr ⟨all, readable⟩

/-- A scan of a table is complete exactly when the table has tuples and they all
are on its first page. The pool may hold other pages; that no call got stuck says
that the constructor and every insertion obtained the pages they needed. -/
theorem scanComplete_iff_onOnePage (pool : BufferPool DiskManager) (settled : pool.frames.Settled)
    (atRest : AtRest pool.mutexes) (tuples : List Tuple)
    (returned : ¬ IsStuck (run (fill tuples) pool).2.mutexes) :
    ScanComplete pool tuples ↔ OnOnePage tuples := by
  have finds := (BufferPool.not_isStuck_run_iff _ atRest).mp returned
  obtain ⟨count, others, firstData, filled, length, slots, fitAll, data⟩ :=
    filled_fill settled tuples finds
  rw [ScanComplete, scansAll_iff_filled settled.nonneg filled slots, OnOnePage]
  by_cases nonempty : tuples = []
  · subst nonempty
    refine iff_of_false ?_ (fun onOne => onOne.1 rfl)
    rintro ⟨⟨-, some⟩, -⟩
    simp only [List.length_nil] at length
    omega
  · rw [fitAll_iff tuples nonempty, Nat.zero_add] at fitAll
    constructor
    · rintro ⟨⟨rfl, -⟩, readable⟩
      obtain rfl : count = tuples.length := by simpa using length
      rw [data rfl] at readable
      exact ⟨nonempty, (fitAll.mp rfl).1, (fitAll.mp rfl).2, readable⟩
    · rintro ⟨-, few, small, readable⟩
      obtain rfl := fitAll.mpr ⟨few, small⟩
      obtain rfl : count = tuples.length := by simpa using length
      have some := List.length_pos_of_ne_nil nonempty
      exact ⟨⟨rfl, Nat.ne_of_gt some⟩, data rfl ▸ readable⟩

/-- Two tuples on the first page of a pool of one frame. -/
theorem scanComplete_two_tuples :
    ScanComplete (BufferPool.new 1 (DiskManager.new (some {})))
      [HeapHistory.intPair 12 8, HeapHistory.intPair 20 8] := by
  have atRest := BufferPool.atRest_new 1 (some {})
  refine (scanComplete_iff_onOnePage _ (Frames.settled_empty _ (by decide)) atRest _ ?_).mpr
    ⟨List.cons_ne_nil _ _, by decide, by decide, by decide +kernel⟩
  exact (BufferPool.not_isStuck_run_iff _ atRest).mpr (by decide +kernel)

/-- Of two tuples of 2048 bytes the second is on a second page, and the scan does not
reach it; and a scan of an empty table meets a slot that does not exist. -/
theorem scan_misses_second_page :
    (run (fill [{ size := 2048 }, { size := 2048 }])
          (BufferPool.new 2 (DiskManager.new (some {})))).1.1 =
        [{ pageId := 0, slotNum := 0 }, { pageId := 1, slotNum := 0 }] ∧
      ¬ ScanComplete (BufferPool.new 2 (DiskManager.new (some {})))
        [{ size := 2048 }, { size := 2048 }] ∧
      ¬ ScanComplete (BufferPool.new 2 (DiskManager.new (some {}))) [] := by
  have settled : (BufferPool.new 2 (DiskManager.new (some {}))).frames.Settled :=
    Frames.settled_empty _ (by decide)
  refine ⟨by decide +kernel, ?_, ?_⟩
  · obtain ⟨count, others, firstData, filled, -, slots, fitAll, -⟩ :=
      filled_fill settled [{ size := 2048 }, { size := 2048 }] (by decide +kernel)
    rw [ScanComplete, scansAll_iff_filled settled.nonneg filled slots, fitAll]
    rintro ⟨⟨⟨-, ⟨-, second⟩, -⟩, -⟩, -⟩
    exact absurd second (by decide)
  · obtain ⟨count, others, firstData, filled, length, slots, -⟩ :=
      filled_fill settled [] (by decide +kernel)
    intro scans
    have some := ((scansAll_iff_filled settled.nonneg filled slots).mp scans).1.2
    simp only [List.length_nil] at length
    omega

end MiniDB.Executors
