import MiniDB.Executors.FullScan
import MiniDB.Executors.MergeStreams

/-!
# Hot and cold scans

A scan with a layer tests the page of each row after it has read the row, so it
reads what the unfiltered scan reads and drops the rows of the other layer. A merge
of a hot and a cold scan therefore returns the rows of the table, those on hot pages
first.
-/

namespace MiniDB.Executors

open Foundation Buffer PoolProgram Storage TableHeap

variable {ready : BufferPool DiskManager → Prop} {pageData : Bytes}
  {pool : BufferPool DiskManager} {heap : TableHeap}

/-! ## The slots of a table -/

/-- How many slots the iterator stops at: those of the page, and one in any case. -/
def slotCount (pageData : Bytes) : Nat := max (getNSlots pageData).toNat 1

/-- The iterator at a slot of the first page. -/
def scanIter (heap : TableHeap) (pageData : Bytes) (slot : Nat) : TableIterator :=
  { currentRid := { pageId := heap.firstPageId, slotNum := slot }
    isEnd := decide (slotCount pageData ≤ slot) }

@[simp]
theorem scanIter_currentRid (heap : TableHeap) (pageData : Bytes) (slot : Nat) :
    (scanIter heap pageData slot).currentRid = { pageId := heap.firstPageId, slotNum := slot } :=
  rfl

/-- The rows of some slots of a page, up to an entry that leads outside the page. -/
def slotOutput (pageId : Int) (pageData : Bytes) : (remaining slot : Nat) → Output Row
  | 0, _ => { rows := [], complete := true }
  | remaining + 1, slot =>
    match readTuple pageData { pageId, slotNum := slot } {} with
    | none => { rows := [], complete := false }
    | some (_, tuple) =>
      let rest := slotOutput pageId pageData remaining (slot + 1)
      { rest with rows := (tuple, { pageId, slotNum := slot }) :: rest.rows }

/-- The rows of a table without a filter. -/
def tableOutput (heap : TableHeap) (pageData : Bytes) : Output Row :=
  if 0 ≤ heap.firstPageId then slotOutput heap.firstPageId pageData (slotCount pageData) 0
  else { rows := [], complete := true }

/-- The row is on a page of the layer that is asked for. -/
def keepsRow (manager : Option LayerManager) (layer : DataLayer) (row : Row) : Bool :=
  match manager, layer with
  | some manager, .hot => (manager.isPageHot row.2.pageId).1
  | some manager, .cold => !(manager.isPageHot row.2.pageId).1
  | _, _ => true

/-- The rows of a table that a filter keeps. -/
def Output.filter (output : Output Row) (keeps : Row → Bool) : Output Row :=
  { output with rows := output.rows.filter keeps }

/-- A scan of the table with the filter, at some slot. -/
structure ScanFits (heap : TableHeap) (pageData : Bytes) (manager : Option LayerManager)
    (layer : DataLayer) (executor : SeqScanExecutor) : Prop where
  table : executor.table = heap
  initialized : executor.initialized = true
  manager : executor.layerManager = manager
  layer : executor.targetLayer = layer
  place : (heap.firstPageId < 0 ∧ executor.iter.isEnd = true) ∨
    (0 ≤ heap.firstPageId ∧ ∃ slot, executor.iter = scanIter heap pageData slot)

section Scan

variable {manager : Option LayerManager} {layer : DataLayer} {executor : SeqScanExecutor}

/-- What a scan skips is what its layer does not keep. -/
theorem ScanFits.skips_eq (fits : ScanFits heap pageData manager layer executor) (tuple : Tuple)
    (rid : RID) (iter : TableIterator) :
    ({ executor with iter } : SeqScanExecutor).skips rid.pageId =
      !keepsRow manager layer (tuple, rid) := by
  unfold SeqScanExecutor.skips keepsRow
  rw [fits.manager, fits.layer]
  cases manager with
  | none => cases layer <;> rfl
  | some manager =>
    cases layer with
    | hot => rfl
    | cold => exact (Bool.not_not _).symm
    | both => rfl

/-- A scan meets at least one slot. -/
theorem slotCount_pos (pageData : Bytes) : 0 < slotCount pageData := by
  unfold slotCount
  omega

theorem scanIter_of_lt {slot : Nat} (inside : slot < slotCount pageData) :
    scanIter heap pageData slot = atSlot heap.firstPageId slot := by
  rw [scanIter, decide_eq_false (Nat.not_le.mpr inside)]

/-- `Begin` is at the first slot. -/
theorem begin_eq_scanIter (nonneg : 0 ≤ heap.firstPageId) :
    heap.begin = scanIter heap pageData 0 := by
  rw [begin_eq_atSlot nonneg, scanIter_of_lt (slotCount_pos pageData)]

/-- `operator++` at a slot. -/
theorem run_advance_scanIter (nonneg : 0 ≤ heap.firstPageId)
    (delivers : Delivers ready heap.firstPageId pageData) (isReady : ready pool) {slot : Nat}
    (inside : slot < slotCount pageData) :
    (run (scanIter heap pageData slot).advance pool).1 = scanIter heap pageData (slot + 1) ∧
      ready (run (scanIter heap pageData slot).advance pool).2 := by
  obtain ⟨advances, readyAfter⟩ := run_advance nonneg delivers isReady slot
  have sameEnd : getNSlots pageData ≤ (slot + 1 : Nat) ↔ slotCount pageData ≤ slot + 1 := by
    unfold slotCount
    omega
  rw [scanIter_of_lt inside, advances]
  simp only [scanIter, sameEnd, true_and]
  exact readyAfter

/-- `operator*` at a slot. -/
theorem run_deref_scanIter (nonneg : 0 ≤ heap.firstPageId)
    (delivers : Delivers ready heap.firstPageId pageData) (isReady : ready pool) {slot : Nat}
    (inside : slot < slotCount pageData) :
    (run (scanIter heap pageData slot).deref pool).1 =
        (readTuple pageData { pageId := heap.firstPageId, slotNum := slot } {}).map Prod.snd ∧
      ready (run (scanIter heap pageData slot).deref pool).2 := by
  rw [scanIter_of_lt inside]
  exact run_deref nonneg delivers isReady slot

/-- The loop of `Next` at the end of the table. -/
theorem run_nextLoop_end (atEnd : executor.iter.isEnd = true) (fuel : Nat) (row : Row) :
    run (SeqScanExecutor.nextLoop (fuel + 1) row executor) pool =
      ((some (false, row), executor), pool) := by
  have equal : executor.iter.equals finish = true := by simp [TableIterator.equals, finish, atEnd]
  simp only [SeqScanExecutor.nextLoop, equal, if_true, run_pure]

/-- One turn of the loop of `Next` at a slot: the row is returned if the filter keeps
it, and otherwise the loop goes on at the next slot. -/
theorem run_nextLoop_slot (fits : ScanFits heap pageData manager layer executor)
    (nonneg : 0 ≤ heap.firstPageId) (delivers : Delivers ready heap.firstPageId pageData)
    (isReady : ready pool) {slot : Nat} (at_ : executor.iter = scanIter heap pageData slot)
    (inside : slot < slotCount pageData) (fuel : Nat) (row : Row) :
    ∃ later, ready later ∧
      run (SeqScanExecutor.nextLoop (fuel + 1) row executor) pool =
        match readTuple pageData { pageId := heap.firstPageId, slotNum := slot } {} with
        | none => ((none, executor), later)
        | some (_, tuple) =>
          if keepsRow manager layer (tuple, { pageId := heap.firstPageId, slotNum := slot }) then
            ((some (true, (tuple, { pageId := heap.firstPageId, slotNum := slot })),
              { executor with iter := scanIter heap pageData (slot + 1) }), later)
          else
            run (SeqScanExecutor.nextLoop fuel (tuple, row.2)
              { executor with iter := scanIter heap pageData (slot + 1) }) later := by
  obtain ⟨derefs, readyDeref⟩ := run_deref_scanIter nonneg delivers isReady inside
  obtain ⟨advances, readyAdvance⟩ := run_advance_scanIter nonneg delivers readyDeref inside
  have notEqual : (scanIter heap pageData slot).equals finish = false := by
    simp [TableIterator.equals, scanIter, finish, inside]
  simp only [SeqScanExecutor.nextLoop, at_, notEqual, Bool.false_eq_true, if_false, run_bind, derefs]
  cases readTuple pageData { pageId := heap.firstPageId, slotNum := slot } {} with
  | none => exact ⟨_, readyDeref, rfl⟩
  | some result =>
    refine ⟨_, readyAdvance, ?_⟩
    simp only [Option.map_some, run_bind, advances, scanIter_currentRid,
      fits.skips_eq result.2 { pageId := heap.firstPageId, slotNum := (slot : Int) }]
    cases keepsRow manager layer (result.2, { pageId := heap.firstPageId, slotNum := slot }) <;> rfl

/-! ## Whole scans -/

/-- A scan that was initialised goes into its loop. -/
theorem ScanFits.next_eq (fits : ScanFits heap pageData manager layer executor) (fuel : Nat)
    (row : Row) : Executor.next fuel row executor = SeqScanExecutor.nextLoop fuel row executor := by
  change SeqScanExecutor.next fuel row executor = _
  rw [SeqScanExecutor.next, if_pos fits.initialized]

/-- Where the iterator stands does not matter. -/
theorem ScanFits.at_slot (fits : ScanFits heap pageData manager layer executor)
    (nonneg : 0 ≤ heap.firstPageId) (slot : Nat) :
    ScanFits heap pageData manager layer { executor with iter := scanIter heap pageData slot } where
  table := fits.table
  initialized := fits.initialized
  manager := fits.manager
  layer := fits.layer
  place := .inr ⟨nonneg, slot, rfl⟩

/-- `Init` puts the iterator at the first slot. -/
theorem ScanFits.init (fits : ScanFits heap pageData manager layer executor) :
    ScanFits heap pageData manager layer executor.init where
  table := fits.table
  initialized := rfl
  manager := fits.manager
  layer := fits.layer
  place := by
    simp only [SeqScanExecutor.init, fits.table]
    rcases Int.lt_or_le heap.firstPageId 0 with negative | nonneg
    · exact .inl ⟨negative, decide_eq_true negative⟩
    · exact .inr ⟨nonneg, 0, begin_eq_scanIter nonneg⟩

/-- The loop of `Next` keeps the pool ready and stays in the table. -/
theorem ScanFits.nextLoop (fits : ScanFits heap pageData manager layer executor)
    (delivers : 0 ≤ heap.firstPageId → Delivers ready heap.firstPageId pageData)
    (isReady : ready pool) (fuel : Nat) (row : Row) :
    ready (run (SeqScanExecutor.nextLoop fuel row executor) pool).2 ∧
      ScanFits heap pageData manager layer
        (run (SeqScanExecutor.nextLoop fuel row executor) pool).1.2 := by
  induction fuel generalizing row executor pool with
  | zero => exact ⟨isReady, fits⟩
  | succ fuel ih =>
    rcases fits.place with ⟨_, atEnd⟩ | ⟨nonneg, slot, place⟩
    · rw [run_nextLoop_end atEnd]
      exact ⟨isReady, fits⟩
    · rcases Nat.lt_or_ge slot (slotCount pageData) with inside | beyond
      · obtain ⟨later, readyLater, ran⟩ :=
          run_nextLoop_slot fits nonneg (delivers nonneg) isReady place inside fuel row
        rw [ran]
        have fitsNext := fits.at_slot nonneg (slot + 1)
        cases readTuple pageData { pageId := heap.firstPageId, slotNum := slot } {} with
        | none => exact ⟨readyLater, fits⟩
        | some result =>
          dsimp only
          split
          · exact ⟨readyLater, fitsNext⟩
          · exact ih fitsNext readyLater (result.2, row.2)
      · have atEnd : executor.iter.isEnd = true := by
          rw [place]
          exact decide_eq_true beyond
        rw [run_nextLoop_end atEnd]
        exact ⟨isReady, fits⟩

/-- A scan keeps to its page as long as the pool delivers it. -/
theorem scan_keeps (delivers : 0 ≤ heap.firstPageId → Delivers ready heap.firstPageId pageData) :
    Keeps ready (ScanFits heap pageData manager layer) where
  init fuel executor pool isFit isReady := by
    refine ⟨isReady, fun after started => ?_⟩
    obtain rfl : executor.init = after := Option.some.inj started
    exact isFit.init
  next fuel row executor pool isFit isReady := by
    rw [isFit.next_eq]
    exact isFit.nextLoop delivers isReady fuel row

/-- A scan at the end of the table has no more rows. -/
theorem ScanFits.streams_end (fits : ScanFits heap pageData manager layer executor)
    (atEnd : executor.iter.isEnd = true) : Streams ready id 1 true [] executor := by
  intro fuel row pool enough _
  obtain ⟨fuel, rfl⟩ := Nat.exists_eq_add_of_le' enough
  rw [fits.next_eq, run_nextLoop_end atEnd]
  exact ⟨row, rfl⟩

/-- From a slot on, a scan hands out the rows of the slots that its filter keeps. -/
theorem scan_streams (nonneg : 0 ≤ heap.firstPageId)
    (delivers : Delivers ready heap.firstPageId pageData) (remaining : Nat) {slot : Nat}
    (rest : slot + remaining = slotCount pageData)
    (fits : ScanFits heap pageData manager layer executor)
    (place : executor.iter = scanIter heap pageData slot) :
    Streams ready id (remaining + 1) (slotOutput heap.firstPageId pageData remaining slot).complete
      ((slotOutput heap.firstPageId pageData remaining slot).rows.filter (keepsRow manager layer))
      executor := by
  induction remaining generalizing slot executor with
  | zero =>
    have atEnd : executor.iter.isEnd = true := by
      rw [place]
      exact decide_eq_true (by omega)
    exact fits.streams_end atEnd
  | succ remaining ih =>
    have inside : slot < slotCount pageData := by omega
    have turn : ∀ fuel row pool, ready pool → _ := fun fuel row pool isReady =>
      run_nextLoop_slot fits nonneg delivers isReady place inside fuel row
    have fitsNext := fits.at_slot nonneg (slot + 1)
    have streamsNext := ih (by omega) fitsNext rfl
    unfold slotOutput
    cases entry : readTuple pageData { pageId := heap.firstPageId, slotNum := slot } {} with
    | none =>
      intro fuel row pool enough isReady
      obtain ⟨fuel, rfl⟩ := Nat.exists_eq_add_of_le' (Nat.le_of_add_left_le enough)
      obtain ⟨later, _, ran⟩ := turn fuel row pool isReady
      rw [entry] at ran
      rw [fits.next_eq, ran]
      rfl
    | some result =>
      simp only [List.filter_cons]
      cases keeps : keepsRow manager layer
          (result.2, { pageId := heap.firstPageId, slotNum := slot }) with
      | true =>
        intro fuel row pool enough isReady
        obtain ⟨fuel, rfl⟩ := Nat.exists_eq_add_of_le' (Nat.le_of_add_left_le enough)
        obtain ⟨later, _, ran⟩ := turn fuel row pool isReady
        rw [entry] at ran
        simp only [keeps, if_true] at ran
        rw [fits.next_eq, ran]
        exact ⟨⟨_, rfl, rfl⟩, streamsNext.mono (by omega)⟩
      | false =>
        refine Streams.of_later (Nat.le_succ _) fun fuel row pool enough isReady => ?_
        obtain ⟨fuel, rfl⟩ := Nat.exists_eq_add_of_le' (Nat.le_of_add_left_le enough)
        obtain ⟨later, readyLater, ran⟩ := turn fuel row pool isReady
        rw [entry] at ran
        simp only [keeps, Bool.false_eq_true, if_false] at ran
        have covers : remaining + 1 ≤ fuel := Nat.le_of_succ_le_succ enough
        refine ⟨_, fuel, (result.2, row.2), later, covers, readyLater, streamsNext, ?_⟩
        rw [fits.next_eq, ran, fitsNext.next_eq]

variable (manager layer) in
/-- `Init` brings a scan back to the first row of the table that its filter keeps. -/
theorem scan_restarts
    (delivers : 0 ≤ heap.firstPageId → Delivers ready heap.firstPageId pageData) :
    Restarts ready id (ScanFits heap pageData manager layer) (slotCount pageData + 1)
      (some ((tableOutput heap pageData).filter (keepsRow manager layer))) where
  keeps := scan_keeps delivers
  undefined isNone := by simp at isNone
  starts out defined fuel executor pool enough isFit isReady := by
    obtain rfl := Option.some.inj defined
    refine ⟨executor.init, rfl, ?_⟩
    have fits := isFit.init
    simp only [tableOutput, Output.filter]
    rcases Int.lt_or_le heap.firstPageId 0 with negative | nonneg
    · rw [if_neg (Int.not_le.mpr negative)]
      have atEnd : executor.init.iter.isEnd = true := by
        simp only [SeqScanExecutor.init, isFit.table]
        exact decide_eq_true negative
      exact (fits.streams_end atEnd).mono (by omega)
    · rw [if_pos nonneg]
      refine scan_streams nonneg (delivers nonneg) (slotCount pageData) (Nat.zero_add _) fits ?_
      simp only [SeqScanExecutor.init, isFit.table]
      exact begin_eq_scanIter nonneg

variable (heap pageData manager layer) in
theorem ScanFits.new :
    ScanFits heap pageData manager layer (SeqScanExecutor.newLayer heap manager layer) where
  table := rfl
  initialized := rfl
  manager := rfl
  layer := rfl
  place := by
    rcases Int.lt_or_le heap.firstPageId 0 with negative | nonneg
    · exact .inl ⟨negative, decide_eq_true negative⟩
    · exact .inr ⟨nonneg, 0, begin_eq_scanIter nonneg⟩

end Scan

/-- A pool on which a table of one page was filled delivers that page. -/
theorem delivers_fill (settled : pool.frames.Settled) {tuples : List Tuple}
    (finds : Client.Each BufferPool.handle BufferPool.FindsFrame (fill tuples) pool)
    (onOne : FitAll 0 slotHeader tuples) :
    Holding (run (fill tuples) pool).2.frames.contents (run (fill tuples) pool).2 ∧
      Delivers (Holding (run (fill tuples) pool).2.frames.contents)
        (run (fill tuples) pool).1.2.firstPageId (firstPageOf tuples) := by
  obtain ⟨count, others, firstData, filled, -, -, fitAll, data⟩ := filled_fill settled tuples finds
  obtain rfl := data (fitAll.mpr onOne)
  refine ⟨⟨filled.settled, rfl⟩, delivers_holding ?_⟩
  rw [filled.firstPage]
  exact filled.contents

/-! ## Merging a hot and a cold scan -/

/-- The row is on a hot page. -/
def onHotPage (manager : LayerManager) (row : Row) : Bool := (manager.isPageHot row.2.pageId).1

/-- `MergeExecutor(SeqScan(T, L, HOT), SeqScan(T, L, COLD))`. -/
def hotThenCold (heap : TableHeap) (manager : LayerManager) :
    MergeExecutor SeqScanExecutor SeqScanExecutor :=
  { hotExecutor := some (.newLayer heap (some manager) .hot)
    coldExecutor := some (.newLayer heap (some manager) .cold) }

/-- At most as many rows as slots. -/
theorem length_slotOutput (pageId : Int) (pageData : Bytes) (remaining slot : Nat) :
    (slotOutput pageId pageData remaining slot).rows.length ≤ remaining := by
  induction remaining generalizing slot with
  | zero => exact Nat.le_refl 0
  | succ remaining ih =>
    unfold slotOutput
    cases readTuple pageData { pageId, slotNum := slot } {} with
    | none => exact Nat.zero_le _
    | some result => exact Nat.succ_le_succ (ih (slot + 1))

/-- At most as many rows as the page has slots. -/
theorem length_tableOutput (heap : TableHeap) (pageData : Bytes) :
    (tableOutput heap pageData).rows.length ≤ slotCount pageData := by
  unfold tableOutput
  split
  · exact length_slotOutput _ _ _ _
  · exact Nat.zero_le _

/-- The scan of some slots is cut short where the read of one is undefined. -/
theorem complete_slotOutput_iff (pageId : Int) (pageData : Bytes) (remaining slot : Nat) :
    (slotOutput pageId pageData remaining slot).complete = false ↔
      ∃ later, slot ≤ later ∧ later < slot + remaining ∧
        readTuple pageData { pageId, slotNum := later } {} = none := by
  induction remaining generalizing slot with
  | zero =>
    simp only [slotOutput, Bool.true_eq_false, false_iff]
    rintro ⟨later, from_, before, -⟩
    omega
  | succ remaining ih =>
    unfold slotOutput
    cases entry : readTuple pageData { pageId, slotNum := slot } {} with
    | none => exact iff_of_true rfl ⟨slot, Nat.le_refl slot, by omega, entry⟩
    | some result =>
      refine (ih (slot + 1)).trans ⟨?_, ?_⟩
      · rintro ⟨later, from_, before, undefined⟩
        exact ⟨later, by omega, by omega, undefined⟩
      · rintro ⟨later, from_, before, undefined⟩
        rcases Nat.eq_or_lt_of_le from_ with rfl | further
        · rw [entry] at undefined
          exact absurd undefined (Option.some_ne_none result)
        · exact ⟨later, further, by omega, undefined⟩

/-- The RIDs of a page name it. -/
theorem pageId_of_mem_slotOutput {pageId : Int} {remaining slot : Nat} {row : Row}
    (member : row ∈ (slotOutput pageId pageData remaining slot).rows) : row.2.pageId = pageId := by
  induction remaining generalizing slot with
  | zero => exact absurd member List.not_mem_nil
  | succ remaining ih =>
    unfold slotOutput at member
    cases entry : readTuple pageData { pageId, slotNum := slot } {} with
    | none => simp [entry] at member
    | some result =>
      rw [entry] at member
      rcases List.mem_cons.mp member with rfl | later
      · rfl
      · exact ih later

/-- A complete output has the row of every slot. -/
theorem getElem?_slotOutput {pageId : Int} {remaining slot : Nat}
    (complete : (slotOutput pageId pageData remaining slot).complete = true) {index : Nat}
    (inside : index < remaining) :
    ∃ result, readTuple pageData { pageId, slotNum := (slot + index : Nat) } {} = some result ∧
      (slotOutput pageId pageData remaining slot).rows[index]? =
        some (result.2, { pageId, slotNum := (slot + index : Nat) }) := by
  induction remaining generalizing slot index with
  | zero => omega
  | succ remaining ih =>
    unfold slotOutput at complete ⊢
    cases entry : readTuple pageData { pageId, slotNum := slot } {} with
    | none => simp [entry] at complete
    | some result =>
      rw [entry] at complete
      cases index with
      | zero => exact ⟨result, entry, rfl⟩
      | succ index =>
        obtain ⟨later, isLater, found⟩ := ih complete (Nat.lt_of_succ_lt_succ inside)
        have place : slot + 1 + index = slot + (index + 1) := by omega
        rw [place] at isLater found
        exact ⟨later, isLater, found⟩

/-- The entry of some slot leads outside the page. -/
def Broken (heap : TableHeap) (pageData : Bytes) : Prop :=
  0 ≤ heap.firstPageId ∧ ∃ slot < slotCount pageData,
    readTuple pageData { pageId := heap.firstPageId, slotNum := slot } {} = none

instance (heap : TableHeap) (pageData : Bytes) : Decidable (Broken heap pageData) :=
  inferInstanceAs (Decidable (_ ∧ _))

/-- A table cannot be drained exactly if one of its slot entries is broken. -/
theorem drained_tableOutput_eq_none_iff (heap : TableHeap) (pageData : Bytes) :
    (tableOutput heap pageData).drained = none ↔ Broken heap pageData := by
  unfold tableOutput Broken Output.drained
  by_cases nonneg : 0 ≤ heap.firstPageId
  · have incomplete := complete_slotOutput_iff heap.firstPageId pageData (slotCount pageData) 0
    simp only [Nat.zero_le, true_and, Nat.zero_add] at incomplete
    simp only [nonneg, if_true, true_and, ← incomplete]
    cases (slotOutput heap.firstPageId pageData (slotCount pageData) 0).complete <;> simp
  · simp [nonneg]

section Rows

variable {rows : List Row} {slot : Nat}

/-- The rows of a table that has a page. -/
theorem rows_of_drained (nonneg : 0 ≤ heap.firstPageId)
    (scanned : (tableOutput heap pageData).drained = some rows) :
    (slotOutput heap.firstPageId pageData (slotCount pageData) 0).complete = true ∧
      (slotOutput heap.firstPageId pageData (slotCount pageData) 0).rows = rows := by
  unfold tableOutput Output.drained at scanned
  rw [if_pos nonneg] at scanned
  split at scanned
  · exact ⟨‹_›, Option.some.inj scanned⟩
  · exact absurd scanned (by simp)

/-- A table without a first page has no row. -/
theorem rows_of_negative (negative : heap.firstPageId < 0)
    (scanned : (tableOutput heap pageData).drained = some rows) : rows = [] := by
  unfold tableOutput at scanned
  rw [if_neg (Int.not_le.mpr negative)] at scanned
  exact (Option.some.inj scanned).symm

/-- Every row is at its slot. -/
theorem getElem?_rows (scanned : (tableOutput heap pageData).drained = some rows)
    (inside : slot < rows.length) :
    0 ≤ heap.firstPageId ∧ slot < slotCount pageData ∧
      ∃ result, readTuple pageData { pageId := heap.firstPageId, slotNum := slot } {} = some result ∧
        rows[slot]? = some (result.2, { pageId := heap.firstPageId, slotNum := slot }) := by
  rcases Int.lt_or_le heap.firstPageId 0 with negative | nonneg
  · rw [rows_of_negative negative scanned] at inside
    exact absurd inside (Nat.not_lt_zero slot)
  · obtain ⟨complete, rfl⟩ := rows_of_drained nonneg scanned
    have few := Nat.lt_of_lt_of_le inside (length_slotOutput ..)
    obtain ⟨result, entry, found⟩ := getElem?_slotOutput complete few
    rw [Nat.zero_add] at entry found
    exact ⟨nonneg, few, result, entry, found⟩

/-- A scan that ends has a row for every slot. -/
theorem length_rows (nonneg : 0 ≤ heap.firstPageId)
    (scanned : (tableOutput heap pageData).drained = some rows) :
    rows.length = slotCount pageData := by
  obtain ⟨complete, rfl⟩ := rows_of_drained nonneg scanned
  refine Nat.le_antisymm (length_slotOutput ..) (Nat.le_of_not_lt fun short => ?_)
  obtain ⟨result, -, found⟩ := getElem?_slotOutput complete short
  rw [List.getElem?_eq_none (Nat.le_refl _)] at found
  exact absurd found (by simp)

end Rows

section Merged

variable {fuel : Nat} {row : Row}

/-- The rows of a scan with a filter. -/
theorem run_collect_scan
    (delivers : 0 ≤ heap.firstPageId → Delivers ready heap.firstPageId pageData)
    (manager : Option LayerManager) (layer : DataLayer) (isReady : ready pool)
    (enough : 2 * slotCount pageData + 1 < fuel) :
    (run (collect fuel row (SeqScanExecutor.newLayer heap manager layer)) pool).1.1 =
      (tableOutput heap pageData).drained.map fun rows => rows.filter (keepsRow manager layer) := by
  have few := length_tableOutput heap pageData
  have fewer := List.length_filter_le (keepsRow manager layer) (tableOutput heap pageData).rows
  have covers : slotCount pageData + 1 +
      rowCount (some ((tableOutput heap pageData).filter (keepsRow manager layer))) < fuel := by
    simp only [rowCount, Option.elim_some, Output.filter]
    omega
  rw [(scan_restarts manager layer delivers).collect_rows row covers
    (ScanFits.new ..) isReady]
  simp only [Option.bind_some, Output.drained, Output.filter]
  split <;> rfl

/-- The rows of a scan without a filter. -/
theorem run_collect_unfiltered
    (delivers : 0 ≤ heap.firstPageId → Delivers ready heap.firstPageId pageData)
    (isReady : ready pool) (enough : 2 * slotCount pageData + 1 < fuel) :
    (run (collect fuel row (SeqScanExecutor.new heap)) pool).1.1 =
      (tableOutput heap pageData).drained := by
  have unfiltered : keepsRow none .both = fun _ => true := rfl
  have scanned : (run (collect fuel row (SeqScanExecutor.newLayer heap none .both)) pool).1.1 = _ :=
    run_collect_scan delivers none .both isReady enough
  simp only [unfiltered, List.filter_true, Option.map_id_fun', id_eq] at scanned
  exact scanned

/-- The rows of the merge of a hot and a cold scan. -/
theorem run_collect_hotThenCold
    (delivers : 0 ≤ heap.firstPageId → Delivers ready heap.firstPageId pageData)
    (manager : LayerManager) (isReady : ready pool) (enough : 3 * slotCount pageData + 1 < fuel) :
    (run (collect fuel row (hotThenCold heap manager)) pool).1.1 =
      (tableOutput heap pageData).drained.map fun rows =>
        rows.filter (keepsRow (some manager) .hot) ++ rows.filter (keepsRow (some manager) .cold) := by
  have few := length_tableOutput heap pageData
  have fewHot := List.length_filter_le (keepsRow (some manager) .hot) (tableOutput heap pageData).rows
  have fewCold := List.length_filter_le (keepsRow (some manager) .cold) (tableOutput heap pageData).rows
  have hot := (scan_restarts (some manager) .hot delivers).child
  have cold := (scan_restarts (some manager) .cold delivers).child
  have fits : MergeFits (ChildFits (ScanFits heap pageData (some manager) .hot))
      (ChildFits (ScanFits heap pageData (some manager) .cold)) (hotThenCold heap manager) :=
    ⟨⟨_, rfl, ScanFits.new ..⟩, ⟨_, rfl, ScanFits.new ..⟩⟩
  have covers : slotCount pageData + 1 + rowCount (mergeOutput
      (some ((tableOutput heap pageData).filter (keepsRow (some manager) .hot)))
      (some ((tableOutput heap pageData).filter (keepsRow (some manager) .cold)))) < fuel := by
    simp only [mergeOutput, Output.append, Output.filter, rowCount, Option.pure_def,
      Option.bind_eq_bind, Option.bind_some, Option.elim_some]
    split
    · rw [List.length_append]
      omega
    · omega
  rw [(merge_restarts hot cold).collect_rows row covers fits isReady]
  simp only [mergeOutput, Output.append, Output.drained, Output.filter, Option.pure_def,
    Option.bind_eq_bind, Option.bind_some, Bool.and_self]
  split <;> rfl

/-- The merge of a hot and a cold scan returns the rows of the table on hot pages and
then those on cold pages, each in the order of the scan. A scan has no defined result
only where a slot entry leads outside the page. -/
theorem merge_partitions_scan (heap : TableHeap) (manager : LayerManager)
    (ready : BufferPool DiskManager → Prop) (pageData : Bytes)
    (delivers : 0 ≤ heap.firstPageId → Delivers ready heap.firstPageId pageData) :
    ∃ scanned : Option (List Row), (scanned = none ↔ Broken heap pageData) ∧
      (∀ fuel row pool, 3 * slotCount pageData + 1 < fuel → ready pool →
        (run (collect fuel row (SeqScanExecutor.new heap)) pool).1.1 = scanned ∧
        (run (collect fuel row (hotThenCold heap manager)) pool).1.1 =
          scanned.map fun rows =>
            rows.filter (onHotPage manager) ++ rows.filter fun row => !onHotPage manager row) ∧
      ∀ rows ∈ scanned,
        (rows.filter (onHotPage manager) ++ rows.filter fun row => !onHotPage manager row).Perm
          rows := by
  refine ⟨(tableOutput heap pageData).drained, drained_tableOutput_eq_none_iff heap pageData, ?_,
    fun rows _ => List.filter_append_perm (onHotPage manager) rows⟩
  intro fuel row pool enough isReady
  exact ⟨run_collect_unfiltered delivers isReady (by omega),
    run_collect_hotThenCold delivers manager isReady enough⟩

/-- Two rows on a hot page. -/
theorem merge_partitions_two_rows :
    let outcome := run (fill [HeapHistory.intPair 12 8, HeapHistory.intPair 20 8])
      (BufferPool.new 1 (DiskManager.new (some {})))
    let manager : LayerManager := { hotPageIds := {0} }
    ∃ rows, (run (collect 20 ({}, {}) (SeqScanExecutor.new outcome.1.2)) outcome.2).1.1 = some rows ∧
      (run (collect 20 ({}, {}) (hotThenCold outcome.1.2 manager)) outcome.2).1.1 =
        some (rows.filter (onHotPage manager) ++ rows.filter fun row => !onHotPage manager row) := by
  intro outcome manager
  have settled : (BufferPool.new 1 (DiskManager.new (some {}))).frames.Settled :=
    Frames.settled_empty _ (by decide)
  obtain ⟨isReady, delivers⟩ := delivers_fill settled (by decide +kernel)
    ((fitAll_iff [HeapHistory.intPair 12 8, HeapHistory.intPair 20 8] (List.cons_ne_nil _ _) _ _).mpr
      (by decide))
  obtain ⟨scanned, defined, returns, -⟩ :=
    merge_partitions_scan outcome.1.2 manager _ _ fun _ => delivers
  obtain ⟨scan, merged⟩ := returns 20 ({}, {}) outcome.2 (by decide +kernel) isReady
  cases scanned with
  | none => exact absurd (defined.mp rfl) (by decide +kernel)
  | some rows => exact ⟨rows, scan, merged⟩

end Merged

end MiniDB.Executors
