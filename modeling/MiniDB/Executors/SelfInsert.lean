import MiniDB.Executors.FullScan
import MiniDB.Executors.InsertExecutor
import MiniDB.Executors.Streams
import MiniDB.Storage.LoadedHeap

/-!
# A table that is inserted into itself

The scan asks for the slot count of the first page after each row, and each insertion
into that page adds a slot. The two go on until a row does not fit there: insertions then
go to other pages, which the scan does not read. Insertion and scan hold the table by
value; the scan reads its first page id only, and that stays.
-/

namespace MiniDB.Executors

open Foundation Buffer PoolProgram Storage TableHeap

variable {pool : BufferPool IdealDisk} {pages : Pages} {pins : List ClientPin}
  {scanned heap : TableHeap} {slot batch : Nat}

/-- `InsertExecutor(T, {}, SeqScanExecutor(T))`. -/
def selfInsert (heap : TableHeap) : InsertExecutor SeqScanExecutor :=
  { table := heap, indexes := [], childExecutor := some (SeqScanExecutor.new heap) }

/-- The scan at a slot, or at its end. -/
abbrev scanning (scanned : TableHeap) (slot : Nat) (ended : Bool) : SeqScanExecutor :=
  scanAt scanned { atSlot scanned.firstPageId slot with isEnd := ended }

/-- The insertion while it runs. -/
abbrev inserting (scanned heap : TableHeap) (slot : Nat) (ended : Bool) (batch : Nat) :
    InsertExecutor SeqScanExecutor :=
  { table := heap
    indexes := []
    childExecutor := some (scanning scanned slot ended)
    initialized := true
    batchCount := batch }

/-- What `*iter_` gives at a slot. -/
abbrev slotRead (pageData : Bytes) (heap : TableHeap) (slot : Nat) : Option (Bool × Tuple) :=
  readTuple pageData { pageId := heap.firstPageId, slotNum := slot } {}

/-! ## One call -/

/-- `Next` of the scan at a slot. -/
theorem loaded_next_scanning (ready : pool.LoadsPage pages pins)
    (allocated : pages.Allocated scanned.firstPageId) (fuel slot : Nat) (row : Row) :
    ∃ after : BufferPool IdealDisk, after.LoadsPage pages pins ∧
      run (Executor.next (fuel + 1) row (scanning scanned slot false)) pool =
        match slotRead (pages.contents scanned.firstPageId) scanned slot with
        | none => ((none, scanning scanned slot false), after)
        | some (_, tuple) =>
          ((some (true, (tuple, { pageId := scanned.firstPageId, slotNum := slot })),
            scanning scanned (slot + 1) (decide
              (getNSlots (pages.contents scanned.firstPageId) ≤ (slot + 1 : Nat)))), after) := by
  have valid : ({ pageId := scanned.firstPageId, slotNum := (slot : Int) } : RID).isValid = true := by
    simp [RID.isValid, allocated.1]
  obtain ⟨read, readyRead, reads⟩ := loaded_getTuple ready valid allocated {}
  obtain ⟨counted, readyCounted, counts⟩ := loaded_getSlotCount readyRead allocated
  change ∃ after, _ ∧ run (SeqScanExecutor.next (fuel + 1) row (scanning scanned slot false)) pool = _
  simp only [SeqScanExecutor.next, if_true, SeqScanExecutor.nextLoop]
  rw [if_neg (by simp [TableIterator.equals, finish])]
  simp only [run_bind, TableIterator.deref, Bool.false_eq_true, if_false, reads, run_pure]
  cases entry : slotRead (pages.contents scanned.firstPageId) scanned slot with
  | none =>
    refine ⟨read, readyRead, ?_⟩
    simp only [entry, Option.map_none, run_pure]
  | some answer =>
    refine ⟨counted, readyCounted, ?_⟩
    simp only [entry, Option.map_some, run_bind, TableIterator.advance, Bool.false_eq_true, if_false,
      counts, run_pure, SeqScanExecutor.skips]
    rfl

/-- `Next` of the scan at its end. -/
theorem next_scanning_end (fuel slot : Nat) (row : Row) :
    run (Executor.next (fuel + 1) row (scanning scanned slot true)) pool =
      ((some (false, row), scanning scanned slot true), pool) := by
  change run (SeqScanExecutor.next (fuel + 1) row (scanning scanned slot true)) pool = _
  simp only [SeqScanExecutor.next, if_true, SeqScanExecutor.nextLoop]
  rw [if_pos (by simp [TableIterator.equals, finish]), run_pure]

theorem InsertExecutor.next_initialized {E : Type} [Executor E] {fuel : Nat} {row : Row}
    {executor : InsertExecutor E} (initialized : executor.initialized = true) :
    Executor.next fuel row executor = executor.nextRow fuel row := by
  change InsertExecutor.next fuel row executor = _
  rw [InsertExecutor.next, if_pos initialized]

/-- `Next` of the insertion takes a row of the scan and inserts it. -/
theorem loaded_next_inserting (ready : pool.LoadsPage pages pins) (onPages : OnPages pages heap)
    (samePage : heap.firstPageId = scanned.firstPageId) (few : batch + 1 < batchInsertSize)
    (fuel slot : Nat) (row : Row) :
    match slotRead (pages.contents scanned.firstPageId) scanned slot with
    | none =>
      ∃ after : BufferPool IdealDisk, after.LoadsPage pages pins ∧
        run (Executor.next (fuel + 1) row (inserting scanned heap slot false batch)) pool =
          ((none, inserting scanned heap slot false batch), after)
    | some (_, tuple) =>
      ∃ rid, ∃ after : BufferPool IdealDisk,
        after.LoadsPage (heap.afterInsert pages tuple).2 pins ∧
        run (Executor.next (fuel + 1) row (inserting scanned heap slot false batch)) pool =
          ((some (true, (tuple, rid)),
            inserting scanned (heap.afterInsert pages tuple).1 (slot + 1) (decide
              (getNSlots (pages.contents scanned.firstPageId) ≤ (slot + 1 : Nat))) (batch + 1)),
            after) := by
  obtain ⟨later, readyLater, ran⟩ :=
    loaded_next_scanning ready (samePage ▸ onPages.first) fuel slot ({}, {})
  rw [InsertExecutor.next_initialized rfl, InsertExecutor.nextRow, if_neg Bool.false_ne_true]
  simp only [InsertExecutor.takeTuple, run_bind, ran]
  cases slotRead (pages.contents scanned.firstPageId) scanned slot with
  | none => exact ⟨later, readyLater, rfl⟩
  | some answer =>
    obtain ⟨rid, after, readyAfter, inserts⟩ :=
      loaded_insertTuple readyLater onPages.last answer.2
    refine ⟨rid, after, readyAfter, ?_⟩
    have notFull : ¬ batchInsertSize ≤ batch + 1 := Nat.not_le.mpr few
    simp only [run_pure, if_true, InsertExecutor.insertRow, run_bind, inserts,
      InsertExecutor.countRow, if_neg notFull, InsertExecutor.insertEach]

/-- `Next` of the insertion when the scan has ended. -/
theorem next_inserting_end (fuel slot : Nat) (row : Row) :
    (run (Executor.next (fuel + 1) row (inserting scanned heap slot true batch)) pool).1.1 =
        some (false, row) ∧
      (run (Executor.next (fuel + 1) row (inserting scanned heap slot true batch)) pool).2 = pool := by
  rw [InsertExecutor.next_initialized rfl, InsertExecutor.nextRow, if_neg Bool.false_ne_true]
  simp only [InsertExecutor.takeTuple, run_bind, next_scanning_end, run_pure, Bool.false_eq_true,
    if_false, and_self]

/-! ## Whole drains -/

theorem batch_lt (counted : batch ≤ slot) (few : slot ≤ maxSlotsPerPage) :
    batch + 1 < batchInsertSize :=
  calc batch + 1 ≤ maxSlotsPerPage + 1 := Nat.succ_le_succ (counted.trans few)
    _ < batchInsertSize := by decide

theorem drain_scanning_end (fuel slot : Nat) (row : Row) :
    (run (drain (fuel + 1) row (scanning scanned slot true)) pool).1.1 = some [] := by
  rw [drain_succ, next_scanning_end]

theorem drain_inserting_end (fuel slot : Nat) (row : Row) :
    (run (drain (fuel + 1) row (inserting scanned heap slot true batch)) pool).1.1 = some [] ∧
      (run (drain (fuel + 1) row (inserting scanned heap slot true batch)) pool).2 = pool := by
  obtain ⟨answer, same⟩ :=
    @next_inserting_end pool scanned heap batch fuel slot row
  rw [drain_succ]
  generalize run (Executor.next (fuel + 1) row (inserting scanned heap slot true batch)) pool =
    outcome at answer same ⊢
  obtain ⟨⟨_, after⟩, later⟩ := outcome
  obtain rfl := answer
  exact ⟨rfl, same⟩

/-- What a scan from a slot on returns: one row, or all that the page has from there. -/
theorem length_drain_scanning {fuel : Nat} {rows : List Row} (ready : pool.LoadsPage pages pins)
    (allocated : pages.Allocated scanned.firstPageId) (row : Row)
    (drained : (run (drain fuel row (scanning scanned slot false)) pool).1.1 = some rows) :
    (slot + rows.length : Nat) =
      max (getNSlots (pages.contents scanned.firstPageId)) (slot + 1 : Nat) := by
  induction fuel generalizing pool slot rows row with
  | zero => cases drained
  | succ fuel ih =>
    obtain ⟨later, readyLater, scans⟩ := loaded_next_scanning ready allocated fuel slot row
    rw [drain_succ, scans] at drained
    cases entry : slotRead (pages.contents scanned.firstPageId) scanned slot with
    | none =>
      rw [entry] at drained
      cases drained
    | some answer =>
      rw [entry] at drained
      obtain ⟨rest, drainedRest, rfl⟩ := Option.map_eq_some_iff.mp drained
      by_cases atEnd : getNSlots (pages.contents scanned.firstPageId) ≤ (slot + 1 : Nat)
      · rw [decide_eq_true atEnd] at drainedRest
        cases fuel with
        | zero => cases drainedRest
        | succ fuel =>
          rw [drain_scanning_end] at drainedRest
          obtain rfl := Option.some.inj drainedRest
          rw [max_eq_right atEnd]
          rfl
      · rw [decide_eq_false atEnd] at drainedRest
        have restLength := ih readyLater _ drainedRest
        rw [List.length_cons]
        omega

/-- The first row of a scan is the one of its slot. -/
theorem head_drain_scanning {fuel : Nat} {rows : List Row} (ready : pool.LoadsPage pages pins)
    (allocated : pages.Allocated scanned.firstPageId) (row : Row)
    (drained : (run (drain fuel row (scanning scanned slot false)) pool).1.1 = some rows) :
    ∃ answer, slotRead (pages.contents scanned.firstPageId) scanned slot = some answer ∧
      rows.head?.map Prod.fst = some answer.2 := by
  cases fuel with
  | zero => cases drained
  | succ fuel =>
    obtain ⟨later, -, scans⟩ := loaded_next_scanning ready allocated fuel slot row
    rw [drain_succ, scans] at drained
    cases entry : slotRead (pages.contents scanned.firstPageId) scanned slot with
    | none =>
      rw [entry] at drained
      cases drained
    | some answer =>
      rw [entry] at drained
      obtain ⟨rest, -, rfl⟩ := Option.map_eq_some_iff.mp drained
      exact ⟨answer, rfl, rfl⟩

/-- Where the insertions do not get into the way of the scan, they insert the rows that the
scan of the same page returns. -/
theorem drain_inserting_eq {scanPool : BufferPool IdealDisk} {scanPages : Pages}
    {scanPins : List ClientPin} {fuel : Nat} {rows : List Row}
    (scanReady : scanPool.LoadsPage scanPages scanPins)
    (allocated : scanPages.Allocated scanned.firstPageId) (ready : pool.LoadsPage pages pins)
    (onPages : OnPages pages heap) (samePage : heap.firstPageId = scanned.firstPageId)
    (sameData : pages.contents scanned.firstPageId = scanPages.contents scanned.firstPageId)
    (apart : heap.lastPageId = scanned.firstPageId →
      getNSlots (pages.contents scanned.firstPageId) ≤ (slot + 1 : Nat) ∨
        ∀ answer, slotRead (pages.contents scanned.firstPageId) scanned slot = some answer →
          isFull (pages.contents scanned.firstPageId) (copySize answer.2) = true)
    (counted : batch ≤ slot) (few : slot ≤ maxSlotsPerPage) (scanRow row : Row)
    (drained : (run (drain fuel scanRow (scanning scanned slot false)) scanPool).1.1 = some rows) :
    ∃ inserted, (run (drain fuel row (inserting scanned heap slot false batch)) pool).1.1 =
      some inserted ∧ inserted.map Prod.fst = rows.map Prod.fst := by
  induction fuel generalizing scanPool pool pages heap slot batch rows scanRow row with
  | zero => cases drained
  | succ fuel ih =>
    obtain ⟨scanLater, scanReadyLater, scans⟩ :=
      loaded_next_scanning scanReady allocated fuel slot scanRow
    have inserts := loaded_next_inserting ready onPages samePage (batch_lt counted few) fuel slot row
    rw [drain_succ, scans, ← sameData] at drained
    rw [drain_succ]
    cases entry : slotRead (pages.contents scanned.firstPageId) scanned slot with
    | none =>
      rw [entry] at drained
      cases drained
    | some answer =>
      rw [entry] at drained inserts
      obtain ⟨rid, later, readyLater, ran⟩ := inserts
      obtain ⟨rest, drainedRest, rfl⟩ := Option.map_eq_some_iff.mp drained
      suffices ∃ inserted, (run (drain fuel (answer.2, rid)
          (inserting scanned (heap.afterInsert pages answer.2).1 (slot + 1) (decide
            (getNSlots (pages.contents scanned.firstPageId) ≤ (slot + 1 : Nat))) (batch + 1)))
          later).1.1 = some inserted ∧ inserted.map Prod.fst = rest.map Prod.fst by
        obtain ⟨inserted, drainedInserts, sameTuples⟩ := this
        refine ⟨(answer.2, rid) :: inserted, ?_, ?_⟩
        · rw [ran]
          simp only [drainedInserts, Option.map_some]
        · rw [List.map_cons, List.map_cons, sameTuples]
      by_cases atEnd : getNSlots (pages.contents scanned.firstPageId) ≤ (slot + 1 : Nat)
      · rw [decide_eq_true atEnd] at drainedRest ⊢
        cases fuel with
        | zero => cases drainedRest
        | succ fuel =>
          rw [drain_scanning_end] at drainedRest
          obtain rfl := Option.some.inj drainedRest
          exact ⟨[], (drain_inserting_end fuel (slot + 1) _).1, rfl⟩
      · rw [decide_eq_false atEnd] at drainedRest ⊢
        -- The insertion was not into the page of the scan, and no later one will be.
        rcases onPages.afterInsert_first answer.2 with ⟨onFirst, room, -, -⟩ | ⟨away, same⟩
        · rw [samePage] at onFirst room
          rcases apart onFirst with ended | full
          · exact absurd ended atEnd
          · exact absurd (full answer entry) (by rw [room]; exact Bool.false_ne_true)
        · rw [samePage] at away same
          have bounded := onPages.bounded
          rw [samePage] at bounded
          exact ih scanReadyLater readyLater (onPages.afterInsert answer.2)
            (firstPageId_afterInsert.trans samePage) (same.trans sameData) (fun onFirst => absurd onFirst away)
            (Nat.succ_le_succ counted) (by omega) _ _ drainedRest

/-- After the insertion from a slot on, there are as many new rows as the first page then has
slots from there on, at least the given number, or a slot of it has an undefined read. -/
def SlotsTaken (pins : List ClientPin) (scanned : TableHeap) (slot : Nat) (least : Int)
    (outcome : (Option (List Row) × InsertExecutor SeqScanExecutor) × BufferPool IdealDisk) : Prop :=
  ∃ final : Pages, outcome.2.LoadsPage final pins ∧
    match outcome.1.1 with
    | some inserted =>
      (slot + inserted.length : Nat) = getNSlots (final.contents scanned.firstPageId) ∧
        least ≤ getNSlots (final.contents scanned.firstPageId)
    | none => ∃ unread, slotRead (final.contents scanned.firstPageId) scanned unread = none

/-- A row more, in front of a drain. -/
theorem SlotsTaken.cons {least : Int} {returned : Row}
    {outcome : (Option (List Row) × InsertExecutor SeqScanExecutor) × BufferPool IdealDisk}
    (taken : SlotsTaken pins scanned (slot + 1) least outcome) :
    SlotsTaken pins scanned slot least
      ((outcome.1.1.map fun rows => returned :: rows, outcome.1.2), outcome.2) := by
  obtain ⟨⟨rows, after⟩, later⟩ := outcome
  obtain ⟨final, loads, counts⟩ := taken
  refine ⟨final, loads, ?_⟩
  cases rows with
  | none => exact counts
  | some inserted =>
    refine ⟨?_, counts.2⟩
    rw [← counts.1, List.length_cons]
    omega

/-- The scan takes the slots that the insertions add to its page. -/
theorem drain_inserting_slots {fuel : Nat} {least : Int} (ready : pool.LoadsPage pages pins)
    (onPages : OnPages pages heap) (samePage : heap.firstPageId = scanned.firstPageId)
    (below : (slot : Int) < getNSlots (pages.contents scanned.firstPageId))
    (ahead : heap.lastPageId = scanned.firstPageId →
      (slot + 2 : Nat) ≤ getNSlots (pages.contents scanned.firstPageId))
    (starts : ∀ answer, slotRead (pages.contents scanned.firstPageId) scanned slot = some answer →
      least ≤ getNSlots ((heap.afterInsert pages answer.2).2.contents scanned.firstPageId))
    (counted : batch ≤ slot) (enough : maxSlotsPerPage < fuel + slot) (row : Row) :
    SlotsTaken pins scanned slot least
      (run (drain fuel row (inserting scanned heap slot false batch)) pool) := by
  have bounded := onPages.bounded
  rw [samePage] at bounded
  induction fuel generalizing pool pages heap slot batch least row with
  | zero => omega
  | succ fuel ih =>
    have inserts := loaded_next_inserting ready onPages samePage
      (batch_lt counted (by omega)) fuel slot row
    rw [drain_succ]
    cases entry : slotRead (pages.contents scanned.firstPageId) scanned slot with
    | none =>
      rw [entry] at inserts
      obtain ⟨later, readyLater, ran⟩ := inserts
      rw [ran]
      exact ⟨pages, readyLater, slot, entry⟩
    | some answer =>
      rw [entry] at inserts
      obtain ⟨rid, later, readyLater, ran⟩ := inserts
      have firstStep := starts answer entry
      have onPagesAfter := onPages.afterInsert answer.2
      have kept : (heap.afterInsert pages answer.2).1.firstPageId = scanned.firstPageId :=
        firstPageId_afterInsert.trans samePage
      have boundedAfter := onPagesAfter.bounded
      have grown := onPages.getNSlots_le answer.2
      have placed := onPages.afterInsert_first answer.2
      rw [kept] at boundedAfter
      rw [samePage] at grown placed
      rw [ran]
      refine SlotsTaken.cons ?_
      by_cases atEnd : getNSlots (pages.contents scanned.firstPageId) ≤ (slot + 1 : Nat)
      · rw [decide_eq_true atEnd]
        obtain ⟨fuel, rfl⟩ : ∃ more, fuel = more + 1 := Nat.exists_eq_succ_of_ne_zero (by omega)
        obtain ⟨drained, same⟩ := @drain_inserting_end later scanned
          (heap.afterInsert pages answer.2).1 (batch + 1) fuel (slot + 1) (answer.2, rid)
        refine ⟨(heap.afterInsert pages answer.2).2, same ▸ readyLater, ?_⟩
        rw [drained]
        rcases placed with ⟨onFirst, -⟩ | ⟨-, sameData⟩
        · have twoMore := ahead onFirst
          omega
        · refine ⟨?_, firstStep⟩
          rw [sameData, List.length_nil]
          omega
      · rw [decide_eq_false atEnd]
        have behind : ((slot + 1 : Nat) : Int) <
            getNSlots ((heap.afterInsert pages answer.2).2.contents scanned.firstPageId) := by
          omega
        refine ih readyLater onPagesAfter kept behind (fun onFirst => ?_) (fun second _ => ?_)
          (Nat.succ_le_succ counted) (by omega) _ boundedAfter
        · rcases placed with ⟨wasOnFirst, -, -, more⟩ | ⟨away, -⟩
          · have twoMore := ahead wasOnFirst
            omega
          · exact absurd onFirst away
        · have grownAgain := onPagesAfter.getNSlots_le second.2
          rw [kept] at grownAgain
          exact firstStep.trans grownAgain

/-! ## A table into itself -/

theorem new_eq_scanning (nonneg : 0 ≤ heap.firstPageId) :
    SeqScanExecutor.new heap = scanning heap 0 false := by
  rw [SeqScanExecutor.new, begin_eq_atSlot nonneg]

/-- The insertion begins with `Init`, which moves the scan to where it is. -/
theorem drain_selfInsert (nonneg : 0 ≤ heap.firstPageId) (fuel : Nat) (row : Row) :
    run (drain (fuel + 1) row (selfInsert heap)) pool =
      run (drain (fuel + 1) row (inserting heap heap 0 false 0)) pool := by
  have begins : run (Executor.next (fuel + 1) row (selfInsert heap)) pool =
      run (Executor.next (fuel + 1) row (inserting heap heap 0 false 0)) pool := by
    have initialized : Executor.next (fuel + 1) row (inserting heap heap 0 false 0) = _ :=
      InsertExecutor.next_initialized rfl
    rw [initialized]
    change run (InsertExecutor.next (fuel + 1) row (selfInsert heap)) pool = _
    rw [InsertExecutor.next, if_neg (by exact Bool.false_ne_true)]
    simp only [InsertExecutor.init, selfInsert, Executor.init, SeqScanExecutor.init,
      SeqScanExecutor.new, run_bind, run_pure, begin_eq_atSlot nonneg]
  rw [drain_succ, drain_succ, begins]

/-- A table without a page has no rows to insert. -/
theorem drain_selfInsert_nil (negative : heap.firstPageId < 0) (fuel : Nat) (row : Row) :
    (run (drain (fuel + 1) row (SeqScanExecutor.new heap)) pool).1.1 = some [] ∧
      (run (drain (fuel + 1) row (selfInsert heap)) pool).1.1 = some [] := by
  have ended : heap.begin = { currentRid := {}, isEnd := true } := by
    simp only [TableHeap.begin, if_neg (Int.not_le.mpr negative), decide_eq_true negative]
  simp only [SeqScanExecutor.new, selfInsert, ended]
  constructor
  · rfl
  · simp only [drain, run_bind, Executor.next, InsertExecutor.next, Bool.false_eq_true, if_false,
      InsertExecutor.init, Executor.init, SeqScanExecutor.init, ended, run_pure,
      InsertExecutor.nextRow, InsertExecutor.takeTuple]
    rfl

/-- The first row does not go into the page of the scan, or the scan has one row at most. -/
def Apart (pages : Pages) (heap : TableHeap) (rows : List Row) : Prop :=
  rows.length ≤ 1 ∨ heap.lastPageId ≠ heap.firstPageId ∨
    ∀ tuple ∈ rows.head?.map Prod.fst,
      isFull (pages.contents heap.firstPageId) (copySize tuple) = true

/-- A table that is inserted into itself gets its rows once exactly when the first row does
not go into the page of the scan or is the only one. Otherwise there are as many insertions
as the first page has slots in the end, and that is more. -/
theorem selfInsert_counts {fuel : Nat} {rows : List Row} (ready : pool.LoadsPage pages pins)
    (table : heap.firstPageId < 0 ∨ OnPages pages heap) (enough : maxSlotsPerPage < fuel) (row : Row)
    (drained : (run (drain fuel row (SeqScanExecutor.new heap)) pool).1.1 = some rows) :
    (Apart pages heap rows →
      ∃ inserted, (run (drain fuel row (selfInsert heap)) pool).1.1 = some inserted ∧
        inserted.map Prod.fst = rows.map Prod.fst) ∧
    (¬ Apart pages heap rows →
      SlotsTaken pins heap 0 (rows.length + 1) (run (drain fuel row (selfInsert heap)) pool)) := by
  obtain ⟨fuel, rfl⟩ : ∃ less, fuel = less + 1 := Nat.exists_eq_succ_of_ne_zero (by omega)
  rcases table with negative | onPages
  · obtain ⟨none, inserts⟩ := @drain_selfInsert_nil pool heap negative fuel row
    obtain rfl := Option.some.inj (none.symm.trans drained)
    refine ⟨fun _ => ⟨[], inserts, rfl⟩, fun together => ?_⟩
    exact absurd (Or.inl (Nat.zero_le 1)) together
  · have nonneg := onPages.first.1
    rw [new_eq_scanning nonneg] at drained
    rw [drain_selfInsert nonneg]
    have count := length_drain_scanning ready onPages.first row drained
    obtain ⟨head, entry, isHead⟩ := head_drain_scanning ready onPages.first row drained
    simp only [Apart, isHead, Option.mem_some_iff, forall_eq']
    constructor
    · intro apart
      apply drain_inserting_eq ready onPages.first ready onPages rfl rfl (fun onFirst => ?_)
        (Nat.le_refl 0) (Nat.zero_le _) row row drained
      rcases apart with one | away | full
      · exact .inl (by omega)
      · exact absurd onFirst away
      · refine .inr fun answer isAnswer => ?_
        obtain rfl := Option.some.inj (entry.symm.trans isAnswer)
        exact full
    · intro together
      simp only [not_or, not_le, not_not, Bool.not_eq_true] at together
      obtain ⟨many, onFirst, room⟩ := together
      apply drain_inserting_slots ready onPages rfl (by omega) (fun _ => by omega)
        (fun answer isAnswer => ?_) (Nat.le_refl 0) enough row
      obtain rfl := Option.some.inj (entry.symm.trans isAnswer)
      rcases onPages.afterInsert_first head.2 with ⟨-, -, -, more⟩ | ⟨away, -⟩
      · omega
      · rw [afterInsert_room (onFirst ▸ room)] at away
        exact absurd onFirst away

/-- A tuple of size 1000. Its first bytes are an entry of its own in slot 0 of a page. -/
def wideTuple : Tuple := { data := (Bytes.zeros.writeInt 0 12).writeInt 4 1000, size := 1000 }

/-- A table of wide tuples, in a pool of four frames. -/
abbrev wideRows (count : Nat) :
    (Option (List RID) × TableHeap) × BufferPool IdealDisk :=
  run (build (List.replicate count wideTuple)) (.new 4 (IdealDisk.start 0 fun _ => Bytes.zeros) .noop)

/-- Four wide tuples fill the first page of a table and the fifth one is on the next: the four
rows of the scan are inserted once. Two leave room there, and more than two are inserted. -/
theorem selfInsert_counts_wide :
    (∃ rows inserted, rows.length = 4 ∧
      (run (drain 200 ({}, {}) (SeqScanExecutor.new (wideRows 5).1.2)) (wideRows 5).2).1.1 =
        some rows ∧
      (run (drain 200 ({}, {}) (selfInsert (wideRows 5).1.2)) (wideRows 5).2).1.1 =
        some inserted ∧
      inserted.map Prod.fst = rows.map Prod.fst) ∧
    SlotsTaken [] (wideRows 2).1.2 0 3
      (run (drain 200 ({}, {}) (selfInsert (wideRows 2).1.2)) (wideRows 2).2) := by
  have ready := BufferPool.loadsPage_new (by decide : 0 < 4) 0 fun _ => Bytes.zeros
  constructor
  · obtain ⟨rids, after, readyAfter, onPages, built⟩ :=
      loaded_build ready (Int.le_refl 0) (List.replicate 5 wideTuple)
    have scans : (run (drain 200 ({}, {}) (SeqScanExecutor.new (wideRows 5).1.2))
        (wideRows 5).2).1.1.map List.length = some 4 := by decide +kernel
    obtain ⟨rows, drained, four⟩ := Option.map_eq_some_iff.mp scans
    have away : (wideRows 5).1.2.lastPageId ≠ (wideRows 5).1.2.firstPageId := by decide +kernel
    rw [wideRows, built] at drained away ⊢
    obtain ⟨inserted, inserts, same⟩ := (selfInsert_counts readyAfter (.inr onPages) (by decide)
      ({}, {}) drained).1 (.inr (.inl away))
    exact ⟨rows, inserted, four, drained, inserts, same⟩
  · obtain ⟨rids, after, readyAfter, onPages, built⟩ :=
      loaded_build ready (Int.le_refl 0) (List.replicate 2 wideTuple)
    have scans : (run (drain 200 ({}, {}) (SeqScanExecutor.new (wideRows 2).1.2))
        (wideRows 2).2).1.1.map (List.map fun row => row.1.size) = some [1000, 1000] := by
      decide +kernel
    obtain ⟨rows, drained, sizes⟩ := Option.map_eq_some_iff.mp scans
    rw [wideRows, built] at drained ⊢
    have two : rows.length = 2 := by simpa using congrArg List.length sizes
    have taken := (selfInsert_counts readyAfter (.inr onPages) (by decide) ({}, {}) drained).2 ?_
    · rw [two] at taken
      exact taken
    · rintro (one | away | full)
      · omega
      · exact absurd (by decide +kernel) away
      · obtain ⟨first, rest, rfl⟩ := List.exists_cons_of_length_pos (two ▸ Nat.two_pos)
        have wide : first.1.size = 1000 := (List.cons.inj sizes).1
        have isFullHere := full first.1 rfl
        rw [copySize, wide] at isFullHere
        revert isFullHere
        decide +kernel

/-- A table of two wide tuples, in a pool of four frames. -/
def wideTable : TableHeap × BufferPool DiskManager :=
  let building : PoolProgram TableHeap := do
    let heap ← TableHeap.new
    let (_, heap) ← heap.insertTuple wideTuple
    let (_, heap) ← heap.insertTuple wideTuple
    return heap
  run building (.new 4 (DiskManager.new (some {})))

/-- The scan of the table returns two rows, and four are inserted: four tuples fill the
first page. -/
theorem selfInsert_doubles :
    (run (drain 9 ({}, {}) (SeqScanExecutor.new wideTable.1)) wideTable.2).1.1.map List.length =
        some 2 ∧
      (run (drain 9 ({}, {}) (selfInsert wideTable.1)) wideTable.2).1.1.map List.length = some 4 := by
  decide +kernel

end MiniDB.Executors
