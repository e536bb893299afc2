import MiniDB.Buffer.PageStore
import MiniDB.Storage.HeapLayout

/-!
# The pages of a heap

What the operations of a heap make of the pages in the pool, as long as the last
page is resident and a null frame is left for every new one.
-/

namespace MiniDB.Storage.TableHeap

open Foundation Buffer PoolProgram

variable {pool : BufferPool DiskManager} {heap : TableHeap} {tuple : Tuple} {pageData : Bytes}

/-- The constructor, when it has a frame. -/
theorem run_new (settled : pool.frames.Settled) (free : pool.findFree ≠ none) :
    ∃ after, run TableHeap.new pool =
        ({ firstPageId := pool.frames.disk.nextPageId
           lastPageId := pool.frames.disk.nextPageId }, after) ∧
      pool.Becomes (Function.update pool.frames.contents pool.frames.disk.nextPageId
        (some (initPage Bytes.zeros))) 1 after := by
  obtain ⟨frame, served, adds⟩ := BufferPool.adds_newPage settled free
  have written := adds.putData (initPage Bytes.zeros)
  have released := BufferPool.serves_unpinPage written.settled pool.frames.disk.nextPageId true
  rw [written.contents] at released
  refine ⟨_, ?_, adds.becomes.trans (written.trans released).becomes⟩
  simp only [TableHeap.new, run_bind, run_newPage, served, run_getData, adds.data_eq, run_putData,
    run_unpinPage, run_pure]

/-- The constructor asks for a frame first. -/
theorem findFree_of_new
    (finds : Client.Each BufferPool.handle BufferPool.FindsFrame TableHeap.new pool) :
    pool.findFree ≠ none := by
  simp only [TableHeap.new, each_bind] at finds
  exact finds.1.1

/-- The end of `InsertTuple` on the last page. -/
theorem run_storeAt {frame : Nat} (settled : pool.frames.Settled)
    (found : pool.frames.pageTable.lookup heap.lastPageId = some frame)
    (resident : pool.frames.contents heap.lastPageId = some pageData) (tuple : Tuple) :
    ∃ after, run (heap.storeAt frame tuple) pool =
        ((some { pageId := heap.lastPageId, slotNum := getNSlots pageData }, heap), after) ∧
      pool.Serves (Function.update pool.frames.contents heap.lastPageId
        (some (storeTuple pageData tuple))) after := by
  have held := (BufferPool.pageAt_of_lookup settled found).2
  rw [resident] at held
  have written := BufferPool.serves_putData settled found (storeTuple pageData tuple)
  have marked := BufferPool.serves_setDirty written.settled (written.table ▸ found)
  have released := BufferPool.serves_unpinPage marked.settled heap.lastPageId true
  rw [written.contents] at marked
  rw [marked.contents] at released
  refine ⟨_, ?_, (written.trans marked).trans released⟩
  simp only [storeAt, run_bind, run_getData, run_putData, run_setDirty, run_unpinPage, run_pure,
    ← Option.some.inj held]

/-- `InsertTuple` with room on the last page. -/
theorem run_insertTuple_room (settled : pool.frames.Settled)
    (last : pool.frames.contents heap.lastPageId = some pageData)
    (room : isFull pageData (copySize tuple) = false) :
    ∃ after, run (heap.insertTuple tuple) pool =
        ((some { pageId := heap.lastPageId, slotNum := getNSlots pageData }, heap), after) ∧
      pool.Becomes (Function.update pool.frames.contents heap.lastPageId
        (some (storeTuple pageData tuple))) 0 after := by
  obtain ⟨frame, hit, holds, held⟩ := BufferPool.holds_fetchPage settled last
  obtain ⟨after, stores, stored⟩ :=
    run_storeAt holds.serves.settled holds.found (holds.serves.contents ▸ last) tuple
  rw [holds.serves.contents] at stored
  refine ⟨after, ?_, (holds.serves.trans stored).becomes⟩
  simp only [insertTuple, run_bind, run_fetchPage, hit, insertInto, run_getData, held, room,
    Bool.false_eq_true, if_false, stores]

/-- `InsertTuple` on a full page, with a null frame for a new one. -/
theorem run_insertTuple_full (settled : pool.frames.Settled)
    (last : pool.frames.contents heap.lastPageId = some pageData)
    (full : isFull pageData (copySize tuple) = true) (free : pool.findFree ≠ none) :
    ∃ after, run (heap.insertTuple tuple) pool =
        ((some { pageId := pool.frames.disk.nextPageId, slotNum := 0 },
          { heap with lastPageId := pool.frames.disk.nextPageId }), after) ∧
      pool.Becomes (Function.update pool.frames.contents pool.frames.disk.nextPageId
        (some (storeTuple emptyPage tuple))) 1 after := by
  obtain ⟨frame, hit, holds, held⟩ := BufferPool.holds_fetchPage settled last
  have released := BufferPool.serves_unpinPage holds.serves.settled heap.lastPageId false
  rw [holds.serves.contents] at released
  have middle := holds.serves.trans released
  generalize middleEq :
    ((pool.fetchPage heap.lastPageId).2.unpinPage heap.lastPageId false).2 = between at middle
  obtain ⟨newFrame, served, adds⟩ := BufferPool.adds_newPage middle.settled (middle.free ▸ free)
  rw [middle.next] at served
  have foundNew := adds.found
  have emptied := BufferPool.serves_putData adds.settled adds.found emptyPage
  have whole := middle.becomes.trans (adds.becomes.trans emptied.becomes)
  rw [adds.contents, Function.update_idem, middle.contents, middle.next] at whole
  rw [middle.next] at foundNew
  obtain ⟨after, stores, stored⟩ :=
    @run_storeAt _ { heap with lastPageId := pool.frames.disk.nextPageId } emptyPage newFrame
      whole.settled foundNew (by rw [whole.contents, Function.update_self]) tuple
  have done := whole.trans stored.becomes
  rw [whole.contents, Function.update_idem] at done
  refine ⟨after, ?_, done⟩
  rw [header_emptyPage.slots] at stores
  simp only [insertTuple, run_bind, run_fetchPage, hit, insertInto, run_getData, held, full,
    if_true, run_unpinPage, run_newPage, middleEq, served, run_putData, stores]
  rfl

/-- `GetTuple` on a resident page reads it and changes no bytes. -/
theorem run_getTuple (settled : pool.frames.Settled) {rid : RID}
    (resident : pool.frames.contents rid.pageId = some pageData) (valid : rid.isValid = true)
    (out : Tuple) :
    ∃ after, run (getTuple rid out) pool = (readTuple pageData rid out, after) ∧
      pool.Serves pool.frames.contents after := by
  obtain ⟨frame, hit, holds, held⟩ := BufferPool.holds_fetchPage settled resident
  have released := BufferPool.serves_unpinPage holds.serves.settled rid.pageId false
  rw [holds.serves.contents] at released
  refine ⟨_, ?_, holds.serves.trans released⟩
  simp only [getTuple, valid, Bool.true_eq_false, if_false, run_bind, run_fetchPage, hit,
    run_getData, held, run_unpinPage, run_pure]

/-! ## What an insertion needs -/

/-- An insertion that needs a new page finds a frame for it. -/
theorem findFree_of_each (settled : pool.frames.Settled)
    (last : pool.frames.contents heap.lastPageId = some pageData)
    (full : isFull pageData (copySize tuple) = true)
    (finds : Client.Each BufferPool.handle BufferPool.FindsFrame (heap.insertTuple tuple) pool) :
    pool.findFree ≠ none := by
  obtain ⟨frame, hit, holds, held⟩ := BufferPool.holds_fetchPage settled last
  have released := BufferPool.serves_unpinPage holds.serves.settled heap.lastPageId false
  rw [← holds.serves.free, ← released.free]
  simp only [insertTuple, insertInto, each_bind, run_fetchPage, hit, run_getData, held, full,
    if_true, run_unpinPage] at finds
  exact finds.2.2.2.1.1

/-- One insertion: on the last page when it has room, else on a new page. -/
theorem run_insertTuple_cases (settled : pool.frames.Settled)
    (last : pool.frames.contents heap.lastPageId = some pageData)
    (finds : Client.Each BufferPool.handle BufferPool.FindsFrame (heap.insertTuple tuple) pool) :
    ∃ rid pageId stored count after, run (heap.insertTuple tuple) pool =
        ((some rid, { heap with lastPageId := pageId }), after) ∧
      rid.pageId = pageId ∧
      pool.Becomes (Function.update pool.frames.contents pageId (some stored)) count after ∧
      (isFull pageData (copySize tuple) = false ∧ pageId = heap.lastPageId ∧
          rid.slotNum = getNSlots pageData ∧ stored = storeTuple pageData tuple ∨
        isFull pageData (copySize tuple) = true ∧ pageId = pool.frames.disk.nextPageId) := by
  cases full : isFull pageData (copySize tuple) with
  | false =>
    obtain ⟨after, outcome, becomes⟩ := run_insertTuple_room settled last full
    exact ⟨_, heap.lastPageId, _, 0, after, outcome, rfl, becomes, .inl ⟨rfl, rfl, rfl, rfl⟩⟩
  | true =>
    obtain ⟨after, outcome, becomes⟩ :=
      run_insertTuple_full settled last full (findFree_of_each settled last full finds)
    exact ⟨_, pool.frames.disk.nextPageId, _, 1, after, outcome, rfl, becomes, .inr ⟨rfl, rfl⟩⟩

end MiniDB.Storage.TableHeap
