import MiniDB.Storage.ServedHeap
import MiniDB.Storage.TableIterator

/-!
# The heap in a pool that can load a page

A pool over an ideal disk with a frame that is not pinned refuses no request that the
heap makes, since the heap holds one page at a time. `afterInsert` says what an insertion
then makes of the heap and of the pages.
-/

namespace MiniDB.Storage

open Foundation Buffer PoolProgram

namespace TableHeap

variable {pool : BufferPool IdealDisk} {pages : Pages} {pins : List ClientPin} {heap : TableHeap}
  {pageId : Int}

/-- `GetTuple` of a page that exists. -/
theorem loaded_getTuple (ready : pool.LoadsPage pages pins) {rid : RID} (valid : rid.isValid = true)
    (allocated : pages.Allocated rid.pageId) (out : Tuple) :
    ∃ after : BufferPool IdealDisk, after.LoadsPage pages pins ∧
      run (getTuple rid out) pool = (readTuple (pages.contents rid.pageId) rid out, after) := by
  obtain ⟨frame, fetched, held, released⟩ := ready.visit allocated
  have read := (held.pageAt_eq List.mem_cons_self).2
  dsimp only at read
  refine ⟨_, released, ?_⟩
  simp only [getTuple, valid, Bool.true_eq_false, if_false, run_bind, run_fetchPage, fetched,
    run_getData, read, run_unpinPage, run_pure]

/-- `GetSlotCount` of a page that exists. -/
theorem loaded_getSlotCount (ready : pool.LoadsPage pages pins) (allocated : pages.Allocated pageId) :
    ∃ after : BufferPool IdealDisk, after.LoadsPage pages pins ∧
      run (getSlotCount pageId) pool = (getNSlots (pages.contents pageId), after) := by
  obtain ⟨frame, fetched, held, released⟩ := ready.visit allocated
  have read := (held.pageAt_eq List.mem_cons_self).2
  dsimp only at read
  refine ⟨_, released, ?_⟩
  simp only [getSlotCount, if_neg (Int.not_lt.mpr allocated.1), run_bind, run_fetchPage, fetched,
    run_getData, read, run_unpinPage, run_pure]

/-- The heap and the pages after an insertion: the tuple is on the last page, or it is the
first one on a new page. -/
def afterInsert (heap : TableHeap) (pages : Pages) (tuple : Tuple) : TableHeap × Pages :=
  if isFull (pages.contents heap.lastPageId) (copySize tuple) then
    ({ heap with lastPageId := pages.nextPageId },
      pages.add.write pages.nextPageId (storeTuple emptyPage tuple))
  else
    (heap, pages.write heap.lastPageId (storeTuple (pages.contents heap.lastPageId) tuple))

/-- The end of `InsertTuple`, once the page is held. -/
theorem loaded_storeAt {now : BufferPool IdealDisk} {frame : Nat} {pin : ClientPin}
    (samePage : pin.pageId = heap.lastPageId) (sameFrame : pin.frame = frame)
    (shows : now.ShowsPages pages (pin :: pins)) (tidy : now.Tidy) (tuple : Tuple) :
    ∃ after : BufferPool IdealDisk,
      after.ShowsPages (pages.write heap.lastPageId
        (storeTuple (pages.contents heap.lastPageId) tuple)) pins ∧
      after.Tidy ∧ after.poolSize = now.poolSize ∧
      run (heap.storeAt frame tuple) now =
        ((some { pageId := heap.lastPageId
                 slotNum := getNSlots (pages.contents heap.lastPageId) }, heap), after) := by
  obtain ⟨after, ran, showsAfter⟩ :=
    @served_storeAt _ idealService now pages pins heap frame pin samePage sameFrame shows tuple
  have tidyAfter : (run (heap.storeAt frame tuple) now).2.Tidy := by
    simp only [storeAt, run_bind, run_getData, run_putData, run_setDirty, run_unpinPage, run_pure]
    exact ((tidy.handle (.putData frame _)).handle (.setDirty frame)).unpinPage _ true
  have sizeAfter : (run (heap.storeAt frame tuple) now).2.poolSize = now.poolSize := by
    simp only [storeAt, run_bind, run_getData, run_putData, run_setDirty, run_unpinPage, run_pure]
    exact BufferPool.poolSize_unpinPage _ _ _
  rw [run_idealService] at ran
  rw [ran] at tidyAfter sizeAfter
  exact ⟨after, showsAfter, tidyAfter, sizeAfter, ran⟩

/-- `InsertTuple` stores the tuple. -/
theorem loaded_insertTuple (ready : pool.LoadsPage pages pins)
    (allocated : pages.Allocated heap.lastPageId) (tuple : Tuple) :
    ∃ rid, ∃ after : BufferPool IdealDisk,
      after.LoadsPage (heap.afterInsert pages tuple).2 pins ∧
      run (heap.insertTuple tuple) pool =
        ((some rid, (heap.afterInsert pages tuple).1), after) := by
  obtain ⟨frame, fetched, held, released⟩ := ready.visit allocated
  have read := (held.pageAt_eq List.mem_cons_self).2
  dsimp only at read
  unfold afterInsert
  simp only [insertTuple, run_bind, run_fetchPage, fetched, insertInto, run_getData, read]
  cases full : isFull (pages.contents heap.lastPageId) (copySize tuple) with
  | false =>
    obtain ⟨after, shows, tidy, size, ran⟩ :=
      loaded_storeAt rfl rfl held (ready.tidy.fetchPage heap.lastPageId) tuple
    simp only [Bool.false_eq_true, if_false]
    exact ⟨_, after, ready.of_shows shows tidy (size.trans (BufferPool.poolSize_fetchPage _ _)), ran⟩
  | true =>
    simp only [if_true, run_bind, run_unpinPage, run_newPage]
    rcases released.tidy.newPage_cases with ⟨all, -⟩ | ⟨-, served, tidyNew⟩
    · exact absurd all released.loads
    · rcases released.shows.newPage with ⟨refused, -⟩ | ⟨newFrame, made, fresh⟩
      · exact absurd refused served
      · have emptied := idealService.putData fresh emptyPage
        obtain ⟨after, shows, tidy, size, ran⟩ := @loaded_storeAt _ _
          { heap with lastPageId := pages.nextPageId } _ newFrame _ rfl rfl emptied
          (tidyNew.handle (.putData newFrame emptyPage)) tuple
        rw [Pages.contents_write_self, Pages.write_write] at shows
        simp only [made, run_bind, run_putData]
        exact ⟨_, after,
          released.of_shows shows tidy (size.trans (BufferPool.poolSize_newPage _)), ran⟩

/-- `TableHeap::TableHeap` obtains its first page. -/
theorem loaded_new (ready : pool.LoadsPage pages pins) :
    ∃ after : BufferPool IdealDisk,
      after.LoadsPage (pages.add.write pages.nextPageId (initPage Bytes.zeros)) pins ∧
      run TableHeap.new pool =
        ({ firstPageId := pages.nextPageId, lastPageId := pages.nextPageId }, after) := by
  rcases ready.tidy.newPage_cases with ⟨all, -⟩ | ⟨-, served, tidyNew⟩
  · exact absurd all ready.loads
  · rcases ready.shows.newPage with ⟨refused, -⟩ | ⟨frame, made, fresh⟩
    · exact absurd refused served
    · have read := (fresh.pageAt_eq List.mem_cons_self).2
      have written := idealService.putData fresh (initPage Bytes.zeros)
      have released := @PageService.unpinPage _ idealService _ _ _ _ true written fun _ => rfl
      have tidy := (tidyNew.handle (.putData frame (initPage Bytes.zeros))).unpinPage
        pages.nextPageId true
      rw [Pages.contents_add_self] at read
      refine ⟨_, ready.of_shows released tidy
        ((BufferPool.poolSize_unpinPage _ _ _).trans (BufferPool.poolSize_newPage pool)), ?_⟩
      simp only [TableHeap.new, run_bind, run_newPage, made, run_getData, read, run_putData,
        run_unpinPage, run_pure]
      rfl

/-! ## The pages of a table -/

/-- The first and the last page of the heap exist, and the slots of the first one are as many
as a page takes at most. -/
structure OnPages (pages : Pages) (heap : TableHeap) : Prop where
  first : pages.Allocated heap.firstPageId
  bounded : getNSlots (pages.contents heap.firstPageId) ≤ maxSlotsPerPage
  last : pages.Allocated heap.lastPageId

/-- A new heap has its first page. -/
theorem onPages_new (nonneg : 0 ≤ pages.nextPageId) :
    OnPages (pages.add.write pages.nextPageId (initPage Bytes.zeros))
      { firstPageId := pages.nextPageId, lastPageId := pages.nextPageId } := by
  have allocated : (pages.add.write pages.nextPageId (initPage Bytes.zeros)).Allocated
      pages.nextPageId := ⟨nonneg, Int.lt_succ _⟩
  refine ⟨allocated, ?_, allocated⟩
  rw [Pages.contents_write_self, (header_initPage Bytes.zeros).slots]
  decide

variable {tuple : Tuple}

/-- An insertion with room writes the last page. -/
theorem afterInsert_room (room : isFull (pages.contents heap.lastPageId) (copySize tuple) = false) :
    heap.afterInsert pages tuple =
      (heap, pages.write heap.lastPageId (storeTuple (pages.contents heap.lastPageId) tuple)) := by
  rw [afterInsert, room, if_neg Bool.false_ne_true]

/-- An insertion without room adds a page. -/
theorem afterInsert_full (full : isFull (pages.contents heap.lastPageId) (copySize tuple) = true) :
    heap.afterInsert pages tuple = ({ heap with lastPageId := pages.nextPageId },
      pages.add.write pages.nextPageId (storeTuple emptyPage tuple)) := by
  rw [afterInsert, full, if_pos rfl]

theorem firstPageId_afterInsert :
    (heap.afterInsert pages tuple).1.firstPageId = heap.firstPageId := by
  unfold afterInsert
  split <;> rfl

/-- A page with room has a slot left. -/
theorem getNSlots_lt_of_room {pageData : Bytes} {tupleSize : Nat}
    (room : isFull pageData tupleSize = false) : getNSlots pageData < maxSlotsPerPage := by
  simp only [isFull, Bool.or_eq_false_iff, decide_eq_false_iff_not] at room
  exact Int.not_le.mp room.1

/-- An insertion changes the first page only where that is the last one and has room; then
there is one more slot. -/
theorem OnPages.afterInsert_first (onPages : OnPages pages heap) (tuple : Tuple) :
    heap.lastPageId = heap.firstPageId ∧
        isFull (pages.contents heap.firstPageId) (copySize tuple) = false ∧
        (heap.afterInsert pages tuple).1 = heap ∧
        getNSlots ((heap.afterInsert pages tuple).2.contents heap.firstPageId) =
          getNSlots (pages.contents heap.firstPageId) + 1 ∨
      (heap.afterInsert pages tuple).1.lastPageId ≠ heap.firstPageId ∧
        (heap.afterInsert pages tuple).2.contents heap.firstPageId =
          pages.contents heap.firstPageId := by
  cases full : isFull (pages.contents heap.lastPageId) (copySize tuple) with
  | true =>
    have others := onPages.first.ne_next
    rw [afterInsert_full full]
    refine .inr ⟨others.symm, ?_⟩
    rw [Pages.contents_write_of_ne others, Pages.contents_add_of_ne others]
  | false =>
    rw [afterInsert_room full]
    by_cases same : heap.lastPageId = heap.firstPageId
    · refine .inl ⟨same, same ▸ full, rfl, ?_⟩
      rw [same] at full ⊢
      rw [Pages.contents_write_self]
      exact getNSlots_storeTuple full
    · exact .inr ⟨same, Pages.contents_write_of_ne (Ne.symm same)⟩

/-- An insertion takes no slot away. -/
theorem OnPages.getNSlots_le (onPages : OnPages pages heap) (tuple : Tuple) :
    getNSlots (pages.contents heap.firstPageId) ≤
      getNSlots ((heap.afterInsert pages tuple).2.contents heap.firstPageId) := by
  rcases onPages.afterInsert_first tuple with ⟨-, -, -, more⟩ | ⟨-, same⟩
  · omega
  · exact same ▸ Int.le_refl _

/-- An insertion leaves a table. -/
theorem OnPages.afterInsert (onPages : OnPages pages heap) (tuple : Tuple) :
    OnPages (heap.afterInsert pages tuple).2 (heap.afterInsert pages tuple).1 := by
  refine ⟨?_, ?_, ?_⟩
  · rw [firstPageId_afterInsert]
    cases full : isFull (pages.contents heap.lastPageId) (copySize tuple) with
    | true =>
      rw [afterInsert_full full]
      exact onPages.first.add
    | false =>
      rw [afterInsert_room full]
      exact onPages.first
  · rw [firstPageId_afterInsert]
    rcases onPages.afterInsert_first tuple with ⟨-, room, -, more⟩ | ⟨-, same⟩
    · have below := getNSlots_lt_of_room room
      omega
    · exact same ▸ onPages.bounded
  · cases full : isFull (pages.contents heap.lastPageId) (copySize tuple) with
    | true =>
      rw [afterInsert_full full]
      exact ⟨Int.le_trans onPages.first.1 (Int.le_of_lt onPages.first.2), Int.lt_succ _⟩
    | false =>
      rw [afterInsert_room full]
      exact onPages.last

/-! ## Filling a table -/

/-- The heap and the pages after insertions. -/
def afterFill (heap : TableHeap) (pages : Pages) (tuples : List Tuple) : TableHeap × Pages :=
  tuples.foldl (fun filled tuple => filled.1.afterInsert filled.2 tuple) (heap, pages)

/-- Every insertion into a table succeeds, and leaves a table. -/
theorem loaded_fill (ready : pool.LoadsPage pages pins) (onPages : OnPages pages heap)
    (tuples : List Tuple) :
    ∃ rids, ∃ after : BufferPool IdealDisk,
      after.LoadsPage (heap.afterFill pages tuples).2 pins ∧
      OnPages (heap.afterFill pages tuples).2 (heap.afterFill pages tuples).1 ∧
      run (fill tuples heap) pool = ((some rids, (heap.afterFill pages tuples).1), after) := by
  induction tuples generalizing pool pages heap with
  | nil => exact ⟨[], pool, ready, onPages, rfl⟩
  | cons tuple tuples ih =>
    obtain ⟨rid, between, readyBetween, inserts⟩ := loaded_insertTuple ready onPages.last tuple
    obtain ⟨rids, after, readyAfter, onPagesAfter, fills⟩ :=
      ih readyBetween (onPages.afterInsert tuple)
    refine ⟨rid :: rids, after, readyAfter, onPagesAfter, ?_⟩
    simp only [fill, run_bind, inserts, fills, run_pure]
    rfl

/-- A heap is built and filled. -/
theorem loaded_build (ready : pool.LoadsPage pages pins) (nonneg : 0 ≤ pages.nextPageId)
    (tuples : List Tuple) :
    let first := pages.add.write pages.nextPageId (initPage Bytes.zeros)
    let filled := afterFill { firstPageId := pages.nextPageId, lastPageId := pages.nextPageId }
      first tuples
    ∃ rids, ∃ after : BufferPool IdealDisk, after.LoadsPage filled.2 pins ∧
      OnPages filled.2 filled.1 ∧ run (build tuples) pool = ((some rids, filled.1), after) := by
  intro first filled
  obtain ⟨opened, readyOpened, opens⟩ := loaded_new ready
  obtain ⟨rids, after, readyAfter, onPages, fills⟩ :=
    loaded_fill readyOpened (onPages_new nonneg) tuples
  refine ⟨rids, after, readyAfter, onPages, ?_⟩
  simp only [build, run_bind, opens, fills]
  rfl

end TableHeap

end MiniDB.Storage
