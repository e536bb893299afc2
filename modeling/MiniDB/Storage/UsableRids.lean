import MiniDB.Buffer.PageVisits
import MiniDB.Storage.HeapLayout
import MiniDB.Storage.TableIterator

/-!
# Usable RIDs

A heap whose constructor obtained no page keeps the page ids -1. `InsertTuple` is to take a page
then, but it does so only where `FetchPage(-1)` is refused, and a pool that has no frame for that
page has none for a new one. As soon as a frame is free again, tuples go to the page -1.
-/

namespace MiniDB.Storage

open Foundation Buffer PoolProgram IssuesIds

variable {D : Type} [IssuesIds D]

/-! ## Ids in a pool over any disk -/

section Ids

variable {frames after : Frames D} {pool : BufferPool D} {pageId : Int} {frame : Nat}

/-- `FetchPage` issues no id. -/
theorem fetches_next {result : Option Nat} (fetches : frames.Fetches pageId result after) :
    nextPageId after.disk = nextPageId frames.disk := by
  cases fetches with
  | hit resident => rfl
  | refused => rfl
  | loaded absent obtains => exact (readPage_keeps _ _ _).trans obtains.nextPageId_same

/-- A new page has the next id, and is in the frame. -/
theorem creates_next (creates : frames.Creates (some (pageId, frame)) after) :
    pageId = nextPageId frames.disk ∧ nextPageId after.disk = nextPageId frames.disk + 1 ∧
      after.pageTable.lookup pageId = some frame := by
  cases creates with
  | @added _ obtained obtains =>
    have same := obtains.nextPageId_same
    refine ⟨(allocPage_id _).trans same, ?_, AList.lookup_insert _⟩
    exact (allocPage_next _).trans (by rw [same])

/-- `UnpinPage` issues no id. -/
theorem unpinPage_next (pool : BufferPool D) (pageId : Int) (isDirty : Bool) :
    nextPageId (pool.unpinPage pageId isDirty).2.frames.disk = nextPageId pool.frames.disk := by
  have unpins := pool.unpinPage_unpins pageId isDirty
  generalize (pool.unpinPage pageId isDirty).2.frames = after at unpins
  generalize (pool.unpinPage pageId isDirty).1 = result at unpins
  cases unpins with
  | refused unpinned => rfl
  | released resident held pinned => rfl

/-- No request takes an id back. -/
theorem next_le_handle (request : PoolRequest) (pool : BufferPool D) :
    nextPageId pool.frames.disk ≤ nextPageId (BufferPool.handle request pool).2.frames.disk := by
  have flushed := fun pageId => @BufferPool.flush_preserves _ _ pool pageId
    (fun after => nextPageId after.disk = nextPageId pool.frames.disk)
    (fun before _ _ flushes here => by
      refine Eq.trans ?_ here
      cases flushes with
      | unchanged => rfl
      | written resident held dirty => exact Frames.nextPageId_writeBack before _ _) rfl
  cases request with
  | fetchPage pageId => exact Int.le_of_eq (fetches_next (pool.fetchPage_fetches pageId)).symm
  | newPage =>
    have creates := pool.newPage_creates
    change _ ≤ nextPageId pool.newPage.2.frames.disk
    cases made : pool.newPage.1 with
    | none =>
      rw [made] at creates
      exact Int.le_of_eq (congrArg (fun frames : Frames D => nextPageId frames.disk)
        creates.refused_eq).symm
    | some created =>
      rw [made] at creates
      rw [(creates_next creates).2.1]
      exact Int.le_of_lt (Int.lt_succ _)
  | unpinPage pageId isDirty => exact Int.le_of_eq (unpinPage_next pool pageId isDirty).symm
  | deletePage pageId =>
    have deletes := pool.deletePage_deletes pageId
    change _ ≤ nextPageId (pool.deletePage pageId).2.frames.disk
    generalize (pool.deletePage pageId).2.frames = after at deletes
    generalize (pool.deletePage pageId).1 = result at deletes
    cases deletes with
    | refused => exact Int.le_refl _
    | deleted resident held unpinned =>
      exact Int.le_of_eq (Frames.nextPageId_writeBack pool.frames _ _).symm
  | flushPage pageId => exact Int.le_of_eq (flushed pageId).1.symm
  | flushAllPages => exact Int.le_of_eq (flushed 0).2.symm
  | getPageId frame => exact Int.le_refl _
  | getData frame => exact Int.le_refl _
  | putData frame data => exact Int.le_refl _
  | setDirty frame => exact Int.le_refl _

/-- Nor does a program. -/
theorem next_le_run {Result : Type} (program : PoolProgram Result) (pool : BufferPool D) :
    nextPageId pool.frames.disk ≤ nextPageId (run program pool).2.frames.disk :=
  Client.run_keeps (fun before after : BufferPool D =>
      nextPageId before.frames.disk ≤ nextPageId after.frames.disk)
    (fun _ => Int.le_refl _) Int.le_trans next_le_handle program pool

/-- A tidy pool stays tidy in every run. -/
theorem tidy_run {Result : Type} (program : PoolProgram Result) (tidy : pool.Tidy) :
    (run program pool).2.Tidy :=
  Client.run_keeps (fun before after : BufferPool D => before.Tidy → after.Tidy)
    (fun _ here => here) (fun first second here => second (first here))
    (fun request _ here => here.handle request) program pool tidy

/-- A tidy pool refuses a page just when it is in no frame and all frames are pinned. -/
theorem fetchPage_eq_none_iff (tidy : pool.Tidy) :
    (pool.fetchPage pageId).1 = none ↔
      pool.frames.pageTable.lookup pageId = none ∧ pool.AllPinned := by
  cases found : pool.frames.pageTable.lookup pageId with
  | some frame =>
    rw [BufferPool.fetchPage_hit found]
    simp
  | none =>
    rcases tidy.fetchPage_cases found with ⟨all, refused, -⟩ | ⟨notAll, served, -⟩
    · exact iff_of_true refused ⟨rfl, all⟩
    · exact iff_of_false served fun here => notAll here.2

omit [IssuesIds D] in
/-- Releasing a page leaves the bytes in the frames. -/
theorem data_unpinPage (isDirty : Bool) (pool : BufferPool D) (pageId : Int) (frame : Nat) :
    ((pool.unpinPage pageId isDirty).2.pageAt frame).data = (pool.pageAt frame).data := by
  have unpins := pool.unpinPage_unpins pageId isDirty
  unfold BufferPool.pageAt
  generalize (pool.unpinPage pageId isDirty).2.frames = after at unpins
  generalize (pool.unpinPage pageId isDirty).1 = result at unpins
  cases unpins with
  | refused unpinned => rfl
  | @released holder page resident held pinned =>
    by_cases same : frame = holder
    · subst same
      rw [Frames.setFrame_pages, held]
      exact BufferPool.released_data page isDirty
    · rw [Frames.setFrame_pages_of_ne _ same]

/-- All frames are pinned after a page was fetched and released just when they were before. -/
theorem allPinned_released (tidy : pool.Tidy) (fetched : (pool.fetchPage pageId).1 = some frame)
    (isDirty : Bool) :
    ((pool.fetchPage pageId).2.unpinPage pageId isDirty).2.AllPinned ↔ pool.AllPinned := by
  have fetches := pool.fetchPage_fetches pageId
  rw [fetched] at fetches
  obtain ⟨resident, counts⟩ := fetches.pins fun _ _ found => (tidy.mapped found).2
  have released := ((pool.fetchPage pageId).2.unpinPage_unpins pageId isDirty).pins
    (fun _ _ found => ((tidy.fetchPage pageId).mapped found).2) resident
  rw [counts, Function.update_idem, Function.update_self, Nat.add_sub_cancel,
    Function.update_eq_self] at released
  apply BufferPool.allPinned_congr _ released
  exact (BufferPool.poolSize_unpinPage _ _ _).trans (BufferPool.poolSize_fetchPage _ _)

/-- A resident page is read by `GetSlotCount`. -/
theorem getSlotCount_resident (nonneg : 0 ≤ pageId)
    (found : pool.frames.pageTable.lookup pageId = some frame) (tidy : pool.Tidy) :
    (run (TableHeap.getSlotCount pageId) pool).1 = getNSlots (pool.pageAt frame).data := by
  obtain ⟨-, page, held, -⟩ := tidy.mapped found
  simp only [TableHeap.getSlotCount, if_neg (Int.not_lt.mpr nonneg), run_bind, run_fetchPage,
    BufferPool.fetchPage_hit found, run_getData, run_pure]
  simp only [BufferPool.pageAt, Frames.modifyPage, Frames.setFrame_pages, held]
  rfl

end Ids

namespace TableHeap

variable {pool : BufferPool D} {heap : TableHeap} {tuple : Tuple} {frame : Nat}

/-- The end of `InsertTuple`: the RID that it returns, and the slots of its page. -/
theorem storeAt_answer (tidy : pool.Tidy)
    (found : pool.frames.pageTable.lookup heap.lastPageId = some frame)
    (room : isFull (pool.pageAt frame).data (copySize tuple) = false) :
    (run (heap.storeAt frame tuple) pool).1 =
        (some { pageId := heap.lastPageId, slotNum := getNSlots (pool.pageAt frame).data }, heap) ∧
      (0 ≤ heap.lastPageId → (run (getSlotCount heap.lastPageId)
        (run (heap.storeAt frame tuple) pool).2).1 = getNSlots (pool.pageAt frame).data + 1) := by
  have tidyAfter := tidy_run (heap.storeAt frame tuple) tidy
  obtain ⟨-, page, held, -⟩ := tidy.mapped found
  simp only [storeAt, run_bind, run_getData, run_putData, run_setDirty, run_unpinPage, run_pure]
    at tidyAfter ⊢
  refine ⟨trivial, fun nonneg => ?_⟩
  obtain ⟨written, isWritten⟩ : ∃ written, written = (pool.modifyPage frame fun page =>
    page.setData (storeTuple (pool.pageAt frame).data tuple)).modifyPage frame
      fun page => page.setDirty true := ⟨_, rfl⟩
  have table : written.frames.pageTable = pool.frames.pageTable := by rw [isWritten]; rfl
  have data : (written.pageAt frame).data = storeTuple (pool.pageAt frame).data tuple := by
    rw [isWritten]
    simp only [BufferPool.modifyPage, BufferPool.pageAt, Frames.modifyPage, Frames.setFrame_pages,
      held, Option.map_some, Option.getD_some]
    rfl
  rw [← isWritten] at tidyAfter ⊢
  have foundAfter : (written.unpinPage heap.lastPageId true).2.frames.pageTable.lookup
      heap.lastPageId = some frame := by
    rw [BufferPool.pageTable_unpinPage, table]
    exact found
  rw [getSlotCount_resident nonneg foundAfter tidyAfter, data_unpinPage, data]
  exact getNSlots_storeTuple room

/-- The end of `InsertTuple` on a page that is new: slot 0 of it. -/
theorem storeNew_answer (tidy : pool.Tidy) {pageId : Int}
    (made : pool.newPage.1 = some (pageId, frame)) (heap : TableHeap) (tuple : Tuple) :
    ∃ after, run (storeAt { heap with lastPageId := pageId } frame tuple)
        (pool.newPage.2.modifyPage frame fun page => page.setData emptyPage) =
        ((some { pageId, slotNum := 0 }, { heap with lastPageId := pageId }), after) ∧
      pageId = nextPageId pool.frames.disk ∧
      nextPageId pool.frames.disk < nextPageId after.frames.disk ∧
      (0 ≤ pageId → (run (getSlotCount pageId) after).1 = 1) := by
  have creates := pool.newPage_creates
  rw [made] at creates
  obtain ⟨newIs, next, found⟩ := creates_next creates
  obtain ⟨-, page, held, -⟩ := tidy.newPage.mapped found
  have tidyEmpty := tidy.newPage.handle (.putData frame emptyPage)
  obtain ⟨empty, isEmpty⟩ : ∃ empty, empty =
    pool.newPage.2.modifyPage frame fun page => page.setData emptyPage := ⟨_, rfl⟩
  have dataEmpty : (empty.pageAt frame).data = emptyPage := by
    rw [isEmpty]
    simp only [BufferPool.modifyPage, BufferPool.pageAt, Frames.modifyPage, Frames.setFrame_pages,
      held, Option.map_some, Option.getD_some]
    rfl
  obtain ⟨answer, counts⟩ := @storeAt_answer _ _ empty { heap with lastPageId := pageId } tuple
    frame (isEmpty ▸ tidyEmpty) (by rw [isEmpty]; exact found)
    (by rw [dataEmpty]; exact isFull_emptyPage tuple)
  have grown := next_le_run (storeAt { heap with lastPageId := pageId } frame tuple) empty
  have nextEmpty : nextPageId empty.frames.disk = nextPageId pool.frames.disk + 1 := by
    rw [isEmpty]
    exact next
  rw [dataEmpty, header_emptyPage.slots] at answer counts
  rw [← isEmpty]
  refine ⟨_, Prod.ext answer rfl, newIs, ?_, counts⟩
  exact Int.lt_of_lt_of_le (by omega) grown

/-- The bytes that `FetchPage` brings to a frame. -/
def brought (pool : BufferPool D) (pageId : Int) (frame : Nat) : Bytes :=
  ((pool.fetchPage pageId).2.pageAt frame).data

/-- How an insertion can end, in any pool that is tidy. -/
inductive InsertAnswers (pool : BufferPool D) (heap : TableHeap) (tuple : Tuple) :
    (Option RID × TableHeap) × BufferPool D → Prop where
  | refused {after : BufferPool D} (missed : (pool.fetchPage heap.lastPageId).1 = none) :
      InsertAnswers pool heap tuple ((none, heap), after)
  | full {frame : Nat} {after : BufferPool D} (fetched : (pool.fetchPage heap.lastPageId).1 = some frame)
      (full : isFull (brought pool heap.lastPageId frame) (copySize tuple) = true)
      (all : pool.AllPinned) : InsertAnswers pool heap tuple ((none, heap), after)
  | stored {frame : Nat} {after : BufferPool D}
      (fetched : (pool.fetchPage heap.lastPageId).1 = some frame)
      (room : isFull (brought pool heap.lastPageId frame) (copySize tuple) = false)
      (counts : 0 ≤ heap.lastPageId → (run (getSlotCount heap.lastPageId) after).1 =
        getNSlots (brought pool heap.lastPageId frame) + 1) :
      InsertAnswers pool heap tuple
        ((some { pageId := heap.lastPageId, slotNum := getNSlots (brought pool heap.lastPageId frame) },
          heap), after)
  | moved {frame : Nat} {after : BufferPool D}
      (fetched : (pool.fetchPage heap.lastPageId).1 = some frame)
      (full : isFull (brought pool heap.lastPageId frame) (copySize tuple) = true)
      (loads : ¬ pool.AllPinned) (next : nextPageId pool.frames.disk < nextPageId after.frames.disk)
      (counts : 0 ≤ nextPageId pool.frames.disk →
        (run (getSlotCount (nextPageId pool.frames.disk)) after).1 = 1) :
      InsertAnswers pool heap tuple
        ((some { pageId := nextPageId pool.frames.disk, slotNum := 0 },
          { heap with lastPageId := nextPageId pool.frames.disk }), after)

/-- How `InsertTuple` can end. -/
theorem insertTuple_answers (tidy : pool.Tidy) (heap : TableHeap) (tuple : Tuple) :
    InsertAnswers pool heap tuple (run (heap.insertTuple tuple) pool) := by
  have tidyFetched := tidy.fetchPage heap.lastPageId
  simp only [insertTuple, run_bind, run_fetchPage]
  cases fetched : (pool.fetchPage heap.lastPageId).1 with
  | none =>
    obtain ⟨absent, all⟩ := (fetchPage_eq_none_iff tidy).mp fetched
    have refused : (pool.fetchPage heap.lastPageId).2.newPage.1 = none := by
      rcases tidy.fetchPage_cases absent with ⟨-, -, unchanged⟩ | ⟨notAll, -⟩
      · have allStill := unchanged.allPinned_iff.mpr all
        rcases tidyFetched.newPage_cases with ⟨-, none, -⟩ | ⟨notAll, -⟩
        · exact none
        · exact absurd allStill notAll
      · exact absurd all notAll
    simp only [run_bind, run_newPage, refused, run_pure]
    exact .refused fetched
  | some frame =>
    have fetches := pool.fetchPage_fetches heap.lastPageId
    rw [fetched] at fetches
    obtain ⟨resident, -⟩ := fetches.pins fun _ _ found => (tidy.mapped found).2
    have data : ((pool.fetchPage heap.lastPageId).2.pageAt frame).data =
      brought pool heap.lastPageId frame := rfl
    simp only [insertInto, run_bind, run_getData, data]
    cases full : isFull (brought pool heap.lastPageId frame) (copySize tuple) with
    | false =>
      obtain ⟨answer, counts⟩ := storeAt_answer tidyFetched resident full
      rw [if_neg Bool.false_ne_true]
      generalize run (heap.storeAt frame tuple) (pool.fetchPage heap.lastPageId).2 = outcome
        at answer counts
      obtain ⟨answered, after⟩ := outcome
      obtain rfl := answer
      exact .stored fetched full counts
    | true =>
      have pinned := allPinned_released tidy fetched false
      have tidyReleased := tidyFetched.unpinPage heap.lastPageId false
      have nextFetched := fetches_next fetches
      have nextReleased := (unpinPage_next (pool.fetchPage heap.lastPageId).2 heap.lastPageId
        false).trans (fetches_next fetches)
      simp only [if_true, run_bind, run_unpinPage, run_newPage]
      generalize ((pool.fetchPage heap.lastPageId).2.unpinPage heap.lastPageId false).2 = released
        at pinned tidyReleased nextReleased
      rcases tidyReleased.newPage_cases with ⟨all, none, -⟩ | ⟨notAll, served, -⟩
      · simp only [none, run_pure]
        exact .full fetched full (pinned.mp all)
      · obtain ⟨⟨newId, newFrame⟩, made⟩ := Option.ne_none_iff_exists'.mp served
        obtain ⟨after, stored, newIs, next, counts⟩ := storeNew_answer tidyReleased made heap tuple
        rw [nextReleased] at newIs next
        subst newIs
        simp only [made, run_bind, run_putData, stored]
        exact .moved fetched full (fun all => notAll (pinned.mpr all)) next counts

end TableHeap

/-! ## Runs -/

/-- A heap in a pool over any disk. -/
structure PooledHeap (D : Type) where
  pool : BufferPool D
  heap : TableHeap

/-- An insertion, or a request of any client: the other operations of the heap are made of
requests. -/
inductive HeapUse where
  | insertTuple (tuple : Tuple)
  | client (request : PoolRequest)

namespace PooledHeap

/-- A heap from its constructor on, whether it obtains a page or not. -/
def start (pool : BufferPool D) : PooledHeap D :=
  let (heap, pool) := run TableHeap.new pool
  { pool, heap }

def step (state : PooledHeap D) : HeapUse → PooledHeap D
  | .insertTuple tuple =>
    let ((_, heap), pool) := run (state.heap.insertTuple tuple) state.pool
    { pool, heap }
  | .client request => { state with pool := state.pool.serve request }

/-- A RID that an insertion returns is valid and names a slot of its page, and the heap has a
first page. -/
def ReturnsUsable (state : PooledHeap D) : HeapUse → Prop
  | .insertTuple tuple => ∀ rid, (run (state.heap.insertTuple tuple) state.pool).1.1 = some rid →
    rid.isValid = true ∧
      0 ≤ (run (state.heap.insertTuple tuple) state.pool).1.2.firstPageId ∧
      rid.slotNum < (run (TableHeap.getSlotCount rid.pageId)
        (run (state.heap.insertTuple tuple) state.pool).2).1
  | .client _ => True

/-- Where the pool has the frames for an insertion, the heap has a first page, and the number
of slots in the page that the tuple goes to is not negative. -/
def HasFirstPage (state : PooledHeap D) : HeapUse → Prop
  | .insertTuple tuple => ∀ frame, (state.pool.fetchPage state.heap.lastPageId).1 = some frame →
    let pageData := TableHeap.brought state.pool state.heap.lastPageId frame
    (TableHeap.isFull pageData (TableHeap.copySize tuple) = true → ¬ state.pool.AllPinned) →
      0 ≤ state.heap.firstPageId ∧
        (TableHeap.isFull pageData (TableHeap.copySize tuple) = false → 0 ≤ getNSlots pageData)
  | .client _ => True

/-- The pool is tidy, and after a first page the heap has taken pages in the order of their
ids. -/
structure Ascending (state : PooledHeap D) : Prop where
  tidy : state.pool.Tidy
  last : 0 ≤ state.heap.firstPageId → state.heap.firstPageId ≤ state.heap.lastPageId
  next : 0 ≤ state.heap.firstPageId →
    state.heap.lastPageId < nextPageId state.pool.frames.disk

namespace Ascending

variable {state : PooledHeap D} (ascending : state.Ascending)

include ascending

/-- Every use of the heap keeps the RIDs ascending. -/
theorem step (use : HeapUse) : (state.step use).Ascending := by
  cases use with
  | client request =>
    refine ⟨ascending.tidy.handle request, ascending.last, fun first => ?_⟩
    exact Int.lt_of_lt_of_le (ascending.next first) (next_le_handle request state.pool)
  | insertTuple tuple =>
    have answers := TableHeap.insertTuple_answers ascending.tidy state.heap tuple
    have tidy := tidy_run (state.heap.insertTuple tuple) ascending.tidy
    have grown := next_le_run (state.heap.insertTuple tuple) state.pool
    unfold PooledHeap.step
    dsimp only
    generalize run (state.heap.insertTuple tuple) state.pool = outcome at answers tidy grown
    cases answers with
    | refused missed =>
      exact ⟨tidy, ascending.last, fun first => Int.lt_of_lt_of_le (ascending.next first) grown⟩
    | full fetched full all =>
      exact ⟨tidy, ascending.last, fun first => Int.lt_of_lt_of_le (ascending.next first) grown⟩
    | stored fetched room counts =>
      exact ⟨tidy, ascending.last, fun first => Int.lt_of_lt_of_le (ascending.next first) grown⟩
    | moved fetched full loads next counts =>
      refine ⟨tidy, fun first => ?_, fun _ => next⟩
      exact Int.le_trans (ascending.last first) (Int.le_of_lt (ascending.next first))

/-- An insertion returns a usable RID just when the heap has a first page. -/
theorem returnsUsable_iff (use : HeapUse) : state.ReturnsUsable use ↔ state.HasFirstPage use := by
  cases use with
  | client request => exact Iff.rfl
  | insertTuple tuple =>
    have answers := TableHeap.insertTuple_answers ascending.tidy state.heap tuple
    have ids := fun first => Int.le_trans first (ascending.last first)
    unfold ReturnsUsable HasFirstPage
    dsimp only
    generalize run (state.heap.insertTuple tuple) state.pool = outcome at answers
    cases answers with
    | refused missed =>
      refine iff_of_true (fun rid returned => by cases returned) fun frame fetched => ?_
      rw [missed] at fetched
      cases fetched
    | @full frame _ fetched full all =>
      refine iff_of_true (fun rid returned => by cases returned) fun other fetchedOther loads => ?_
      obtain rfl := Option.some.inj (fetched.symm.trans fetchedOther)
      exact absurd all (loads full)
    | @stored frame _ fetched room counts =>
      constructor
      · intro usable other fetchedOther _
        obtain rfl := Option.some.inj (fetched.symm.trans fetchedOther)
        obtain ⟨valid, first, -⟩ := usable _ rfl
        obtain ⟨-, slot⟩ : 0 ≤ state.heap.lastPageId ∧
            0 ≤ getNSlots (TableHeap.brought state.pool state.heap.lastPageId frame) := by
          simpa [RID.isValid] using valid
        exact ⟨first, fun _ => slot⟩
      · intro has rid returned
        obtain rfl := Option.some.inj returned
        obtain ⟨first, slot⟩ := has frame fetched fun full => by rw [room] at full; cases full
        have page := ids first
        refine ⟨by simp [RID.isValid, page, slot room], first, ?_⟩
        rw [counts page]
        exact Int.lt_succ _
    | @moved frame _ fetched full loads next counts =>
      constructor
      · intro usable other fetchedOther _
        obtain rfl := Option.some.inj (fetched.symm.trans fetchedOther)
        refine ⟨(usable _ rfl).2.1, fun room => ?_⟩
        rw [full] at room
        cases room
      · intro has rid returned
        obtain rfl := Option.some.inj returned
        obtain ⟨first, -⟩ := has frame fetched fun _ => loads
        have page : 0 ≤ nextPageId state.pool.frames.disk :=
          Int.le_trans (ids first) (Int.le_of_lt (ascending.next first))
        refine ⟨by simp [RID.isValid, page], first, ?_⟩
        rw [counts page]
        exact Int.zero_lt_one

end Ascending

/-- A heap without RIDs. -/
theorem ascending_start {pool : BufferPool D} (tidy : pool.Tidy) : (start pool).Ascending := by
  have tidyAfter := tidy_run TableHeap.new tidy
  unfold start
  dsimp only
  simp only [TableHeap.new, run_bind, run_newPage] at tidyAfter ⊢
  cases made : pool.newPage.1 with
  | none =>
    rw [made] at tidyAfter
    have negative : ¬ (0 : Int) ≤ -1 := by decide
    exact ⟨tidyAfter, fun first => absurd first negative, fun first => absurd first negative⟩
  | some created =>
    obtain ⟨newId, frame⟩ := created
    have creates := pool.newPage_creates
    rw [made] at creates tidyAfter
    obtain ⟨newIs, next, -⟩ := creates_next creates
    refine ⟨tidyAfter, fun _ => Int.le_refl _, fun _ => ?_⟩
    simp only [run_bind, run_getData, run_putData, run_unpinPage, run_pure]
    rw [unpinPage_next]
    change newId < nextPageId pool.newPage.2.frames.disk
    omega

/-- Over any disk and whatever clients do, insertions return usable RIDs just where the heap
has a first page whenever the pool has the frames for them. -/
theorem usable_iff (poolSize : Nat) (disk : D) (requests : List PoolRequest) (uses : List HeapUse) :
    let pool := Foundation.run BufferPool.serve (.new poolSize disk .noop) requests
    EachCall step ReturnsUsable (start pool) uses ↔ EachCall step HasFirstPage (start pool) uses := by
  intro pool
  have tidy : pool.Tidy :=
    run_of_invariant (fun _ request here => here.handle request) (BufferPool.tidy_new poolSize disk)
      requests
  exact eachCall_congr (fun _ use ascending => ascending.returnsUsable_iff use)
    (fun _ use ascending => ascending.step use) (ascending_start tidy) uses

/-- The only frame is pinned while the heap is constructed and free again afterwards. -/
theorem stores_on_no_page :
    ¬ ∀ (poolSize : Nat) (disk : DiskManager) (requests : List PoolRequest) (uses : List HeapUse),
      EachCall step ReturnsUsable
        (start (Foundation.run BufferPool.serve (.new poolSize disk .noop) requests)) uses := by
  intro usable
  have second := (usable 1 (DiskManager.new none) [.newPage]
    [.client (.unpinPage 0 false), .insertTuple {}]).2.1
  have returned := second { pageId := -1, slotNum := 0 } (by decide +kernel)
  exact absurd returned.1 (by decide)

end PooledHeap

end MiniDB.Storage
