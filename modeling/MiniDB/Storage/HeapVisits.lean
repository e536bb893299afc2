import MiniDB.Buffer.PageVisits
import MiniDB.Storage.HeapLayout
import MiniDB.Storage.TableIterator

/-!
# The heap's operations as visits

Every operation of a heap visits one page, but for an insertion that finds the last page
full and then visits a new one. In a pool that is in order an operation therefore leaves all
pin counts as they were, and an insertion returns false only where it has changed nothing.
-/

namespace MiniDB.Storage

open Foundation Buffer PoolProgram

namespace TableHeap

variable {pool : BufferPool IdealDisk} {heap : TableHeap} {tuple : Tuple} {rid : RID} {pageId : Int}

/-- An operation on one page: the page is refused, and nothing changes, or it is visited and
gets the bytes. -/
def Visits {Result : Type} (pool : BufferPool IdealDisk) (pageId : Int) (refused brought : Result)
    (data : Bytes) (outcome : Result × BufferPool IdealDisk) : Prop :=
  ¬ pool.Brings pageId ∧ outcome.1 = refused ∧ pool.Unchanged outcome.2 ∨
    pool.Brings pageId ∧ outcome.1 = brought ∧ Revisited pool outcome.2 pageId data

theorem visits_getTuple (inOrder : pool.InOrder) (valid : rid.isValid = true)
    (issued : pool.Issued rid.pageId) (out : Tuple) :
    Visits pool rid.pageId (some (false, out))
      (readTuple (pool.frames.shown rid.pageId) rid out) (pool.frames.shown rid.pageId)
      (run (getTuple rid out) pool) := by
  simp only [getTuple, valid, Bool.true_eq_false, if_false, run_bind, run_fetchPage]
  rcases fetchPage_cases inOrder issued with
    ⟨refuses, fetched, unchanged⟩ | ⟨brings, frame, fetched, visiting, kept, table⟩
  · simp only [fetched, run_pure]
    exact .inl ⟨refuses, rfl, unchanged⟩
  · simp only [fetched, run_bind, run_getData, run_unpinPage, run_pure, visiting.pageAt_data]
    exact .inr ⟨brings, rfl, revisited_read visiting kept table false⟩

theorem visits_updateTuple (inOrder : pool.InOrder) (valid : rid.isValid = true)
    (issued : pool.Issued rid.pageId) (tuple : Tuple) :
    Visits pool rid.pageId false true (overwrite (pool.frames.shown rid.pageId) tuple)
        (run (updateTuple tuple rid) pool) ∧
      (pool.Brings rid.pageId → (run (updateTuple tuple rid) pool).2.frames.Saved rid.pageId) := by
  simp only [updateTuple, valid, Bool.true_eq_false, if_false, run_bind, run_fetchPage]
  rcases fetchPage_cases inOrder issued with
    ⟨refuses, fetched, unchanged⟩ | ⟨brings, frame, fetched, visiting, -, table⟩
  · simp only [fetched, run_pure]
    exact ⟨.inl ⟨refuses, rfl, unchanged⟩, fun brings => absurd brings refuses⟩
  · simp only [fetched, run_bind, run_getData, run_putData, run_setDirty, run_unpinPage, run_pure,
      visiting.pageAt_data]
    obtain ⟨revisited, saved⟩ := revisited_written
      (visiting.putData (overwrite (pool.frames.shown rid.pageId) tuple)).setDirty table
    exact ⟨.inr ⟨brings, rfl, revisited⟩, fun _ => saved⟩

theorem visits_deleteTuple (inOrder : pool.InOrder) (valid : rid.isValid = true)
    (issued : pool.Issued rid.pageId) :
    Visits pool rid.pageId false true (pool.frames.shown rid.pageId)
      (run (deleteTuple rid) pool) := by
  simp only [deleteTuple, valid, Bool.true_eq_false, if_false, run_bind, run_fetchPage]
  rcases fetchPage_cases inOrder issued with
    ⟨refuses, fetched, unchanged⟩ | ⟨brings, frame, fetched, visiting, -, table⟩
  · simp only [fetched, run_pure]
    exact .inl ⟨refuses, rfl, unchanged⟩
  · simp only [fetched, run_bind, run_setDirty, run_unpinPage, run_pure]
    exact .inr ⟨brings, rfl, (revisited_written visiting.setDirty table).1⟩

theorem visits_getSlotCount (inOrder : pool.InOrder) (nonneg : 0 ≤ pageId)
    (issued : pool.Issued pageId) :
    Visits pool pageId 0 (getNSlots (pool.frames.shown pageId)) (pool.frames.shown pageId)
      (run (getSlotCount pageId) pool) := by
  simp only [getSlotCount, if_neg (Int.not_lt.mpr nonneg), run_bind, run_fetchPage]
  rcases fetchPage_cases inOrder issued with
    ⟨refuses, fetched, unchanged⟩ | ⟨brings, frame, fetched, visiting, kept, table⟩
  · simp only [fetched, run_pure]
    exact .inl ⟨refuses, rfl, unchanged⟩
  · simp only [fetched, run_bind, run_getData, run_unpinPage, run_pure, visiting.pageAt_data]
    exact .inr ⟨brings, rfl, revisited_read visiting kept table false⟩

/-! ## Insertion -/

/-- The page that an insertion stores into: the last one, or an empty one. -/
def storesInto (heap : TableHeap) (pool : BufferPool IdealDisk) (tuple : Tuple) : Bytes :=
  if isFull (pool.frames.shown heap.lastPageId) (copySize tuple) then emptyPage
  else pool.frames.shown heap.lastPageId

/-- How an insertion can end. -/
inductive InsertEnds (pool : BufferPool IdealDisk) (heap : TableHeap) (tuple : Tuple) :
    (Option RID × TableHeap) × BufferPool IdealDisk → Prop where
  | refused {after : BufferPool IdealDisk} (refuses : ¬ pool.Brings heap.lastPageId)
      (unchanged : pool.Unchanged after) : InsertEnds pool heap tuple ((none, heap), after)
  /-- The last page is full and there is no frame for another. -/
  | full {after : BufferPool IdealDisk} (brings : pool.Brings heap.lastPageId)
      (full : isFull (pool.frames.shown heap.lastPageId) (copySize tuple) = true)
      (all : pool.AllPinned)
      (revisited : Revisited pool after heap.lastPageId (pool.frames.shown heap.lastPageId))
      (same : after.frames.shown = pool.frames.shown) : InsertEnds pool heap tuple ((none, heap), after)
  | stored {after : BufferPool IdealDisk} (brings : pool.Brings heap.lastPageId)
      (room : isFull (pool.frames.shown heap.lastPageId) (copySize tuple) = false)
      (revisited : Revisited pool after heap.lastPageId
        (storeTuple (pool.frames.shown heap.lastPageId) tuple))
      (saved : after.frames.Saved heap.lastPageId) :
      InsertEnds pool heap tuple
        ((some { pageId := heap.lastPageId, slotNum := getNSlots (pool.frames.shown heap.lastPageId) },
          heap), after)
  /-- The tuple is the first on a new page. -/
  | moved {after : BufferPool IdealDisk} (brings : pool.Brings heap.lastPageId)
      (full : isFull (pool.frames.shown heap.lastPageId) (copySize tuple) = true)
      (loads : ¬ pool.AllPinned)
      (visited : Visited pool after pool.frames.disk.nextPageId (storeTuple emptyPage tuple) 1)
      (saved : after.frames.Saved pool.frames.disk.nextPageId) :
      InsertEnds pool heap tuple ((some { pageId := pool.frames.disk.nextPageId, slotNum := 0 },
        { heap with lastPageId := pool.frames.disk.nextPageId }), after)

/-- The end of `InsertTuple`, on a page that is in a frame. -/
theorem storeAt_visits {now : BufferPool IdealDisk} {frame : Nat} {data : Bytes} {created : Int}
    (visiting : Visiting pool now heap.lastPageId frame data created) (tuple : Tuple) :
    ∃ last, run (heap.storeAt frame tuple) now =
        ((some { pageId := heap.lastPageId, slotNum := getNSlots data }, heap),
          (last.unpinPage heap.lastPageId true).2) ∧
      Visiting pool last heap.lastPageId frame (storeTuple data tuple) created ∧
      last.frames.pageTable = now.frames.pageTable := by
  refine ⟨_, ?_, (visiting.putData (storeTuple data tuple)).setDirty, rfl⟩
  simp only [storeAt, run_bind, run_getData, visiting.pageAt_data, run_putData, run_setDirty,
    run_unpinPage, run_pure]

/-- `InsertTuple` ends in one of these ways. -/
theorem insertTuple_ends (inOrder : pool.InOrder) (issued : pool.Issued heap.lastPageId)
    (tuple : Tuple) : InsertEnds pool heap tuple (run (heap.insertTuple tuple) pool) := by
  simp only [insertTuple, run_bind, run_fetchPage]
  rcases fetchPage_cases inOrder issued with
    ⟨refuses, fetched, unchanged⟩ | ⟨brings, frame, fetched, visiting, kept, table⟩
  · -- the pool has no frame for a new page either
    have all : pool.AllPinned := by
      by_contra notAll
      exact refuses (.inr notAll)
    have allStill := unchanged.allPinned_iff.mpr all
    rcases (unchanged.tidy inOrder.tidy).newPage_cases with ⟨-, none, unchangedStill⟩ | ⟨notAll, -⟩
    · simp only [fetched, run_bind, run_newPage, none, run_pure]
      exact .refused refuses ⟨unchangedStill.size.trans unchanged.size,
        unchangedStill.frames.trans unchanged.frames,
        unchangedStill.replacer.trans unchanged.replacer⟩
    · exact absurd allStill notAll
  · simp only [fetched, insertInto, run_bind, run_getData, visiting.pageAt_data]
    cases full : isFull (pool.frames.shown heap.lastPageId) (copySize tuple) with
    | false =>
      obtain ⟨last, stores, visitingLast, tableLast⟩ := storeAt_visits visiting tuple
      obtain ⟨revisited, saved⟩ := revisited_written visitingLast
        fun resident => tableLast.trans (table resident)
      rw [if_neg Bool.false_ne_true, stores]
      exact .stored brings full revisited saved
    | true =>
      have read := revisited_read visiting kept table false
      have next := read.next_eq
      simp only [if_true, run_bind, run_unpinPage, run_newPage]
      rcases read.inOrder.tidy.newPage_cases with ⟨all, none, unchanged⟩ | ⟨notAll, served, -⟩
      · have allBefore := read.allPinned_iff.mp all
        have resident := brings.resolve_right (not_not.mpr allBefore)
        have same := shown_read inOrder resident false
        simp only [none, run_pure]
        refine .full brings full allBefore (read.unchanged unchanged) ?_
        rw [unchanged.frames, same]
      · obtain ⟨⟨newId, newFrame⟩, made⟩ := Option.ne_none_iff_exists'.mp served
        obtain ⟨newIs, visitingNew⟩ := Visiting.newPage read.inOrder made
        rw [next] at newIs
        subst newIs
        simp only [made, run_bind, run_putData]
        obtain ⟨last, stores, visitingLast, -⟩ := @storeAt_visits _
          { heap with lastPageId := pool.frames.disk.nextPageId } _ _ _ _
          (visitingNew.putData emptyPage) tuple
        rw [header_emptyPage.slots] at stores
        rw [stores]
        obtain ⟨visited, saved, -⟩ := visitingLast.unpinPage true
        exact .moved brings full (fun all => notAll (read.allPinned_iff.mpr all))
          (read.toVisited.after_reading (read.keeps issued) visited) (saved rfl)

/-- The constructor, when it obtains a page. -/
theorem new_visits (inOrder : pool.InOrder) (obtained : (run TableHeap.new pool).1.firstPageId ≠ -1) :
    ∃ after, run TableHeap.new pool =
        ({ firstPageId := pool.frames.disk.nextPageId
           lastPageId := pool.frames.disk.nextPageId }, after) ∧
      Visited pool after pool.frames.disk.nextPageId (initPage Bytes.zeros) 1 ∧
      after.frames.Saved pool.frames.disk.nextPageId := by
  simp only [TableHeap.new, run_bind, run_newPage] at obtained ⊢
  cases made : pool.newPage.1 with
  | none =>
    rw [made] at obtained
    exact absurd rfl obtained
  | some created =>
    obtain ⟨newId, frame⟩ := created
    obtain ⟨rfl, visiting⟩ := Visiting.newPage inOrder made
    obtain ⟨visited, saved, -⟩ := (visiting.putData (initPage Bytes.zeros)).unpinPage true
    refine ⟨_, ?_, visited, saved rfl⟩
    simp only [run_bind, run_getData, run_putData, run_unpinPage, run_pure, visiting.pageAt_data]

/-! ## Pins and failures -/

namespace Visits

variable {Result : Type} {refused brought : Result} {data : Bytes}
  {outcome : Result × BufferPool IdealDisk}

theorem pins (visits : Visits pool pageId refused brought data outcome) :
    outcome.2.frames.pinsOf = pool.frames.pinsOf := by
  rcases visits with ⟨-, -, unchanged⟩ | ⟨-, -, revisited⟩
  · rw [unchanged.frames]
  · exact revisited.pins

theorem inOrder (visits : Visits pool pageId refused brought data outcome) (before : pool.InOrder) :
    outcome.2.InOrder ∧ outcome.2.frames.disk.nextPageId = pool.frames.disk.nextPageId := by
  rcases visits with ⟨-, -, unchanged⟩ | ⟨-, -, revisited⟩
  · exact ⟨unchanged.inOrder before, by rw [unchanged.frames]⟩
  · exact ⟨revisited.inOrder, revisited.next_eq⟩

/-- A saved page stays saved, with its bytes or with those that the operation puts there. -/
theorem shown (visits : Visits pool pageId refused brought data outcome) {other : Int}
    (issued : pool.Issued other) (saved : pool.frames.Saved other) :
    outcome.2.frames.Saved other ∧
      (outcome.2.frames.shown other = pool.frames.shown other ∨
        other = pageId ∧ outcome.2.frames.shown other = data) := by
  rcases visits with ⟨-, -, unchanged⟩ | ⟨-, -, revisited⟩
  · rw [unchanged.frames]
    exact ⟨saved, .inl rfl⟩
  · by_cases same : other = pageId
    · subst same
      exact ⟨revisited.saved saved, .inr ⟨rfl, revisited.data⟩⟩
    · exact (revisited.kept other same issued saved).imp_right .inl

/-- The answer does not matter. -/
theorem unit (visits : Visits pool pageId refused brought data outcome) :
    Visits pool pageId () () data ((), outcome.2) :=
  visits.imp (fun ⟨refuses, _, unchanged⟩ => ⟨refuses, rfl, unchanged⟩)
    fun ⟨brings, _, revisited⟩ => ⟨brings, rfl, revisited⟩

end Visits

theorem InsertEnds.pins {outcome : (Option RID × TableHeap) × BufferPool IdealDisk}
    (ends : InsertEnds pool heap tuple outcome) : outcome.2.frames.pinsOf = pool.frames.pinsOf := by
  cases ends with
  | refused refuses unchanged => rw [unchanged.frames]
  | full brings full all revisited same => exact revisited.pins
  | stored brings room revisited saved => exact revisited.pins
  | moved brings full loads visited saved => exact visited.pins

/-- An insertion that returns false has changed no page. -/
theorem InsertEnds.same_of_refused {outcome : (Option RID × TableHeap) × BufferPool IdealDisk}
    (ends : InsertEnds pool heap tuple outcome) (refused : outcome.1.1 = none) :
    outcome.1.2 = heap ∧ outcome.2.frames.shown = pool.frames.shown := by
  cases ends with
  | refused refuses unchanged => exact ⟨rfl, by rw [unchanged.frames]⟩
  | full brings full all revisited same => exact ⟨rfl, same⟩
  | stored brings room revisited saved => cases refused
  | moved brings full loads visited saved => cases refused

end TableHeap

/-- The calls on a heap. -/
inductive HeapOperation where
  | insertTuple (tuple : Tuple)
  | getTuple (rid : RID) (out : Tuple)
  | updateTuple (tuple : Tuple) (rid : RID)
  | deleteTuple (rid : RID)
  | getSlotCount (pageId : Int)

namespace HeapOperation

/-- The pool after a call. -/
def perform (heap : TableHeap) (pool : BufferPool IdealDisk) : HeapOperation → BufferPool IdealDisk
  | .insertTuple tuple => (run (heap.insertTuple tuple) pool).2
  | .getTuple rid out => (run (TableHeap.getTuple rid out) pool).2
  | .updateTuple tuple rid => (run (TableHeap.updateTuple tuple rid) pool).2
  | .deleteTuple rid => (run (TableHeap.deleteTuple rid) pool).2
  | .getSlotCount pageId => (run (TableHeap.getSlotCount pageId) pool).2

/-- The page that a call fetches. -/
def fetched (heap : TableHeap) : HeapOperation → Int
  | .insertTuple _ => heap.lastPageId
  | .getTuple rid _ => rid.pageId
  | .updateTuple _ rid => rid.pageId
  | .deleteTuple rid => rid.pageId
  | .getSlotCount pageId => pageId

/-- The page was issued. -/
def OnIssued (heap : TableHeap) (pool : BufferPool IdealDisk) (operation : HeapOperation) : Prop :=
  pool.Issued (operation.fetched heap)

/-- The bytes that a call other than an insertion leaves in the page. -/
def leaves (pageData : Bytes) : HeapOperation → Bytes
  | .updateTuple tuple _ => TableHeap.overwrite pageData tuple
  | _ => pageData

variable {pool : BufferPool IdealDisk} {heap : TableHeap} {operation : HeapOperation}

/-- A call other than an insertion visits the page, unless its RID is not valid. -/
theorem visits_perform (inOrder : pool.InOrder) (issued : operation.OnIssued heap pool)
    (other : ∀ tuple, operation ≠ .insertTuple tuple) :
    operation.perform heap pool = pool ∨
      TableHeap.Visits pool (operation.fetched heap) () ()
        (operation.leaves (pool.frames.shown (operation.fetched heap)))
        ((), operation.perform heap pool) := by
  cases operation with
  | insertTuple tuple => exact absurd rfl (other tuple)
  | getTuple rid out =>
    cases valid : rid.isValid with
    | true => exact .inr (TableHeap.visits_getTuple inOrder valid issued out).unit
    | false =>
      left
      simp only [perform, TableHeap.getTuple, valid, if_true, run_pure]
  | updateTuple tuple rid =>
    cases valid : rid.isValid with
    | true => exact .inr (TableHeap.visits_updateTuple inOrder valid issued tuple).1.unit
    | false =>
      left
      simp only [perform, TableHeap.updateTuple, valid, if_true, run_pure]
  | deleteTuple rid =>
    cases valid : rid.isValid with
    | true => exact .inr (TableHeap.visits_deleteTuple inOrder valid issued).unit
    | false =>
      left
      simp only [perform, TableHeap.deleteTuple, valid, if_true, run_pure]
  | getSlotCount pageId =>
    by_cases negative : pageId < 0
    · left
      simp only [perform, TableHeap.getSlotCount, if_pos negative, run_pure]
    · exact .inr (TableHeap.visits_getSlotCount inOrder (Int.not_lt.mp negative) issued).unit

/-- Every call leaves the pins of every page as they were. -/
theorem pins_perform (inOrder : pool.InOrder) (issued : operation.OnIssued heap pool) :
    (operation.perform heap pool).frames.pinsOf = pool.frames.pinsOf := by
  by_cases inserts : ∃ tuple, operation = .insertTuple tuple
  · obtain ⟨tuple, rfl⟩ := inserts
    exact (TableHeap.insertTuple_ends inOrder issued tuple).pins
  · rcases visits_perform inOrder issued (not_exists.mp inserts) with same | visits
    · rw [same]
    · exact visits.pins

end HeapOperation

/-- In every pool that clients reach while they fetch only issued ids, the calls of a heap
are pin-neutral, and an insertion that returns false leaves the heap and the bytes of every
page unchanged. -/
theorem neutral_and_atomic (poolSize count : Nat) (initial : Int → Bytes)
    (requests : List PoolRequest)
    (fetchesIssued : EachCall BufferPool.serve BufferPool.FetchesIssued
      (.new poolSize (IdealDisk.start count initial) .noop) requests)
    (heap : TableHeap) (operation : HeapOperation) :
    let pool := Foundation.run BufferPool.serve
      (.new poolSize (IdealDisk.start count initial) .noop) requests
    operation.OnIssued heap pool →
      (∀ pageId, (operation.perform heap pool).frames.pinsOf pageId = pool.frames.pinsOf pageId) ∧
      (∀ pageId, ¬ pool.Issued pageId → (operation.perform heap pool).frames.pinsOf pageId = 0) ∧
      ∀ tuple, operation = .insertTuple tuple →
        (run (heap.insertTuple tuple) pool).1.1 = none →
          (run (heap.insertTuple tuple) pool).1.2 = heap ∧
            ∀ pageId, (operation.perform heap pool).frames.shown pageId = pool.frames.shown pageId := by
  intro pool issued
  have inOrder : pool.InOrder := (BufferPool.inOrder_run fetchesIssued).1
  have pins := operation.pins_perform inOrder issued
  refine ⟨fun pageId => by rw [pins], fun pageId beyond => ?_, ?_⟩
  · rw [pins]
    apply Frames.pinsOf_absent
    by_contra resident
    obtain ⟨frame, found⟩ := Option.ne_none_iff_exists'.mp resident
    exact beyond (inOrder.orderly.sound.issued found)
  · rintro tuple rfl refused
    obtain ⟨sameHeap, same⟩ := (TableHeap.insertTuple_ends inOrder issued tuple).same_of_refused
      refused
    exact ⟨sameHeap, fun pageId => congrFun same pageId⟩

/-- A heap whose first page another client has pinned, in a pool of one frame. -/
theorem neutral_and_atomic_pinned :
    ((HeapOperation.insertTuple {}).perform { firstPageId := 0, lastPageId := 0 }
      (Foundation.run BufferPool.serve (.new 1 (IdealDisk.start 0 fun _ => Bytes.zeros) .noop)
        [.newPage])).frames.pinsOf 0 = 1 := by
  have neutral := neutral_and_atomic 1 0 (fun _ => Bytes.zeros) [.newPage] ⟨trivial, trivial⟩
    { firstPageId := 0, lastPageId := 0 } (.insertTuple {}) Int.zero_lt_one
  exact (neutral.1 0).trans rfl

end MiniDB.Storage
