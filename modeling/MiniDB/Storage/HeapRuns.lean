import Mathlib.Algebra.GroupWithZero.Nat
import MiniDB.Storage.HeapVisits
import MiniDB.Storage.TupleUpdate

/-!
# Runs of a heap

One heap works in a pool that other clients use as well. They may do what they like there,
but for writing the pages of the heap and fetching ids that were never issued. The headers of
the heap's pages then count the tuples that were inserted, and the RIDs that insertions
return increase.
-/

namespace MiniDB.Storage

open Foundation Buffer Frames PoolProgram

/-- The order of RIDs: by page, and on a page by slot. -/
def Precedes (first second : RID) : Prop :=
  first.pageId < second.pageId ∨ first.pageId = second.pageId ∧ first.slotNum < second.slotNum

instance : DecidableRel Precedes := fun _ _ => inferInstanceAs (Decidable (_ ∨ _))

/-- The header of a page counts the tuples that were inserted on it, and leaves room for an
entry behind their bytes. -/
structure Consistent (pageData : Bytes) (tuples : List Tuple) : Prop where
  slots : getNSlots pageData = tuples.length
  free : getNextFree pageData = slotHeader + (tuples.map TableHeap.copySize).sum
  few : tuples.length ≤ maxSlotsPerPage
  inside : slotHeader + (tuples.map TableHeap.copySize).sum ≤ pageSize - slotEntrySize

namespace Consistent

variable {pageData : Bytes} {tuples : List Tuple}

theorem written (pageData : Bytes) :
    Consistent (setNSlots (setNextFree pageData slotHeader) 0) [] := by
  have header := TableHeap.header_written pageData
  exact ⟨header.slots, header.free, Nat.zero_le _, by decide⟩

/-- What a consistent header has. -/
theorem header (consistent : Consistent pageData tuples) :
    Header pageData tuples.length (slotHeader + (tuples.map TableHeap.copySize).sum) := by
  have inside := consistent.inside
  refine ⟨consistent.slots, ?_, Nat.le_add_right _ _, Nat.le_trans inside (Nat.sub_le _ _)⟩
  rw [consistent.free, Int.natCast_add]

/-- Storing a tuple counts it. -/
theorem store (consistent : Consistent pageData tuples) {tuple : Tuple}
    (room : TableHeap.isFull pageData (TableHeap.copySize tuple) = false) :
    Consistent (TableHeap.storeTuple pageData tuple) (tuple :: tuples) := by
  have stored := TableHeap.header_stored consistent.header room
  simp only [TableHeap.isFull, consistent.slots, consistent.free, Bool.or_eq_false_iff,
    decide_eq_false_iff_not] at room
  have size : (slotHeader + (tuples.map TableHeap.copySize).sum) + TableHeap.copySize tuple =
      slotHeader + ((tuple :: tuples).map TableHeap.copySize).sum := by
    rw [List.map_cons, List.sum_cons]
    omega
  rw [size] at stored
  refine ⟨stored.slots, ?_, ?_, ?_⟩
  · rw [stored.free, Int.natCast_add]
  · rw [List.length_cons]
    omega
  · rw [← size]
    simp only [pageSize, slotEntrySize, slotHeader] at room ⊢
    omega

/-- An update spares the header. -/
theorem overwrite (consistent : Consistent pageData tuples) (tuple : Tuple) :
    Consistent (TableHeap.overwrite pageData tuple) tuples := by
  refine ⟨?_, ?_, consistent.few, consistent.inside⟩
  · rw [TableHeap.getNSlots_overwrite, consistent.slots]
  · rw [← consistent.free]
    exact Bytes.readInt_copy_of_disjoint (by omega)

end Consistent

/-- The tuples that were inserted on a page. -/
def tuplesOn (stored : List (RID × Tuple)) (pageId : Int) : List Tuple :=
  (stored.filter fun entry => entry.1.pageId = pageId).map Prod.snd

section TuplesOn

variable {stored : List (RID × Tuple)} {rid : RID} {tuple : Tuple} {pageId : Int}

theorem tuplesOn_cons_self : tuplesOn ((rid, tuple) :: stored) rid.pageId =
    tuple :: tuplesOn stored rid.pageId := by
  simp [tuplesOn]

theorem tuplesOn_cons_of_ne (elsewhere : pageId ≠ rid.pageId) :
    tuplesOn ((rid, tuple) :: stored) pageId = tuplesOn stored pageId := by
  simp [tuplesOn, elsewhere.symm]

/-- A tuple more takes none away. -/
theorem length_tuplesOn_cons (entry : RID × Tuple) :
    (tuplesOn stored pageId).length ≤ (tuplesOn (entry :: stored) pageId).length := by
  by_cases here : pageId = entry.1.pageId
  · rw [here, tuplesOn_cons_self]
    exact Nat.le_succ _
  · rw [tuplesOn_cons_of_ne here]

end TuplesOn

/-! ## The runs -/

/-- A heap in its pool, with the pages that it has taken, the tuples that were inserted and
the RIDs for which `DeleteTuple` has returned true, the latest ones first. -/
structure HeapRun where
  pool : BufferPool IdealDisk
  heap : TableHeap
  pages : List Int
  stored : List (RID × Tuple) := []
  deleted : List RID := []

/-- A call on the heap, or a request of another client of the pool. -/
inductive SharedCall where
  | operation (operation : HeapOperation)
  | client (request : PoolRequest)

namespace HeapRun

/-- A heap from its constructor on. -/
def start (pool : BufferPool IdealDisk) : HeapRun :=
  let (heap, pool) := run TableHeap.new pool
  { pool, heap, pages := [heap.firstPageId] }

def step (state : HeapRun) : SharedCall → HeapRun
  | .operation (.insertTuple tuple) =>
    let ((rid, heap), pool) := run (state.heap.insertTuple tuple) state.pool
    { state with
      pool
      heap
      pages := if heap.lastPageId = state.heap.lastPageId then state.pages
        else heap.lastPageId :: state.pages
      stored := (rid.map fun rid => (rid, tuple)).toList ++ state.stored }
  | .operation (.deleteTuple rid) =>
    let (done, pool) := run (TableHeap.deleteTuple rid) state.pool
    { state with
      pool
      deleted := if done then rid :: state.deleted else state.deleted }
  | .operation operation => { state with pool := operation.perform state.heap state.pool }
  | .client request => { state with pool := state.pool.serve request }

/-- RIDs are on pages that were issued. Other clients fetch only issued ids and do not write
the pages of the heap. -/
def Admits (state : HeapRun) : SharedCall → Prop
  | .operation (.insertTuple _) => True
  | .operation operation => operation.OnIssued state.heap state.pool
  | .client request => state.pool.FetchesIssued request ∧
      ∀ pageId ∈ state.pages, state.pool.SparesPage pageId request

/-- A call other than an insertion visits a page, or does nothing, and the run keeps the pool and
what is deleted. -/
theorem step_operation {state : HeapRun} (inOrder : state.pool.InOrder) {operation : HeapOperation}
    (admits : state.Admits (.operation operation))
    (other : ∀ tuple, operation ≠ .insertTuple tuple) :
    ∃ after deleted, state.step (.operation operation) = { state with pool := after, deleted } ∧
      (after = state.pool ∨
        TableHeap.Visits state.pool (operation.fetched state.heap) () ()
          (operation.leaves (state.pool.frames.shown (operation.fetched state.heap))) ((), after)) := by
  have issued : operation.OnIssued state.heap state.pool := by
    cases operation with
    | insertTuple tuple => exact absurd rfl (other tuple)
    | _ => exact admits
  have performs := operation.visits_perform inOrder issued other
  cases operation with
  | insertTuple tuple => exact absurd rfl (other tuple)
  | deleteTuple rid => exact ⟨_, _, rfl, performs⟩
  | getTuple rid out => exact ⟨_, state.deleted, rfl, performs⟩
  | updateTuple tuple rid => exact ⟨_, state.deleted, rfl, performs⟩
  | getSlotCount pageId => exact ⟨_, state.deleted, rfl, performs⟩

/-- The invariant of the runs. -/
structure WellKept (state : HeapRun) : Prop where
  inOrder : state.pool.InOrder
  last : state.heap.lastPageId ∈ state.pages
  latest : ∀ {pageId : Int}, pageId ∈ state.pages → pageId ≤ state.heap.lastPageId
  nonneg : ∀ {pageId : Int}, pageId ∈ state.pages → 0 ≤ pageId
  issued : state.pool.Issued state.heap.lastPageId
  saved : ∀ {pageId : Int}, pageId ∈ state.pages → state.pool.frames.Saved pageId
  consistent : ∀ {pageId : Int}, pageId ∈ state.pages →
    Consistent (state.pool.frames.shown pageId) (tuplesOn state.stored pageId)
  onPages : ∀ {entry : RID × Tuple}, entry ∈ state.stored → entry.1.pageId ∈ state.pages
  slots : ∀ {entry : RID × Tuple}, entry ∈ state.stored →
    0 ≤ entry.1.slotNum ∧ entry.1.slotNum < (tuplesOn state.stored entry.1.pageId).length
  increasing : state.stored.Pairwise fun later earlier => Precedes earlier.1 later.1

variable {state : HeapRun} {pool : BufferPool IdealDisk} {pageId : Int}

namespace WellKept

variable (kept : state.WellKept)

include kept

/-- The pages of the heap were issued. -/
theorem issued_page (member : pageId ∈ state.pages) : state.pool.Issued pageId :=
  Int.lt_of_le_of_lt (kept.latest member) kept.issued

/-- Whatever keeps the headers of the heap's pages. -/
theorem withPool (inOrder : pool.InOrder)
    (grown : state.pool.frames.disk.nextPageId ≤ pool.frames.disk.nextPageId)
    (pages : ∀ pageId ∈ state.pages, pool.frames.Saved pageId ∧
      ∀ tuples, Consistent (state.pool.frames.shown pageId) tuples →
        Consistent (pool.frames.shown pageId) tuples) (deleted : List RID) :
    ({ state with pool, deleted } : HeapRun).WellKept where
  inOrder := inOrder
  last := kept.last
  latest := kept.latest
  nonneg := kept.nonneg
  issued := Int.lt_of_lt_of_le kept.issued grown
  saved member := (pages _ member).1
  consistent member := (pages _ member).2 _ (kept.consistent member)
  onPages := kept.onPages
  slots := kept.slots
  increasing := kept.increasing

/-- An operation that visits a page and keeps its header. -/
theorem visited {Result : Type} {refused brought : Result} {data : Bytes}
    {outcome : Result × BufferPool IdealDisk}
    (visits : TableHeap.Visits state.pool pageId refused brought data outcome)
    (header : ∀ tuples, Consistent (state.pool.frames.shown pageId) tuples → Consistent data tuples)
    (deleted : List RID) : ({ state with pool := outcome.2, deleted } : HeapRun).WellKept := by
  obtain ⟨inOrder, next⟩ := visits.inOrder kept.inOrder
  apply kept.withPool inOrder (Int.le_of_eq next.symm)
  intro other member
  obtain ⟨saved, shown⟩ := visits.shown (kept.issued_page member) (kept.saved member)
  refine ⟨saved, fun tuples => ?_⟩
  rcases shown with same | ⟨rfl, changed⟩
  · rw [same]
    exact id
  · rw [changed]
    exact header tuples

/-- A tuple is stored on the last page, or on a new one. -/
theorem stored {rid : RID} {tuple : Tuple} {pages : List Int} {heap : TableHeap}
    (inOrder : pool.InOrder) (ridPage : heap.lastPageId = rid.pageId)
    (ridSlot : rid.slotNum = (tuplesOn state.stored rid.pageId).length)
    (latest : state.heap.lastPageId ≤ rid.pageId) (issued : pool.Issued rid.pageId)
    (members : ∀ {pageId}, pageId ∈ pages ↔ pageId = rid.pageId ∨ pageId ∈ state.pages)
    (saved : pool.frames.Saved rid.pageId)
    (counts : Consistent (pool.frames.shown rid.pageId)
      (tuple :: tuplesOn state.stored rid.pageId))
    (others : ∀ pageId ∈ state.pages, pageId ≠ rid.pageId →
      KeepsPage state.pool.frames pool.frames pageId) :
    ({ state with pool, heap, pages, stored := (rid, tuple) :: state.stored } : HeapRun).WellKept := by
  refine ⟨inOrder, ?_, ?_, ?_, ?_, ?_, ?_, ?_, ?_, ?_⟩
  · exact members.mpr (.inl ridPage)
  · intro other member
    change other ≤ heap.lastPageId
    rw [ridPage]
    rcases members.mp member with rfl | before
    · exact Int.le_refl _
    · exact Int.le_trans (kept.latest before) latest
  · intro other member
    rcases members.mp member with rfl | before
    · exact Int.le_trans (kept.nonneg kept.last) latest
    · exact kept.nonneg before
  · change pool.Issued heap.lastPageId
    rwa [ridPage]
  · intro other member
    by_cases same : other = rid.pageId
    · exact same ▸ saved
    · have before := (members.mp member).resolve_left same
      exact (others other before same (kept.saved before)).1
  · intro other member
    dsimp only
    by_cases same : other = rid.pageId
    · rw [same, tuplesOn_cons_self]
      exact counts
    · have before := (members.mp member).resolve_left same
      rw [tuplesOn_cons_of_ne same, (others other before same (kept.saved before)).2]
      exact kept.consistent before
  · intro entry member
    rcases List.mem_cons.mp member with rfl | before
    · exact members.mpr (.inl rfl)
    · exact members.mpr (.inr (kept.onPages before))
  · intro entry member
    rcases List.mem_cons.mp member with rfl | before
    · dsimp only
      rw [tuplesOn_cons_self, List.length_cons, ridSlot]
      omega
    · obtain ⟨lower, upper⟩ := kept.slots before
      have more := @length_tuplesOn_cons state.stored entry.1.pageId (rid, tuple)
      exact ⟨lower, by dsimp only; omega⟩
  · refine List.pairwise_cons.mpr ⟨fun entry before => ?_, kept.increasing⟩
    rcases Int.lt_or_eq_of_le (Int.le_trans (kept.latest (kept.onPages before)) latest) with
      below | same
    · exact .inl below
    · refine .inr ⟨same, ?_⟩
      rw [ridSlot, ← same]
      exact (kept.slots before).2

/-- Nothing was inserted on a page that is yet to be issued. -/
theorem tuplesOn_fresh (fresh : state.pool.frames.disk.nextPageId ≤ pageId) :
    tuplesOn state.stored pageId = [] := by
  unfold tuplesOn
  rw [List.map_eq_nil_iff, List.filter_eq_nil_iff]
  intro entry member here
  have issued : entry.1.pageId < _ := kept.issued_page (kept.onPages member)
  have same := of_decide_eq_true here
  omega

/-- `InsertTuple` keeps the invariant. -/
theorem insertTuple (tuple : Tuple) :
    (state.step (.operation (.insertTuple tuple))).WellKept := by
  have ends := TableHeap.insertTuple_ends kept.inOrder kept.issued tuple
  have room := TableHeap.isFull_emptyPage tuple
  unfold step
  dsimp only
  generalize run (state.heap.insertTuple tuple) state.pool = outcome at ends
  cases ends with
  | @refused after refuses unchanged =>
    have visits : TableHeap.Visits state.pool state.heap.lastPageId () ()
        (state.pool.frames.shown state.heap.lastPageId) ((), after) := .inl ⟨refuses, rfl, unchanged⟩
    rw [if_pos rfl]
    exact kept.visited visits (fun _ => id) state.deleted
  | @full after brings full all revisited same =>
    have visits : TableHeap.Visits state.pool state.heap.lastPageId () ()
        (state.pool.frames.shown state.heap.lastPageId) ((), after) := .inr ⟨brings, rfl, revisited⟩
    rw [if_pos rfl]
    exact kept.visited visits (fun _ => id) state.deleted
  | @stored after brings room revisited saved =>
    have consistent := kept.consistent kept.last
    rw [if_pos rfl]
    apply kept.stored revisited.inOrder rfl consistent.slots (Int.le_refl _)
    · have issued : _ < _ := kept.issued
      exact Int.lt_of_lt_of_le issued (Int.le_of_eq revisited.next_eq.symm)
    · intro other
      refine ⟨.inr, ?_⟩
      rintro (rfl | member)
      · exact kept.last
      · exact member
    · exact saved
    · dsimp only
      rw [revisited.data]
      exact consistent.store room
    · exact fun other member different => revisited.kept other different (kept.issued_page member)
  | @moved after brings full loads visited saved =>
    have issued : state.heap.lastPageId < state.pool.frames.disk.nextPageId := kept.issued
    have fresh := kept.tuplesOn_fresh (Int.le_refl _)
    have next := visited.next
    rw [if_neg (Int.ne_of_gt issued)]
    apply kept.stored visited.inOrder rfl
    · dsimp only
      rw [fresh]
      rfl
    · exact Int.le_of_lt issued
    · change state.pool.frames.disk.nextPageId < after.frames.disk.nextPageId
      omega
    · exact List.mem_cons
    · exact saved
    · dsimp only
      rw [visited.data, fresh]
      exact (Consistent.written Bytes.zeros).store room
    · exact fun other member different => visited.kept other different (kept.issued_page member)

/-- Every admitted call keeps the invariant. -/
theorem step {call : SharedCall} (admits : state.Admits call) : (state.step call).WellKept := by
  cases call with
  | client request =>
    obtain ⟨inOrder, grown, keeps⟩ := kept.inOrder.serve admits.1
    refine kept.withPool inOrder grown (fun pageId member => ?_) state.deleted
    obtain ⟨saved, shown⟩ := keeps pageId (kept.issued_page member) (admits.2 pageId member)
      (kept.saved member)
    exact ⟨saved, fun tuples => by rw [shown]; exact id⟩
  | operation operation =>
    by_cases inserts : ∃ tuple, operation = .insertTuple tuple
    · obtain ⟨tuple, rfl⟩ := inserts
      exact kept.insertTuple tuple
    · obtain ⟨after, deleted, stepEq, rfl | visits⟩ :=
        step_operation kept.inOrder admits (not_exists.mp inserts)
      · rw [stepEq]
        apply kept.withPool kept.inOrder (Int.le_refl _)
        exact fun other member => ⟨kept.saved member, fun _ => id⟩
      · rw [stepEq]
        refine kept.visited visits (fun tuples consistent => ?_) deleted
        cases operation with
        | updateTuple tuple rid => exact consistent.overwrite tuple
        | _ => exact consistent

end WellKept

/-- A heap whose constructor obtained a page, in a pool that clients had used before. -/
def Starts (state : HeapRun) : Prop :=
  ∃ (poolSize count : Nat) (initial : Int → Bytes) (requests : List PoolRequest),
    let pool := Foundation.run BufferPool.serve
      (.new poolSize (IdealDisk.start count initial) .noop) requests
    EachCall BufferPool.serve BufferPool.FetchesIssued
        (.new poolSize (IdealDisk.start count initial) .noop) requests ∧
      (run TableHeap.new pool).1.firstPageId ≠ -1 ∧ state = start pool

/-- A new heap is well kept. -/
theorem wellKept_start (inOrder : pool.InOrder) (nonneg : 0 ≤ pool.frames.disk.nextPageId)
    (obtained : (run TableHeap.new pool).1.firstPageId ≠ -1) : (start pool).WellKept := by
  obtain ⟨after, made, visited, saved⟩ := TableHeap.new_visits inOrder obtained
  have next := visited.next
  unfold start
  rw [made]
  have only : ∀ {pageId : Int}, pageId ∈ [pool.frames.disk.nextPageId] →
      pageId = pool.frames.disk.nextPageId := List.mem_singleton.mp
  refine ⟨visited.inOrder, List.mem_singleton.mpr rfl, fun member => Int.le_of_eq (only member),
    fun member => only member ▸ nonneg, ?_, fun member => only member ▸ saved, fun member => ?_,
    fun member => ?_, fun member => ?_, List.Pairwise.nil⟩
  · change pool.frames.disk.nextPageId < after.frames.disk.nextPageId
    omega
  · rw [only member]
    dsimp only
    rw [visited.data]
    exact Consistent.written _
  · exact absurd member List.not_mem_nil
  · exact absurd member List.not_mem_nil

theorem Starts.wellKept (starts : state.Starts) : state.WellKept := by
  obtain ⟨poolSize, count, initial, requests, fetchesIssued, obtained, rfl⟩ := starts
  obtain ⟨inOrder, nonneg⟩ := BufferPool.inOrder_run fetchesIssued
  exact wellKept_start inOrder nonneg obtained

/-- What the invariant implies holds throughout every run. -/
theorem Starts.throughout {holds : HeapRun → Prop} (starts : state.Starts) {calls : List SharedCall}
    (admitted : EachCall HeapRun.step Admits state calls)
    (implies : ∀ state : HeapRun, state.WellKept → holds state) :
    Throughout HeapRun.step holds state calls :=
  admitted.throughout (fun _ _ kept admits => kept.step admits) implies starts.wellKept

/-! ## Headers and writes -/

/-- The offsets in its page of the slot entry and the tuple bytes that a call writes. -/
def Writes (state : HeapRun) : SharedCall → Int → Prop
  | .operation (.insertTuple tuple), offset =>
    let pageData := TableHeap.storesInto state.heap state.pool tuple
    let entry : Int := slotHeader + getNSlots pageData * slotEntrySize
    entry ≤ offset ∧ offset < entry + slotEntrySize ∨
      getNextFree pageData ≤ offset ∧ offset < getNextFree pageData + TableHeap.copySize tuple
  | .operation (.updateTuple tuple _), offset =>
    16 ≤ offset ∧ offset < 16 + (min tuple.size (pageSize - 16) : Nat)
  | _, _ => False

/-- The page that an insertion stores into is consistent and has room. -/
theorem WellKept.storesInto (kept : state.WellKept) (tuple : Tuple) :
    ∃ tuples, Consistent (TableHeap.storesInto state.heap state.pool tuple) tuples ∧
      TableHeap.isFull (TableHeap.storesInto state.heap state.pool tuple)
        (TableHeap.copySize tuple) = false := by
  unfold TableHeap.storesInto
  split
  · exact ⟨[], Consistent.written Bytes.zeros, TableHeap.isFull_emptyPage tuple⟩
  · next room => exact ⟨_, kept.consistent kept.last, Bool.eq_false_iff.mpr room⟩

/-- No call writes the header of a page, or beyond the page. -/
theorem WellKept.writes_inside (kept : state.WellKept) {call : SharedCall} {offset : Int}
    (writes : state.Writes call offset) : slotHeader ≤ offset ∧ offset < pageSize := by
  cases call with
  | client request => exact writes.elim
  | operation operation =>
    cases operation with
    | insertTuple tuple =>
      obtain ⟨tuples, consistent, room⟩ := kept.storesInto tuple
      simp only [TableHeap.isFull, consistent.slots, consistent.free, Bool.or_eq_false_iff,
        decide_eq_false_iff_not, maxSlotsPerPage, pageSize, slotHeader, slotEntrySize] at room
      simp only [Writes, consistent.slots, consistent.free, slotHeader, slotEntrySize] at writes
      simp only [slotHeader, pageSize]
      omega
    | updateTuple tuple rid =>
      simp only [Writes, pageSize] at writes
      simp only [slotHeader, pageSize]
      omega
    | _ => exact writes.elim

/-- Storing a tuple changes the header, and the bytes that are written. -/
theorem storeTuple_unwritten {pageData : Bytes} {tuples : List Tuple} {tuple : Tuple}
    (consistent : Consistent pageData tuples) {i : Nat} (beyond : slotHeader ≤ i)
    (entry : ¬ (slotOffset tuples.length ≤ i ∧ i < slotOffset tuples.length + slotEntrySize))
    (bytes : ¬ (getNextFree pageData ≤ i ∧ i < getNextFree pageData + TableHeap.copySize tuple)) :
    TableHeap.storeTuple pageData tuple i = pageData i := by
  simp only [slotHeader] at beyond
  simp only [consistent.free] at bytes
  simp only [TableHeap.storeTuple, consistent.slots, consistent.free, setNSlots, setNextFree]
  rw [Bytes.writeInt, Bytes.copy_outside (by omega), Bytes.writeInt,
    Bytes.copy_outside (by omega), Bytes.copy_outside (by omega), setSlot_apply, if_neg entry]

/-- The bytes of the heap's pages that a call changes are those that it writes, and the
header. -/
theorem WellKept.unwritten (kept : state.WellKept) {call : SharedCall} (admits : state.Admits call)
    (member : pageId ∈ state.pages) {i : Nat} (beyond : slotHeader ≤ i)
    (unwritten : ¬ state.Writes call i) :
    (state.step call).pool.frames.shown pageId i = state.pool.frames.shown pageId i := by
  have issued := kept.issued_page member
  have saved : state.pool.frames.Saved pageId := kept.saved member
  cases call with
  | client request =>
    obtain ⟨-, -, keeps⟩ := kept.inOrder.serve admits.1
    exact congrFun (keeps pageId issued (admits.2 pageId member) saved).2 i
  | operation operation =>
    by_cases inserts : ∃ tuple, operation = .insertTuple tuple
    · obtain ⟨tuple, rfl⟩ := inserts
      have ends := TableHeap.insertTuple_ends kept.inOrder kept.issued tuple
      have consistent := kept.consistent kept.last
      unfold HeapRun.step
      dsimp only
      simp only [Writes, TableHeap.storesInto] at unwritten
      generalize run (state.heap.insertTuple tuple) state.pool = outcome at ends
      cases ends with
      | refused refuses unchanged => rw [unchanged.frames]
      | full brings full all revisited same => rw [same]
      | moved brings full loads visited =>
        rw [(visited.kept pageId (Int.ne_of_lt issued) issued saved).2]
      | stored brings room revisited =>
        by_cases same : pageId = state.heap.lastPageId
        · subst same
          rw [revisited.data]
          rw [room, if_neg Bool.false_ne_true, consistent.slots] at unwritten
          apply storeTuple_unwritten consistent beyond
          · simp only [slotOffset_natCast]
            simp only [slotHeader, slotEntrySize] at unwritten ⊢
            omega
          · exact fun bytes => unwritten (.inr bytes)
        · rw [(revisited.kept pageId same issued saved).2]
    · obtain ⟨after, deleted, stepEq, rfl | visits⟩ :=
        step_operation kept.inOrder admits (not_exists.mp inserts)
      · rw [stepEq]
      · rw [stepEq]
        rcases (visits.shown issued saved).2 with same | ⟨here, shown⟩
        · rw [same]
        · rw [shown, ← here]
          cases operation with
          | updateTuple tuple rid =>
            apply Bytes.copy_outside
            simp only [Writes] at unwritten
            omega
          | _ => rfl

/-- Along every run the headers of the heap's pages count the tuples that were inserted there,
and no slot entry and no tuple is written outside the pages or over their headers: what
`Writes` leaves out behind the headers keeps its bytes. -/
theorem headers_consistent {state : HeapRun} (starts : state.Starts) {calls : List SharedCall}
    (admitted : EachCall step Admits state calls) :
    Throughout step (fun state => ∀ pageId ∈ state.pages,
        Consistent (state.pool.frames.shown pageId) (tuplesOn state.stored pageId)) state calls ∧
      EachCall step (fun state call =>
        (∀ offset, state.Writes call offset → slotHeader ≤ offset ∧ offset < pageSize) ∧
        ∀ pageId ∈ state.pages, ∀ i : Nat, slotHeader ≤ i → ¬ state.Writes call i →
          (state.step call).pool.frames.shown pageId i =
            state.pool.frames.shown pageId i) state calls := by
  constructor
  · exact starts.throughout admitted fun state kept pageId member => kept.consistent member
  · refine admitted.imp (fun _ _ kept admits => kept.step admits) ?_ starts.wellKept
    intro state call kept admits
    exact ⟨fun offset => kept.writes_inside, fun pageId member i => kept.unwritten admits member⟩

/-- A heap in a pool of two frames. -/
def inTwoFrames : HeapRun := start (.new 2 (IdealDisk.start 0 fun _ => Bytes.zeros) .noop)

/-- A tuple that fills a page, a page of another client, an update that goes beyond its slot
and a tuple on a new page. -/
def fillAndMove : List SharedCall :=
  [.operation (.insertTuple { size := 4020 }), .client .newPage,
    .operation (.updateTuple { size := 5000 } { pageId := 0, slotNum := 0 }),
    .operation (.insertTuple { size := 100 })]

theorem starts_inTwoFrames : inTwoFrames.Starts :=
  ⟨2, 0, fun _ => Bytes.zeros, [], trivial, by decide +kernel, rfl⟩

theorem admitted_fillAndMove : EachCall step Admits inTwoFrames fillAndMove := by
  refine ⟨trivial, ⟨trivial, fun _ _ => trivial⟩, ?_, trivial, trivial⟩
  have issued : (0 : Int) < ((inTwoFrames.step fillAndMove[0]).step
      fillAndMove[1]).pool.frames.disk.nextPageId := by decide +kernel
  exact issued

theorem headers_consistent_moved :
    Consistent ((Foundation.run step inTwoFrames fillAndMove).pool.frames.shown 0)
        (tuplesOn (Foundation.run step inTwoFrames fillAndMove).stored 0) ∧
      Consistent ((Foundation.run step inTwoFrames fillAndMove).pool.frames.shown 2)
        (tuplesOn (Foundation.run step inTwoFrames fillAndMove).stored 2) := by
  have pages : (Foundation.run step inTwoFrames fillAndMove).pages = [2, 0] := by decide +kernel
  have consistent := (headers_consistent starts_inTwoFrames admitted_fillAndMove).1.last
  rw [pages] at consistent
  exact ⟨consistent 0 (by decide), consistent 2 (by decide)⟩

/-! ## RIDs -/

/-- The RIDs that insertions have returned, in their order. -/
def rids (state : HeapRun) : List RID := (state.stored.map Prod.fst).reverse

/-- The RIDs that insertions return increase, so none is returned twice. -/
theorem rids_increase {state : HeapRun} (starts : state.Starts) {calls : List SharedCall}
    (admitted : EachCall step Admits state calls) :
    (Foundation.run step state calls).rids.Pairwise Precedes ∧
      (Foundation.run step state calls).rids.Nodup := by
  have kept : (Foundation.run step state calls).WellKept :=
    (starts.throughout admitted fun _ kept => kept).last
  have increasing : (Foundation.run step state calls).rids.Pairwise Precedes := by
    rw [rids, List.pairwise_reverse, List.pairwise_map]
    exact kept.increasing
  refine ⟨increasing, increasing.imp fun {first second} precedes same => ?_⟩
  subst same
  unfold Precedes at precedes
  omega

theorem rids_increase_moved :
    (Foundation.run step inTwoFrames fillAndMove).rids.length = 2 ∧
      (Foundation.run step inTwoFrames fillAndMove).rids.Pairwise Precedes :=
  ⟨by decide +kernel, (rids_increase starts_inTwoFrames admitted_fillAndMove).1⟩

end HeapRun

end MiniDB.Storage
