import MiniDB.Foundation.Run
import MiniDB.Storage.HeapPages

/-!
# What the heap stores

A history carries, next to the heap and its pool, the tuples that `InsertTuple`
reported as stored, with their RIDs. They all read back as long as no insertion
writes over bytes in use with other bytes.
-/

namespace MiniDB.Storage

open Foundation Buffer PoolProgram

namespace TableHeap

variable {tuple : Tuple} {pageData : Bytes}

/-- A tuple that the page keeps is read from it. -/
theorem readTuple_of_keeps {rid : RID} {nSlots nextFree slot offset : Nat}
    (header : Header pageData nSlots nextFree) (slotNum : rid.slotNum = slot)
    (below : slot < nSlots) (keeps : Keeps pageData nextFree slot tuple offset)
    (nonempty : 0 < tuple.size) (bounded : tuple.size ≤ Tuple.maxSize) (out : Tuple) :
    ∃ got, readTuple pageData rid out = some (true, got) ∧ got.size = tuple.size ∧
      ∀ i < tuple.size, got.data i = tuple.data i := by
  have upper := keeps.upper
  have inside := header.upper
  have entry : getSlot pageData rid.slotNum = ((offset : Int), (tuple.size : Int)) := by
    rw [slotNum]
    exact getSlot_of_entry (by omega) (by omega) keeps.entry
  have present : ¬ (rid.slotNum < 0 ∨ getNSlots pageData ≤ rid.slotNum) := by
    rw [header.slots, slotNum]
    omega
  simp only [pageSize] at inside
  have some : ¬ (tuple.size : Int) ≤ 0 := by omega
  have isInt : ¬ ¬ IsInt (offset + tuple.size) := by
    rw [not_not, IsInt]
    omega
  have fits : ¬ (pageSize : Int) < offset + tuple.size := by
    simp only [pageSize]
    omega
  have defined : ¬ ((offset : Int) < 0 ∨ (Tuple.maxSize : Int) < tuple.size) := by omega
  simp only [readTuple, if_neg present, entry, if_neg some, if_neg isInt, if_neg fits, if_neg defined,
    Int.toNat_natCast]
  refine ⟨_, rfl, ?_, fun i within => ?_⟩
  · simp [Tuple.setSize, bounded]
  · rw [← keeps.bytes i within]
    simp [Bytes.copy, within]

end TableHeap

/-! ## Runs of the heap -/

/-- The calls on a heap: tuples of size 1 to `MAX_SIZE` are inserted. -/
inductive HeapCall where
  | insertTuple (tuple : Tuple) (nonempty : 0 < tuple.size) (bounded : tuple.size ≤ Tuple.maxSize)
  | getTuple (rid : RID) (out : Tuple)

/-- A heap, its pool, and the tuples stored so far. -/
structure HeapHistory where
  pool : BufferPool DiskManager
  heap : TableHeap
  /-- What `InsertTuple` returned true for. -/
  inserted : List (RID × Tuple) := []

namespace HeapHistory

/-- A heap built on a pool. -/
def start (pool : BufferPool DiskManager) : HeapHistory :=
  let (heap, pool) := run TableHeap.new pool
  { pool, heap }

/-- One call. -/
def step (history : HeapHistory) : HeapCall → HeapHistory
  | .insertTuple tuple _ _ =>
    let ((rid, heap), pool) := run (history.heap.insertTuple tuple) history.pool
    { pool, heap, inserted := (rid.map fun rid => (rid, tuple)).toList ++ history.inserted }
  | .getTuple rid out =>
    { history with pool := (run (TableHeap.getTuple rid out) history.pool).2 }

/-- Every tuple stored so far is brought by `GetTuple`, whatever it is read into. -/
def Stored (history : HeapHistory) : Prop :=
  ∀ entry ∈ history.inserted, ∀ out, ∃ got,
    (run (TableHeap.getTuple entry.1 out) history.pool).1 = some (true, got) ∧
      got.size = entry.2.size ∧ ∀ i < entry.2.size, got.data i = entry.2.data i

/-- The bytes of the last page. -/
def lastPage (history : HeapHistory) : Bytes :=
  (history.pool.frames.contents history.heap.lastPageId).getD Bytes.zeros

/-- The condition on a call. An insertion writes over no byte in use with another
byte, and finds a null frame when it needs a new page. A tuple is read through a
RID that was reported. -/
def Spares (history : HeapHistory) : HeapCall → Prop
  | .insertTuple tuple _ _ =>
    if TableHeap.isFull history.lastPage (TableHeap.copySize tuple) then
      history.pool.findFree ≠ none ∧ NoClash TableHeap.emptyPage 0 slotHeader tuple
    else
      NoClash history.lastPage (getNSlots history.lastPage).toNat
        (getNextFree history.lastPage).toNat tuple
  | .getTuple rid _ => rid ∈ history.inserted.map Prod.fst

instance (history : HeapHistory) (call : HeapCall) : Decidable (history.Spares call) :=
  match call with
  | .insertTuple _ _ _ => inferInstanceAs (Decidable (ite _ _ _))
  | .getTuple _ _ => inferInstanceAs (Decidable (_ ∈ _))

/-- The pool holds the page of a RID, and the page keeps the tuple in its slot. -/
def Kept (frames : Frames DiskManager) (rid : RID) (tuple : Tuple) : Prop :=
  ∃ pageData nSlots nextFree slot offset,
    frames.contents rid.pageId = some pageData ∧ Header pageData nSlots nextFree ∧
      rid.slotNum = (slot : Nat) ∧ slot < nSlots ∧ Keeps pageData nextFree slot tuple offset ∧
      0 < tuple.size ∧ tuple.size ≤ Tuple.maxSize

/-- The last page is a heap page, and every tuple stored so far is kept. -/
structure Sound (history : HeapHistory) : Prop where
  settled : history.pool.frames.Settled
  last : ∃ pageData nSlots nextFree,
    history.pool.frames.contents history.heap.lastPageId = some pageData ∧
      Header pageData nSlots nextFree
  kept : ∀ rid tuple, (rid, tuple) ∈ history.inserted → Kept history.pool.frames rid tuple

/-- The RID of a kept tuple is valid. -/
theorem Kept.isValid {frames : Frames DiskManager} {rid : RID} {tuple : Tuple}
    (kept : Kept frames rid tuple) (settled : frames.Settled) : rid.isValid = true := by
  obtain ⟨pageData, nSlots, nextFree, slot, offset, resident, header, slotNum, -⟩ := kept
  obtain ⟨frame, page, found, -⟩ := settled.agrees.of_contents resident
  have issued := (settled.issued found).1
  simp [RID.isValid, issued, slotNum]

theorem Kept.get {pool : BufferPool DiskManager} {rid : RID} {tuple : Tuple}
    (kept : Kept pool.frames rid tuple) (settled : pool.frames.Settled) (out : Tuple) :
    ∃ got, (run (TableHeap.getTuple rid out) pool).1 = some (true, got) ∧
      got.size = tuple.size ∧ ∀ i < tuple.size, got.data i = tuple.data i := by
  have valid := kept.isValid settled
  obtain ⟨pageData, nSlots, nextFree, slot, offset, resident, header, slotNum, below, keeps,
    nonempty, bounded⟩ := kept
  obtain ⟨after, reads, -⟩ := TableHeap.run_getTuple settled resident valid out
  rw [reads]
  exact TableHeap.readTuple_of_keeps header slotNum below keeps nonempty bounded out

theorem stored_of_sound (history : HeapHistory) (sound : history.Sound) : history.Stored :=
  fun entry member out => (sound.kept entry.1 entry.2 member).get sound.settled out

/-- A header has one reading. -/
theorem header_unique {pageData : Bytes} {nSlots nSlots' nextFree nextFree' : Nat}
    (first : Header pageData nSlots nextFree) (second : Header pageData nSlots' nextFree') :
    nSlots = nSlots' ∧ nextFree = nextFree' := by
  have slots := first.slots.symm.trans second.slots
  have free := first.free.symm.trans second.free
  omega

/-- Keeping depends on the page of the RID only. -/
theorem Kept.congr {frames after : Frames DiskManager} {rid : RID} {tuple : Tuple}
    (kept : Kept frames rid tuple) (same : after.contents rid.pageId = frames.contents rid.pageId) :
    Kept after rid tuple := by
  obtain ⟨pageData, nSlots, nextFree, slot, offset, resident, rest⟩ := kept
  exact ⟨pageData, nSlots, nextFree, slot, offset, same.trans resident, rest⟩

/-- A tuple stored on a page with room leaves kept what was kept. -/
theorem Kept.storeTuple {frames after : Frames DiskManager} {rid : RID} {kept tuple : Tuple}
    (isKept : Kept frames rid kept) {pageId : Int} {pageData : Bytes} {nSlots nextFree : Nat}
    (last : frames.contents pageId = some pageData) (header : Header pageData nSlots nextFree)
    (room : TableHeap.isFull pageData (TableHeap.copySize tuple) = false)
    (bounded : tuple.size ≤ Tuple.maxSize) (noClash : NoClash pageData nSlots nextFree tuple)
    (contents : after.contents =
      Function.update frames.contents pageId (some (TableHeap.storeTuple pageData tuple))) :
    Kept after rid kept := by
  by_cases same : rid.pageId = pageId
  · obtain ⟨ridData, ridSlots, ridFree, slot, offset, resident, ridHeader, slotNum, below, keeps,
      sizes⟩ := isKept
    rw [same, last] at resident
    obtain rfl := Option.some.inj resident
    obtain ⟨rfl, rfl⟩ := header_unique header ridHeader
    refine ⟨TableHeap.storeTuple pageData tuple, nSlots + 1, nextFree + tuple.size, slot, offset,
      by rw [contents, same, Function.update_self],
      TableHeap.header_storeTuple header bounded room, slotNum, by omega, ?_, sizes⟩
    exact TableHeap.Keeps.storeTuple keeps below header bounded noClash
  · exact isKept.congr (by rw [contents, Function.update_of_ne same])

/-- The tuple just stored is kept. -/
theorem kept_storeTuple {after : Frames DiskManager} {pageId : Int} {tuple : Tuple}
    {pageData : Bytes} {nSlots nextFree : Nat} (header : Header pageData nSlots nextFree)
    (room : TableHeap.isFull pageData (TableHeap.copySize tuple) = false)
    (nonempty : 0 < tuple.size) (bounded : tuple.size ≤ Tuple.maxSize)
    (noClash : NoClash pageData nSlots nextFree tuple)
    (contents : after.contents pageId = some (TableHeap.storeTuple pageData tuple)) :
    Kept after { pageId, slotNum := nSlots } tuple :=
  ⟨TableHeap.storeTuple pageData tuple, nSlots + 1, nextFree + tuple.size, nSlots, nextFree,
    contents, TableHeap.header_storeTuple header bounded room, rfl, Nat.lt_succ_self nSlots,
    TableHeap.keeps_storeTuple header bounded noClash, nonempty, bounded⟩

/-- The constructor leaves an empty heap page. -/
theorem sound_start {pool : BufferPool DiskManager} (settled : pool.frames.Settled)
    (obtained : (run TableHeap.new pool).1.firstPageId ≠ -1) : (start pool).Sound := by
  cases served : pool.newPage.1 with
  | none => simp [TableHeap.new, served] at obtained
  | some result =>
    obtain ⟨pageId, frame⟩ := result
    obtain ⟨page, fresh⟩ := BufferPool.newPage_fresh settled served
    have written := (BufferPool.OnPage.start fresh.held).modifyPage fun held =>
      held.setData (TableHeap.initPage page.data)
    have done := (written.unpinPage fresh.found (by simp [Page.setData, fresh.pinned]) true).2
    obtain ⟨settledAfter, contentsAfter⟩ :=
      done.settled fresh.settled fresh.found (by simpa using fresh.sameId)
    have program : start pool =
        { pool := ((pool.newPage.2.modifyPage frame fun held =>
            held.setData (TableHeap.initPage page.data)).unpinPage pageId true).2
          heap := { firstPageId := pageId, lastPageId := pageId } } := by
      simp only [start, TableHeap.new, run_bind, run_newPage, served, run_getData, run_putData,
        run_unpinPage, run_pure, (BufferPool.OnPage.start fresh.held).pageAt_eq]
    rw [program]
    refine ⟨settledAfter, ⟨TableHeap.initPage page.data, 0, slotHeader, ?_,
      TableHeap.header_initPage page.data⟩, fun _ _ member => absurd member List.not_mem_nil⟩
    rw [contentsAfter, Function.update_self, BufferPool.released_data]
    rfl

theorem step_insertTuple (history : HeapHistory) {tuple : Tuple} {nonempty : 0 < tuple.size}
    {bounded : tuple.size ≤ Tuple.maxSize} {rid : RID} {heap : TableHeap}
    {after : BufferPool DiskManager}
    (outcome : run (history.heap.insertTuple tuple) history.pool = ((some rid, heap), after)) :
    history.step (.insertTuple tuple nonempty bounded) =
      { pool := after, heap, inserted := (rid, tuple) :: history.inserted } := by
  simp only [step, outcome]
  rfl

/-- An insertion that spares the bytes in use. -/
theorem sound_insertTuple (history : HeapHistory) (tuple : Tuple) (nonempty : 0 < tuple.size)
    (bounded : tuple.size ≤ Tuple.maxSize) (sound : history.Sound)
    (spares : history.Spares (.insertTuple tuple nonempty bounded)) :
    (history.step (.insertTuple tuple nonempty bounded)).Sound := by
  obtain ⟨pageData, nSlots, nextFree, last, header⟩ := sound.last
  have lastPage : history.lastPage = pageData := by simp [HeapHistory.lastPage, last]
  simp only [Spares, lastPage] at spares
  cases full : TableHeap.isFull pageData (TableHeap.copySize tuple) with
  | false =>
    obtain ⟨after, outcome, becomes⟩ := TableHeap.run_insertTuple_room sound.settled last full
    have contents := becomes.contents
    simp only [full, Bool.false_eq_true, if_false, header.slots, header.free,
      Int.toNat_natCast] at spares
    rw [history.step_insertTuple outcome]
    refine ⟨becomes.settled, ⟨_, _, _, by rw [contents]; exact Function.update_self _ _ _,
      TableHeap.header_storeTuple header bounded full⟩, ?_⟩
    intro rid stored member
    rcases List.mem_cons.mp member with new | old
    · obtain ⟨rfl, rfl⟩ := Prod.mk.inj new
      rw [header.slots]
      exact kept_storeTuple header full nonempty bounded spares
        (by rw [contents, Function.update_self])
    · exact (sound.kept rid stored old).storeTuple last header full bounded spares contents
  | true =>
    simp only [full, if_true] at spares
    obtain ⟨after, outcome, becomes⟩ :=
      TableHeap.run_insertTuple_full sound.settled last full spares.1
    have contents := becomes.contents
    have room := TableHeap.isFull_emptyPage tuple
    rw [history.step_insertTuple outcome]
    refine ⟨becomes.settled, ⟨_, _, _, by rw [contents]; exact Function.update_self _ _ _,
      TableHeap.header_storeTuple TableHeap.header_emptyPage bounded room⟩, ?_⟩
    intro rid stored member
    rcases List.mem_cons.mp member with new | old
    · obtain ⟨rfl, rfl⟩ := Prod.mk.inj new
      exact kept_storeTuple TableHeap.header_emptyPage room nonempty bounded spares.2
        (by rw [contents, Function.update_self])
    · have kept := sound.kept rid stored old
      have older : rid.pageId ≠ history.pool.frames.disk.nextPageId := by
        intro same
        obtain ⟨_, _, _, _, _, resident, -⟩ := kept
        obtain ⟨frame, _, found, -⟩ := sound.settled.agrees.of_contents resident
        exact absurd same (Int.ne_of_lt (sound.settled.issued found).2)
      exact kept.congr (by rw [contents, Function.update_of_ne older])

theorem sound_getTuple (history : HeapHistory) (rid : RID) (out : Tuple) (sound : history.Sound)
    (reported : history.Spares (.getTuple rid out)) : (history.step (.getTuple rid out)).Sound := by
  obtain ⟨⟨_, tuple⟩, member, rfl⟩ := List.mem_map.mp reported
  have valid := (sound.kept _ tuple member).isValid sound.settled
  obtain ⟨_, _, _, _, _, resident, -⟩ := sound.kept _ tuple member
  obtain ⟨after, reads, serves⟩ := TableHeap.run_getTuple sound.settled resident valid out
  simp only [step, reads]
  refine ⟨serves.settled, ?_, fun other stored old => (sound.kept other stored old).congr ?_⟩
  · simp only [serves.contents]
    exact sound.last
  · simp only [serves.contents]

theorem sound_step (history : HeapHistory) (call : HeapCall) (sound : history.Sound)
    (spares : history.Spares call) : (history.step call).Sound := by
  cases call with
  | insertTuple tuple nonempty bounded =>
    exact history.sound_insertTuple tuple nonempty bounded sound spares
  | getTuple rid out => exact history.sound_getTuple rid out sound spares

/-- From a heap whose constructor obtained a page, in every state of a run whose
insertions spare the bytes in use, every tuple stored so far reads back. -/
theorem throughout_stored (pool : BufferPool DiskManager) (settled : pool.frames.Settled)
    (obtained : (run TableHeap.new pool).1.firstPageId ≠ -1) (calls : List HeapCall)
    (spares : EachCall step Spares (start pool) calls) :
    Throughout step Stored (start pool) calls :=
  spares.throughout sound_step stored_of_sound (sound_start settled obtained)

/-- A tuple of two `int`s. -/
def intPair (first second : Int) : Tuple :=
  { data := (Bytes.zeros.writeInt 0 first).writeInt 4 second, size := 8 }

/-- Tuples that begin with their own slot entries read back. -/
theorem throughout_stored_own_entries :
    Throughout step Stored (start (BufferPool.new 1 (DiskManager.new (some {}))))
      [.insertTuple (intPair 12 8) (by decide) (by decide),
        .insertTuple (intPair 20 8) (by decide) (by decide),
        .getTuple { pageId := 0, slotNum := 0 } {}] :=
  throughout_stored _ (Frames.settled_empty _ (by decide)) (by decide) _ (by decide +kernel)

/-- The tuple of the integration test is stored on its own slot entry, and comes
back with a size of 200. -/
theorem stored_pair_lost :
    (run TableHeap.new (BufferPool.new 1 (DiskManager.new (some {})))).1.firstPageId ≠ -1 ∧
      ¬ Throughout step Stored (start (BufferPool.new 1 (DiskManager.new (some {}))))
        [.insertTuple (intPair 100 200) (by decide) (by decide)] := by
  refine ⟨by decide, ?_⟩
  rintro ⟨-, stored⟩
  obtain ⟨got, brought, size, -⟩ :=
    stored ({ pageId := 0, slotNum := 0 }, intPair 100 200) (List.mem_singleton.mpr rfl) {}
  have sizes := congrArg (Option.map fun answer => answer.2.size) brought
  rw [Option.map_some, size] at sizes
  revert sizes
  decide +kernel

end HeapHistory

end MiniDB.Storage
