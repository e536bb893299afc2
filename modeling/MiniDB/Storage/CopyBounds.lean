import MiniDB.Storage.HeapDeletion

/-!
# What `GetTuple` copies

The bytes of tuples come to lie on slot entries: on the own one, on earlier ones, and on those
of the whole page in an update. `GetTuple` takes offset and size from there, and its guard
`size <= 0 || offset + size > PAGE_SIZE` lets negative offsets, sums that wrap around and sizes
beyond `Tuple::MAX_SIZE` through. It stays in bounds as long as every entry that is covered
with bytes of a tuple is one that it rejects or that is in bounds.
-/

namespace MiniDB.Storage

open Foundation Buffer Frames PoolProgram

namespace TableHeap

variable {pageData other : Bytes} {nSlots nextFree : Nat} {tuple : Tuple} {slot : Nat}

/-- `GetTuple` rejects the slot entry, or copies within the page and into the tuple. -/
def InBounds (pageData : Bytes) (slotNum : Int) : Prop :=
  Rejected pageData slotNum ∨ ¬ Undefined pageData slotNum

instance (pageData : Bytes) : DecidablePred (InBounds pageData) := fun _ =>
  inferInstanceAs (Decidable (_ ∨ _))

/-- Some of the bytes from `first` on lie on the slot entry, or it lies around them. -/
def Covers (first count slot : Nat) : Prop :=
  slotOffset slot < first + count ∧ first < slotOffset slot + slotEntrySize

instance (first count : Nat) : DecidablePred (Covers first count) := fun _ =>
  inferInstanceAs (Decidable (_ ∧ _))

/-- An insertion leaves the slot entries of the page in bounds: its size fits a tuple, or
its bytes replace its own entry, and so do the entries that its bytes come to lie on. -/
structure SparesInserting (pageData : Bytes) (nSlots nextFree : Nat) (tuple : Tuple) : Prop where
  size : ¬ Covers nextFree (copySize tuple) nSlots → tuple.size ≤ Tuple.maxSize
  covered : ∀ slot ≤ nSlots, Covers nextFree (copySize tuple) slot →
    InBounds ((setSlot pageData nSlots nextFree (copySize tuple)).copy nextFree tuple.data
      (copySize tuple)) slot

/-- The same for an update, which has no entry of its own. -/
def SparesUpdating (pageData : Bytes) (nSlots : Nat) (tuple : Tuple) : Prop :=
  ∀ slot < nSlots, Covers 16 (min tuple.size (pageSize - 16)) slot →
    InBounds (overwrite pageData tuple) slot

/-- Only the slot's own entry matters. -/
theorem inBounds_congr (same : getSlot other slot = getSlot pageData slot) :
    InBounds other slot ↔ InBounds pageData slot := by
  unfold InBounds Rejected Undefined EntryRejected EntryUndefined
  rw [same]

/-- `GetTuple` copies within bounds from every slot of a page if the entries are in bounds. -/
theorem readTuple_inBounds_iff {rid : RID} (lower : 0 ≤ rid.slotNum)
    (upper : rid.slotNum < getNSlots pageData) (out : Tuple) :
    readTuple pageData rid out ≠ none ↔ InBounds pageData rid.slotNum := by
  rw [ne_eq, readTuple_undefined_iff lower upper, not_and_or, not_not]
  rfl

/-- A slot that the page does not have is refused. -/
theorem readTuple_beyond {rid : RID} (beyond : getNSlots pageData ≤ rid.slotNum) (out : Tuple) :
    readTuple pageData rid out = some (false, out) :=
  if_pos (.inr beyond)

/-! ## Entries that are not covered -/

/-- Bytes beside a slot entry leave it. -/
theorem getSlot_copy {first count : Nat} {source : Bytes} (free : ¬ Covers first count slot) :
    getSlot (pageData.copy first source count) slot = getSlot pageData slot := by
  simp only [Covers, slotEntrySize] at free
  simp only [getSlot]
  rw [Bytes.readInt_copy_of_disjoint (by omega), Bytes.readInt_copy_of_disjoint (by omega)]

/-- The header is beside the slot entries. -/
theorem getSlot_setHeader (free slots : Int) :
    getSlot (setNSlots (setNextFree pageData free) slots) slot = getSlot pageData slot := by
  have beyond := slotOffset_natCast slot
  simp only [getSlot, setNSlots, setNextFree]
  rw [Bytes.readInt_writeInt_of_disjoint (by omega), Bytes.readInt_writeInt_of_disjoint (by omega),
    Bytes.readInt_writeInt_of_disjoint (by omega), Bytes.readInt_writeInt_of_disjoint (by omega)]

/-- The entries of other slots stay. -/
theorem getSlot_setSlot_of_ne (different : slot ≠ nSlots) (offset size : Int) :
    getSlot (setSlot pageData nSlots offset size) slot = getSlot pageData slot := by
  have here := slotOffset_natCast slot
  have there := slotOffset_natCast nSlots
  simp only [getSlot, setSlot]
  rw [Bytes.readInt_writeInt_of_disjoint (by omega), Bytes.readInt_writeInt_of_disjoint (by omega),
    Bytes.readInt_writeInt_of_disjoint (by omega), Bytes.readInt_writeInt_of_disjoint (by omega)]

/-- The entry that was written is read. -/
theorem getSlot_setSlot {offset size : Int} (offsetInt : IsInt offset) (sizeInt : IsInt size) :
    getSlot (setSlot pageData slot offset size) slot = (offset, size) := by
  simp only [getSlot, setSlot]
  rw [Bytes.readInt_writeInt_of_disjoint (by omega), Bytes.readInt_writeInt offsetInt,
    Bytes.readInt_writeInt sizeInt]

/-- The entry that an insertion makes, if no bytes of the tuple come to lie on it. -/
theorem inBounds_own (header : Header pageData nSlots nextFree)
    (room : isFull pageData (copySize tuple) = false) :
    InBounds (setSlot pageData nSlots nextFree (copySize tuple)) nSlots ↔
      tuple.size ≤ Tuple.maxSize := by
  have small := copySize_le tuple
  simp only [isFull, header.slots, header.free, Bool.or_eq_false_iff, decide_eq_false_iff_not,
    pageSize, slotEntrySize] at room
  have entry : getSlot (setSlot pageData nSlots nextFree (copySize tuple)) nSlots =
      ((nextFree : Int), (copySize tuple : Int)) :=
    getSlot_setSlot (by unfold IsInt; omega) (by unfold IsInt; omega)
  have clamped : copySize tuple = min tuple.size 4020 := rfl
  unfold InBounds Rejected Undefined EntryRejected EntryUndefined IsInt
  rw [entry]
  simp only [Tuple.maxSize, pageSize]
  omega

/-- All slot entries of a page are in bounds. -/
def EntriesInside (pageData : Bytes) : Prop :=
  ∀ slot : Nat, (slot : Int) < getNSlots pageData → InBounds pageData slot

/-- A new page has no slot entry. -/
theorem entriesInside_emptyPage : EntriesInside emptyPage := by
  intro slot below
  rw [header_emptyPage.slots] at below
  omega

/-- The entries of a page after an insertion. -/
theorem entriesInside_storeTuple (header : Header pageData nSlots nextFree)
    (room : isFull pageData (copySize tuple) = false) (before : EntriesInside pageData) :
    EntriesInside (storeTuple pageData tuple) ↔ SparesInserting pageData nSlots nextFree tuple := by
  have slots := (header_stored header room).slots
  have slotsBefore := header.slots
  have entries : ∀ slot : Nat, InBounds (storeTuple pageData tuple) slot ↔
      InBounds ((setSlot pageData nSlots nextFree (copySize tuple)).copy nextFree tuple.data
        (copySize tuple)) slot := by
    intro slot
    apply inBounds_congr
    simp only [storeTuple, header.slots, header.free, Int.toNat_natCast]
    exact getSlot_setHeader _ _
  have uncovered : ∀ slot, ¬ Covers nextFree (copySize tuple) slot →
      (InBounds (storeTuple pageData tuple) slot ↔
        InBounds (setSlot pageData nSlots nextFree (copySize tuple)) slot) :=
    fun slot free => (entries slot).trans (inBounds_congr (getSlot_copy free))
  constructor
  · intro inside
    refine ⟨fun free => ?_, fun slot below _ => (entries slot).mp (inside slot (by omega))⟩
    exact (inBounds_own header room).mp ((uncovered nSlots free).mp (inside nSlots (by omega)))
  · intro spares slot below
    by_cases covered : Covers nextFree (copySize tuple) slot
    · exact (entries slot).mpr (spares.covered slot (by omega) covered)
    · rw [uncovered slot covered]
      by_cases own : slot = nSlots
      · subst own
        exact (inBounds_own header room).mpr (spares.size covered)
      · rw [inBounds_congr (getSlot_setSlot_of_ne own _ _)]
        exact before slot (by omega)

/-- The entries of a page after an update. -/
theorem entriesInside_overwrite (slots : getNSlots pageData = nSlots)
    (before : EntriesInside pageData) :
    EntriesInside (overwrite pageData tuple) ↔ SparesUpdating pageData nSlots tuple := by
  have slotsAfter := getNSlots_overwrite pageData tuple
  constructor
  · exact fun inside slot below _ => inside slot (by omega)
  · intro spares slot below
    by_cases covered : Covers 16 (min tuple.size (pageSize - 16)) slot
    · exact spares slot (by omega) covered
    · exact (inBounds_congr (getSlot_copy covered)).mpr (before slot (by omega))

variable {pool : BufferPool IdealDisk} {rid : RID}

/-- What `GetTuple` answers when the pool brings the page, whether it was issued or not. -/
theorem getTuple_brought (inOrder : pool.InOrder) (valid : rid.isValid = true)
    (brings : pool.Brings rid.pageId) (out : Tuple) :
    (run (getTuple rid out) pool).1 = readTuple (pool.frames.shown rid.pageId) rid out := by
  obtain ⟨frame, fetched⟩ :=
    Option.ne_none_iff_exists'.mp (inOrder.tidy.fetchPage_ne_none_iff.mpr brings)
  have data := data_fetchPage inOrder fetched
  simp only [getTuple, valid, Bool.true_eq_false, if_false, run_bind, run_fetchPage, fetched,
    run_getData, data, run_pure]

/-- A page that was never issued has no slots. -/
theorem getNSlots_unissued (inOrder : pool.InOrder) {pageId : Int} (unissued : ¬ pool.Issued pageId) :
    getNSlots (pool.frames.shown pageId) = 0 := by
  have absent : pool.frames.pageTable.lookup pageId = none := by
    by_contra resident
    obtain ⟨frame, found⟩ := Option.ne_none_iff_exists'.mp resident
    exact unissued (inOrder.orderly.sound.issued found)
  rw [shown_absent absent, IdealDisk.bytes, inOrder.orderly.unwritten (Int.not_lt.mp unissued)]
  rfl

end TableHeap

namespace HeapRun

variable {state after : HeapRun} {operation : HeapOperation} {pageId : Int}

/-- A call of the heap, when nobody else uses the pool. -/
def operate (state : HeapRun) (operation : HeapOperation) : HeapRun := state.step (.operation operation)

/-- Wherever the RID leads, `GetTuple` copies within bounds. -/
def CopiesInside (state : HeapRun) : Prop :=
  ∀ rid out, (run (TableHeap.getTuple rid out) state.pool).1 ≠ none

/-- The pool has the frames that an insertion needs. -/
def FindsFrames (state : HeapRun) (tuple : Tuple) : Prop :=
  state.pool.Brings state.heap.lastPageId ∧
    (TableHeap.isFull (state.pool.frames.shown state.heap.lastPageId)
      (TableHeap.copySize tuple) = true → ¬ state.pool.AllPinned)

/-- The slot entries that the bytes of the tuple come to lie on stay in bounds, and so does
a new one. -/
def SparesEntries (state : HeapRun) : HeapOperation → Prop
  | .insertTuple tuple => state.FindsFrames tuple →
    let pageData := TableHeap.storesInto state.heap state.pool tuple
    TableHeap.SparesInserting pageData (getNSlots pageData).toNat (getNextFree pageData).toNat tuple
  | .updateTuple tuple rid => rid.isValid = true → state.pool.Brings rid.pageId →
    let pageData := state.pool.frames.shown rid.pageId
    TableHeap.SparesUpdating pageData (getNSlots pageData).toNat tuple
  | _ => True

/-- All pages are those of the heap, and all slot entries are in bounds. -/
structure Alone (state : HeapRun) : Prop extends WellKept state where
  all : ∀ {pageId : Int}, 0 ≤ pageId → state.pool.Issued pageId → pageId ∈ state.pages
  inside : ∀ {pageId : Int}, pageId ∈ state.pages →
    TableHeap.EntriesInside (state.pool.frames.shown pageId)

/-- `GetTuple` stays in bounds just when the entries of the pages that the pool brings are. -/
theorem WellKept.copiesInside_iff (kept : state.WellKept)
    (all : ∀ {pageId : Int}, 0 ≤ pageId → state.pool.Issued pageId → pageId ∈ state.pages) :
    state.CopiesInside ↔ ∀ pageId ∈ state.pages, state.pool.Brings pageId →
      TableHeap.EntriesInside (state.pool.frames.shown pageId) := by
  constructor
  · intro copies pageId member brings slot below
    have nonneg := kept.nonneg member
    obtain ⟨rid, rfl, ridSlot⟩ : ∃ rid : RID, rid.pageId = pageId ∧ rid.slotNum = slot :=
      ⟨{ pageId, slotNum := slot }, rfl, rfl⟩
    have lower : 0 ≤ rid.slotNum := by omega
    have valid : rid.isValid = true := by simp [RID.isValid, nonneg, lower]
    have reads := copies rid {}
    rw [← ridSlot] at below ⊢
    rw [TableHeap.getTuple_brought kept.inOrder valid brings] at reads
    exact (TableHeap.readTuple_inBounds_iff lower below {}).mp reads
  · intro inside rid out
    cases valid : rid.isValid with
    | false => simp [TableHeap.getTuple, valid]
    | true =>
      obtain ⟨page, slot⟩ : 0 ≤ rid.pageId ∧ 0 ≤ rid.slotNum := by
        simpa [RID.isValid] using valid
      by_cases brings : state.pool.Brings rid.pageId
      · rw [TableHeap.getTuple_brought kept.inOrder valid brings]
        by_cases below : rid.slotNum < getNSlots (state.pool.frames.shown rid.pageId)
        · apply (TableHeap.readTuple_inBounds_iff slot below out).mpr
          have issued : state.pool.Issued rid.pageId := by
            by_contra unissued
            rw [TableHeap.getNSlots_unissued kept.inOrder unissued] at below
            omega
          have here := inside _ (all page issued) brings rid.slotNum.toNat
          rw [Int.toNat_of_nonneg slot] at here
          exact here below
        · rw [TableHeap.readTuple_beyond (Int.not_lt.mp below)]
          exact Option.some_ne_none _
      · rw [TableHeap.run_getTuple_refused kept.inOrder.tidy brings]
        exact Option.some_ne_none _

namespace Alone

variable (alone : state.Alone)

include alone

theorem copiesInside : state.CopiesInside :=
  (alone.copiesInside_iff alone.all).mpr fun _ member _ => alone.inside member

/-- No page of the heap is changed. -/
theorem unchanged (kept : after.WellKept) (pages : after.pages = state.pages)
    (next : after.pool.frames.disk.nextPageId = state.pool.frames.disk.nextPageId)
    (same : ∀ pageId ∈ state.pages,
      after.pool.frames.shown pageId = state.pool.frames.shown pageId) : after.Alone := by
  refine ⟨kept, fun nonneg issued => ?_, fun member => ?_⟩
  · rw [pages]
    unfold BufferPool.Issued at issued
    rw [next] at issued
    exact alone.all nonneg issued
  · rw [pages] at member
    rw [same _ member]
    exact alone.inside member

/-- One page is written, which the pool then brings. -/
theorem written {data : Bytes} (kept : after.WellKept)
    (members : ∀ {other : Int}, other ∈ after.pages ↔ other = pageId ∨ other ∈ state.pages)
    (issued : ∀ {other : Int}, after.pool.Issued other → other = pageId ∨ state.pool.Issued other)
    (brings : after.pool.Brings pageId) (shown : after.pool.frames.shown pageId = data)
    (others : ∀ other ∈ state.pages, other ≠ pageId →
      after.pool.frames.shown other = state.pool.frames.shown other) :
    (after.CopiesInside ↔ TableHeap.EntriesInside data) ∧
      (TableHeap.EntriesInside data → after.Alone) := by
  have all : ∀ {other : Int}, 0 ≤ other → after.pool.Issued other → other ∈ after.pages :=
    fun nonneg isIssued => members.mpr ((issued isIssued).imp_right fun before =>
      alone.all nonneg before)
  have inside : TableHeap.EntriesInside data → ∀ {other : Int}, other ∈ after.pages →
      TableHeap.EntriesInside (after.pool.frames.shown other) := by
    intro here other member
    by_cases same : other = pageId
    · rw [same, shown]
      exact here
    · have before := (members.mp member).resolve_left same
      rw [others other before same]
      exact alone.inside before
  refine ⟨⟨fun copies => ?_, fun here => ?_⟩, fun here => ⟨kept, all, inside here⟩⟩
  · rw [← shown]
    exact (kept.copiesInside_iff all).mp copies pageId (members.mpr (.inl rfl)) brings
  · exact (kept.copiesInside_iff all).mpr fun other member _ => inside here member

/-- The page into which an insertion stores its tuple has all its entries inside. -/
theorem storesInto_inside (tuple : Tuple) :
    TableHeap.EntriesInside (TableHeap.storesInto state.heap state.pool tuple) := by
  unfold TableHeap.storesInto
  split
  · exact TableHeap.entriesInside_emptyPage
  · exact alone.inside alone.last

/-- What the condition on an insertion comes to. -/
theorem sparesEntries_iff {tuple : Tuple} (finds : state.FindsFrames tuple) :
    TableHeap.EntriesInside (TableHeap.storeTuple
        (TableHeap.storesInto state.heap state.pool tuple) tuple) ↔
      state.SparesEntries (.insertTuple tuple) := by
  obtain ⟨tuples, consistent, room⟩ := alone.storesInto tuple
  have header := consistent.header
  rw [TableHeap.entriesInside_storeTuple header room (alone.storesInto_inside tuple)]
  simp only [SparesEntries, header.slots, header.free, Int.toNat_natCast, finds, forall_const]

/-- `InsertTuple` stays in bounds just when it spares the entries. -/
theorem insertTuple (tuple : Tuple) :
    ((state.operate (.insertTuple tuple)).CopiesInside ↔ state.SparesEntries (.insertTuple tuple)) ∧
      (state.SparesEntries (.insertTuple tuple) → (state.operate (.insertTuple tuple)).Alone) := by
  have ends := TableHeap.insertTuple_ends alone.inOrder alone.issued tuple
  have kept := alone.toWellKept.insertTuple tuple
  have spares := @sparesEntries_iff _ alone tuple
  have last : state.heap.lastPageId < state.pool.frames.disk.nextPageId := alone.issued
  unfold operate
  unfold HeapRun.step at kept ⊢
  dsimp only at kept ⊢
  -- an insertion that returns false changes no page
  have keeps : ∀ {after : HeapRun}, ¬ state.FindsFrames tuple → after.Alone →
      (after.CopiesInside ↔ state.SparesEntries (.insertTuple tuple)) ∧
        (state.SparesEntries (.insertTuple tuple) → after.Alone) :=
    fun fails aloneAfter => ⟨iff_of_true aloneAfter.copiesInside fun finds => absurd finds fails,
      fun _ => aloneAfter⟩
  generalize run (state.heap.insertTuple tuple) state.pool = outcome at ends kept ⊢
  cases ends with
  | refused refuses unchanged =>
    refine keeps (fun finds => refuses finds.1) (alone.unchanged kept (if_pos rfl) ?_ ?_)
    · rw [unchanged.frames]
    · intro other _
      rw [unchanged.frames]
  | full brings full all revisited same =>
    refine keeps (fun finds => finds.2 full all) (alone.unchanged kept (if_pos rfl) revisited.next_eq ?_)
    intro other _
    rw [same]
  | @stored after brings room revisited =>
    have into : TableHeap.storesInto state.heap state.pool tuple =
        state.pool.frames.shown state.heap.lastPageId := if_neg (Bool.eq_false_iff.mp room)
    have finds : state.FindsFrames tuple := ⟨brings, fun full => by rw [room] at full; cases full⟩
    rw [← spares finds, into]
    rw [if_pos rfl] at kept ⊢
    apply alone.written kept
    · intro other
      refine ⟨.inr, ?_⟩
      rintro (rfl | member)
      · exact alone.last
      · exact member
    · intro other isIssued
      change other < after.frames.disk.nextPageId at isIssued
      rw [revisited.next_eq] at isIssued
      exact .inr isIssued
    · exact .inl revisited.resident
    · exact revisited.data
    · exact fun other member different => (revisited.kept other different
        (alone.issued_page member) (alone.saved member)).2
  | @moved after brings full loads visited =>
    have into : TableHeap.storesInto state.heap state.pool tuple = TableHeap.emptyPage := if_pos full
    have next := visited.next
    rw [← spares ⟨brings, fun _ => loads⟩, into]
    rw [if_neg (Int.ne_of_gt last)] at kept ⊢
    apply alone.written kept
    · exact List.mem_cons
    · intro other isIssued
      change other < after.frames.disk.nextPageId at isIssued
      change other = state.pool.frames.disk.nextPageId ∨ other < state.pool.frames.disk.nextPageId
      omega
    · exact .inl visited.resident
    · exact visited.data
    · exact fun other member different => (visited.kept other different
        (alone.issued_page member) (alone.saved member)).2

/-- `UpdateTuple` stays in bounds just when it spares the entries. -/
theorem updateTuple {rid : RID} (issued : state.pool.Issued rid.pageId) (tuple : Tuple) :
    ((state.operate (.updateTuple tuple rid)).CopiesInside ↔
        state.SparesEntries (.updateTuple tuple rid)) ∧
      (state.SparesEntries (.updateTuple tuple rid) →
        (state.operate (.updateTuple tuple rid)).Alone) := by
  have kept := alone.toWellKept.step (show state.Admits (.operation (.updateTuple tuple rid)) from issued)
  cases valid : rid.isValid with
  | false =>
    have same : state.operate (.updateTuple tuple rid) = state := by
      simp only [HeapRun.operate, HeapRun.step, HeapOperation.perform, TableHeap.updateTuple, valid,
        if_true, run_pure]
    have spares : state.SparesEntries (.updateTuple tuple rid) := by
      intro isValid
      rw [valid] at isValid
      cases isValid
    rw [same]
    exact ⟨iff_of_true alone.copiesInside spares, fun _ => alone⟩
  | true =>
    obtain ⟨page, -⟩ : 0 ≤ rid.pageId ∧ 0 ≤ rid.slotNum := by simpa [RID.isValid] using valid
    have member := alone.all page issued
    rcases (TableHeap.visits_updateTuple alone.inOrder valid issued tuple).1 with
      ⟨refuses, -, unchanged⟩ | ⟨brings, -, revisited⟩
    · have aloneAfter : (state.operate (.updateTuple tuple rid)).Alone := by
        apply alone.unchanged kept rfl
        · exact congrArg (fun frames : Frames IdealDisk => frames.disk.nextPageId) unchanged.frames
        · exact fun other _ =>
            congrArg (fun frames : Frames IdealDisk => frames.shown other) unchanged.frames
      exact ⟨iff_of_true aloneAfter.copiesInside fun _ brings => absurd brings refuses,
        fun _ => aloneAfter⟩
    · have slots := (alone.consistent member).slots
      have spares : TableHeap.EntriesInside
          (TableHeap.overwrite (state.pool.frames.shown rid.pageId) tuple) ↔
            state.SparesEntries (.updateTuple tuple rid) := by
        rw [TableHeap.entriesInside_overwrite slots (alone.inside member)]
        simp only [SparesEntries, slots, Int.toNat_natCast, valid, brings, forall_const]
      rw [← spares]
      apply alone.written kept
      · intro other
        refine ⟨.inr, ?_⟩
        rintro (rfl | before)
        · exact member
        · exact before
      · exact fun isIssued => .inr (lt_of_lt_of_eq isIssued revisited.next_eq)
      · exact .inl revisited.resident
      · exact revisited.data
      · exact fun other before different => (revisited.kept other different
          (alone.issued_page before) (alone.saved before)).2

/-- The other calls write nothing. -/
theorem reads (admits : state.Admits (.operation operation))
    (noInsertion : ∀ tuple, operation ≠ .insertTuple tuple)
    (noUpdate : ∀ tuple rid, operation ≠ .updateTuple tuple rid) : (state.operate operation).Alone := by
  have kept := alone.toWellKept.step admits
  obtain ⟨after, deleted, stepEq, rfl | visits⟩ := step_operation alone.inOrder admits noInsertion
  · unfold HeapRun.operate
    rw [stepEq] at kept ⊢
    exact alone.unchanged kept rfl rfl fun _ _ => rfl
  · unfold HeapRun.operate
    rw [stepEq] at kept ⊢
    apply alone.unchanged kept rfl (visits.inOrder alone.inOrder).2
    intro other member
    rcases (visits.shown (alone.issued_page member) (alone.saved member)).2 with same | ⟨rfl, shown⟩
    · exact same
    · refine shown.trans ?_
      cases operation with
      | updateTuple tuple rid => exact absurd rfl (noUpdate tuple rid)
      | _ => rfl

/-- Every call stays in bounds just when it spares the entries. -/
theorem operate (admits : state.Admits (.operation operation)) :
    ((state.operate operation).CopiesInside ↔ state.SparesEntries operation) ∧
      (state.SparesEntries operation → (state.operate operation).Alone) := by
  cases operation with
  | insertTuple tuple => exact alone.insertTuple tuple
  | updateTuple tuple rid => exact alone.updateTuple admits tuple
  | _ =>
    have aloneAfter := alone.reads admits (fun _ same => by cases same) fun _ _ same => by cases same
    exact ⟨iff_of_true aloneAfter.copiesInside trivial, fun _ => aloneAfter⟩

end Alone

/-! ## A heap that never gets a page -/

/-- The constructor obtained no page, and nor will an insertion: the pool has no frame. -/
structure Starved (state : HeapRun) : Prop where
  inOrder : state.pool.InOrder
  allPinned : state.pool.AllPinned
  empty : ∀ pageId, state.pool.frames.pageTable.lookup pageId = none
  issued : state.pool.Issued state.heap.lastPageId

namespace Starved

variable (starved : state.Starved)

include starved

/-- A starved pool brings no page. -/
theorem refuses (pageId : Int) : ¬ state.pool.Brings pageId := by
  rintro (resident | notAll)
  · exact resident (starved.empty pageId)
  · exact notAll starved.allPinned

theorem copiesInside : state.CopiesInside := by
  intro rid out
  rw [TableHeap.run_getTuple_refused starved.inOrder.tidy (starved.refuses rid.pageId)]
  exact Option.some_ne_none _

/-- No operation writes a page, so every one spares the entries. -/
theorem sparesEntries (operation : HeapOperation) : state.SparesEntries operation := by
  cases operation with
  | insertTuple tuple => exact fun finds => absurd finds.1 (starved.refuses _)
  | updateTuple tuple rid => exact fun _ brings => absurd brings (starved.refuses _)
  | _ => trivial

/-- A pool that is left as it is stays starved. -/
theorem unchanged {after : HeapRun} (unchanged : state.pool.Unchanged after.pool)
    (heap : after.heap = state.heap) : after.Starved := by
  refine ⟨unchanged.inOrder starved.inOrder, unchanged.allPinned_iff.mpr starved.allPinned, ?_, ?_⟩
  · rw [unchanged.frames]
    exact starved.empty
  · unfold BufferPool.Issued
    rw [unchanged.frames, heap]
    exact starved.issued

/-- A starved pool stays so. -/
theorem operate (admits : state.Admits (.operation operation)) :
    (state.operate operation).Starved := by
  by_cases inserts : ∃ tuple, operation = .insertTuple tuple
  · obtain ⟨tuple, rfl⟩ := inserts
    have ends := TableHeap.insertTuple_ends starved.inOrder starved.issued tuple
    have refuses := starved.refuses state.heap.lastPageId
    unfold HeapRun.operate HeapRun.step
    dsimp only
    generalize run (state.heap.insertTuple tuple) state.pool = outcome at ends
    cases ends with
    | refused _ same => exact starved.unchanged same rfl
    | full brings => exact absurd brings refuses
    | stored brings => exact absurd brings refuses
    | moved brings => exact absurd brings refuses
  · unfold HeapRun.operate
    obtain ⟨after, deleted, stepEq, rfl | ⟨-, -, same⟩ | ⟨brings, -⟩⟩ :=
      step_operation starved.inOrder admits (not_exists.mp inserts)
    · rw [stepEq]
      exact starved.unchanged ⟨rfl, rfl, rfl⟩ rfl
    · rw [stepEq]
      exact starved.unchanged same rfl
    · exact absurd brings (starved.refuses _)

end Starved

/-! ## Runs -/

/-- A heap in a pool of its own, over an empty disk. -/
def fresh (poolSize : Nat) : HeapRun :=
  start (.new poolSize (IdealDisk.start 0 fun _ => Bytes.zeros) .noop)

/-- A new heap has its first page, or a pool without frames. -/
theorem fresh_cases (poolSize : Nat) : (fresh poolSize).Alone ∨ (fresh poolSize).Starved := by
  have inOrder := BufferPool.inOrder_new poolSize 0 fun _ => Bytes.zeros
  rcases inOrder.tidy.newPage_cases with ⟨all, none, unchanged⟩ | ⟨-, served, -⟩
  · right
    have starved : Starved { pool := .new poolSize (IdealDisk.start 0 fun _ => Bytes.zeros) .noop
                             heap := {}
                             pages := [-1] } :=
      ⟨inOrder, all, fun _ => rfl, Int.negSucc_lt_zero 0⟩
    unfold fresh start
    simp only [TableHeap.new, run_bind, run_newPage, none, run_pure]
    exact starved.unchanged unchanged rfl
  · left
    obtain ⟨⟨newId, frame⟩, made⟩ := Option.ne_none_iff_exists'.mp served
    have newIs := (Visiting.newPage inOrder made).1
    have obtained : (run TableHeap.new (BufferPool.new poolSize
        (IdealDisk.start 0 fun _ => Bytes.zeros) .noop)).1.firstPageId ≠ -1 := by
      simp only [TableHeap.new, run_bind, run_newPage, made, run_pure]
      rw [newIs]
      exact (by decide : (0 : Int) ≠ -1)
    have kept : (fresh poolSize).WellKept := wellKept_start inOrder (Int.le_refl 0) obtained
    obtain ⟨after, opened, visited, -⟩ := TableHeap.new_visits inOrder obtained
    refine ⟨kept, fun {pageId} nonneg issued => ?_, fun member slot below => ?_⟩
    · have next := visited.next
      unfold fresh start at issued ⊢
      rw [opened] at issued ⊢
      change pageId < after.frames.disk.nextPageId at issued
      rw [next] at issued
      change pageId < 0 + 1 at issued
      obtain rfl : pageId = 0 := by omega
      exact List.mem_singleton.mpr rfl
    · have none : (fresh poolSize).stored = [] := rfl
      rw [(kept.consistent member).slots, none] at below
      exact absurd below (Int.not_lt.mpr (Int.natCast_nonneg slot))

/-- The calls of a heap that has its pool for itself keep `GetTuple` in bounds just when each of
them spares the slot entries. -/
theorem copies_inside_iff (poolSize : Nat) {operations : List HeapOperation}
    (admitted : EachCall operate (fun state operation => state.Admits (.operation operation))
      (fresh poolSize) operations) :
    Throughout operate CopiesInside (fresh poolSize) operations ↔
      EachCall operate SparesEntries (fresh poolSize) operations := by
  apply @EachCall.throughout_iff _ _ _ _ _ (fun state => state.Alone ∨ state.Starved)
  · rintro state operation (alone | starved) _ admits
    · exact (alone.operate admits).1
    · exact iff_of_true (starved.operate admits).copiesInside (starved.sparesEntries operation)
  · rintro state operation (alone | starved) _ admits copies
    · exact .inl ((alone.operate admits).2 ((alone.operate admits).1.mp copies))
    · exact .inr (starved.operate admits)
  · exact fresh_cases poolSize
  · rcases fresh_cases poolSize with alone | starved
    · exact alone.copiesInside
    · exact starved.copiesInside
  · exact admitted

/-- The bytes of a tuple make the entry of its slot, and an update changes the size there. -/
theorem copies_inside_iff_updated :
    (Foundation.run operate (fresh 1) [.insertTuple (TableHeap.intTuple 12),
      .updateTuple (TableHeap.intTuple 2048) { pageId := 0, slotNum := 0 }]).CopiesInside := by
  have admitted : EachCall operate (fun state operation => state.Admits (.operation operation))
      (fresh 1) [.insertTuple (TableHeap.intTuple 12),
        .updateTuple (TableHeap.intTuple 2048) { pageId := 0, slotNum := 0 }] := by
    have issued : (0 : Int) < ((fresh 1).operate
        (.insertTuple (TableHeap.intTuple 12))).pool.frames.disk.nextPageId := by decide +kernel
    exact ⟨trivial, issued, trivial⟩
  refine ((copies_inside_iff 1 admitted).mpr ⟨fun _ => ⟨?_, ?_⟩, fun _ _ => ?_, trivial⟩).last
  · decide +kernel
  · decide +kernel
  · unfold TableHeap.SparesUpdating
    decide +kernel

/-- The four bytes of a negative number make a negative offset. -/
theorem copies_before_page :
    ¬ ∀ (poolSize : Nat) (operations : List HeapOperation),
      EachCall operate (fun state operation => state.Admits (.operation operation))
        (fresh poolSize) operations →
      (Foundation.run operate (fresh poolSize) operations).CopiesInside := by
  intro copies
  refine copies 1 [.insertTuple (TableHeap.intTuple (-5))] ⟨trivial, trivial⟩
    { pageId := 0, slotNum := 0 } {} (Option.isNone_iff_eq_none.mp ?_)
  decide +kernel

end HeapRun

end MiniDB.Storage
