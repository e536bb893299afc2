import MiniDB.Buffer.FittingPool
import MiniDB.Foundation.NextFit
import MiniDB.Storage.HeapPages
import MiniDB.Storage.ServedHeap

/-!
# How a heap packs its tuples

`InsertTuple` looks at the last page only, so filling a heap is next-fit packing. Over the
disk manager, with the latches as they are, a heap can be filled exactly when the packing
has no more pages than the pool has frames, and the RIDs are the places of the packing.
-/

namespace MiniDB.Storage

open Foundation Buffer PoolProgram

namespace TableHeap

/-- A page with these tuples has room for one more. -/
def hasRoom (stored : List Tuple) (tuple : Tuple) : Bool :=
  decide (stored.length < maxSlotsPerPage) &&
    decide (slotHeader + load copySize stored + copySize tuple + slotEntrySize ≤ pageSize)

/-- The pages that next-fit packing makes of the tuples. -/
def packed (tuples : List Tuple) : List (List Tuple) := nextFit hasRoom [] tuples

/-- The RID of a place. -/
def ridAt (first : Int) (place : Nat × Nat) : RID :=
  { pageId := first + place.1, slotNum := place.2 }

variable {pool : BufferPool DiskManager} {heap : TableHeap} {tuple : Tuple} {stored : List Tuple}
  {pageData : Bytes} {first : Int} {number : Nat}

/-- The header of a page that holds these tuples. -/
def HeaderOf (pageData : Bytes) (stored : List Tuple) : Prop :=
  Header pageData stored.length (slotHeader + load copySize stored)

/-- `InsertTuple` finds a page full exactly if the packing has no room there. -/
theorem isFull_eq_not_hasRoom (header : HeaderOf pageData stored) (tuple : Tuple) :
    isFull pageData (copySize tuple) = !hasRoom stored tuple := by
  rw [isFull, header.slots, header.free, hasRoom, Bool.not_and, ← decide_not, ← decide_not]
  congr 1
  · exact decide_eq_decide.mpr (by omega)
  · exact decide_eq_decide.mpr (by omega)

/-- A tuple that is stored is counted. -/
theorem HeaderOf.store (header : HeaderOf pageData stored) (room : hasRoom stored tuple = true) :
    HeaderOf (storeTuple pageData tuple) (stored ++ [tuple]) := by
  have after := header_stored header (by rw [isFull_eq_not_hasRoom header, room]; rfl)
  rwa [HeaderOf, List.length_append, List.length_singleton, load_append, load_cons, load_nil,
    Nat.add_zero, ← Nat.add_assoc]

/-- So is the first one on a page. -/
theorem headerOf_storeEmpty (tuple : Tuple) : HeaderOf (storeTuple emptyPage tuple) [tuple] := by
  have empty : HeaderOf emptyPage [] := header_emptyPage
  have room : hasRoom [] tuple = true := by
    have notFull := isFull_emptyPage tuple
    rw [isFull_eq_not_hasRoom empty] at notFull
    simpa using notFull
  exact empty.store room

/-- The heap fills its last page, which has the number `number`; all its pages are in the
pool. -/
structure Packing (first : Int) (pool : BufferPool DiskManager) (heap : TableHeap) (number : Nat)
    (stored : List Tuple) : Prop where
  settled : pool.frames.Settled
  filled : pool.Filled first
  last : heap.lastPageId = first + number
  next : pool.frames.disk.nextPageId = first + number + 1
  page : ∃ pageData, pool.frames.contents heap.lastPageId = some pageData ∧
    HeaderOf pageData stored

/-- Storing a tuple asks for nothing that does not fit. -/
theorem each_fits_storeAt (first : Int) (frame : Nat) (tuple : Tuple) :
    Client.Each BufferPool.handle (BufferPool.Fits first) (heap.storeAt frame tuple) pool := by
  simp only [storeAt, each_bind]
  exact ⟨⟨trivial, trivial⟩, ⟨trivial, trivial⟩, ⟨trivial, trivial⟩, ⟨trivial, trivial⟩, trivial⟩

/-- What an insertion asks for fits, if there is a frame for a new page where it takes one. -/
theorem each_fits_insertTuple (settled : pool.frames.Settled) (filled : pool.Filled first)
    (last : pool.frames.contents heap.lastPageId = some pageData)
    (room : isFull pageData (copySize tuple) = true →
      pool.frames.disk.nextPageId - first < pool.poolSize) :
    Client.Each BufferPool.handle (BufferPool.Fits first) (heap.insertTuple tuple) pool := by
  obtain ⟨frame, hit, holds, held⟩ := BufferPool.holds_fetchPage settled last
  have issued : BufferPool.Fits first (.fetchPage heap.lastPageId) pool := by
    obtain ⟨lastFrame, page, found, -⟩ := settled.agrees.of_contents last
    exact filled.keys found
  simp only [insertTuple, insertInto, each_bind, each_fetchPage, run_fetchPage, hit, each_getData,
    run_getData, held]
  refine ⟨issued, trivial, ?_⟩
  cases full : isFull pageData (copySize tuple) with
  | false =>
    simp only [Bool.false_eq_true, if_false]
    exact each_fits_storeAt first frame tuple
  | true =>
    have released := BufferPool.serves_unpinPage holds.serves.settled heap.lastPageId false
    have sameNext := released.next.trans holds.serves.next
    have sameSize := (BufferPool.poolSize_unpinPage (pool.fetchPage heap.lastPageId).2
      heap.lastPageId false).trans (BufferPool.poolSize_fetchPage pool heap.lastPageId)
    simp only [if_true, each_bind, each_unpinPage, run_unpinPage, each_newPage, run_newPage]
    refine ⟨trivial, ?_, ?_⟩
    · have free := room full
      rw [← sameNext, ← sameSize] at free
      exact free
    · split
      · trivial
      · simp only [each_bind]
        exact ⟨⟨trivial, trivial⟩, each_fits_storeAt first _ tuple⟩

namespace Packing

/-- The constructor takes the first page. -/
theorem new (settled : pool.frames.Settled) (filled : pool.Filled first)
    (isFirst : pool.frames.disk.nextPageId = first) (free : pool.findFree ≠ none) :
    Client.Each BufferPool.handle BufferPool.FindsFrame TableHeap.new pool ∧
      ∃ after, run TableHeap.new pool = ({ firstPageId := first, lastPageId := first }, after) ∧
        Packing first after { firstPageId := first, lastPageId := first } 0 [] ∧
        after.poolSize = pool.poolSize := by
  obtain ⟨after, outcome, becomes⟩ := run_new settled free
  have fits : Client.Each BufferPool.handle (BufferPool.Fits first) TableHeap.new pool := by
    simp only [TableHeap.new, each_bind, each_newPage, run_newPage]
    refine ⟨filled.room_of_findFree free, ?_⟩
    split
    · trivial
    · simp only [each_bind]
      exact ⟨⟨trivial, trivial⟩, ⟨trivial, trivial⟩, ⟨trivial, trivial⟩, trivial⟩
  obtain ⟨filledAfter, sameSize⟩ := filled.run fits
  rw [outcome] at filledAfter sameSize
  rw [isFirst] at outcome becomes
  refine ⟨filled.each_findsFrame fits, after, outcome,
    ⟨becomes.settled, filledAfter, (Int.add_zero first).symm, ?_, ?_⟩, sameSize⟩
  · rw [becomes.next, isFirst]
    omega
  · rw [becomes.contents, Function.update_self]
    exact ⟨_, rfl, header_initPage Bytes.zeros⟩

/-- An insertion that found its frames, with the RID of a place. -/
structure Inserts (first : Int) (pool : BufferPool DiskManager) (heap : TableHeap) (tuple : Tuple)
    (place : Nat × Nat) (grown : TableHeap) (after : BufferPool DiskManager) : Prop where
  finds : Client.Each BufferPool.handle BufferPool.FindsFrame (heap.insertTuple tuple) pool
  outcome : run (heap.insertTuple tuple) pool = ((some (ridAt first place), grown), after)
  sameFirst : grown.firstPageId = heap.firstPageId
  sameSize : after.poolSize = pool.poolSize

/-- The tuple goes on the last page. -/
theorem insert_room (packing : Packing first pool heap number stored)
    (room : hasRoom stored tuple = true) :
    ∃ after, Inserts first pool heap tuple (number, stored.length) heap after ∧
      Packing first after heap number (stored ++ [tuple]) := by
  obtain ⟨pageData, last, header⟩ := packing.page
  have notFull : isFull pageData (copySize tuple) = false := by
    rw [isFull_eq_not_hasRoom header, room]
    rfl
  obtain ⟨after, outcome, becomes⟩ := run_insertTuple_room packing.settled last notFull
  have fits : Client.Each BufferPool.handle (BufferPool.Fits first) (heap.insertTuple tuple) pool :=
    each_fits_insertTuple packing.settled packing.filled last fun full => by
      cases notFull.symm.trans full
  obtain ⟨filled, sameSize⟩ := packing.filled.run fits
  rw [outcome] at filled sameSize
  rw [header.slots, packing.last] at outcome
  refine ⟨after, ⟨packing.filled.each_findsFrame fits, outcome, rfl, sameSize⟩,
    ⟨becomes.settled, filled, packing.last, ?_, ?_⟩⟩
  · rw [becomes.next, packing.next]
    omega
  · rw [becomes.contents, Function.update_self]
    exact ⟨_, rfl, header.store room⟩

/-- The tuple opens the next page. -/
theorem insert_full (packing : Packing first pool heap number stored)
    (full : hasRoom stored tuple = false) (free : number + 1 < pool.poolSize) :
    ∃ after, Inserts first pool heap tuple (number + 1, 0)
        { heap with lastPageId := first + (number + 1 : Nat) } after ∧
      Packing first after { heap with lastPageId := first + (number + 1 : Nat) } (number + 1)
        [tuple] := by
  obtain ⟨pageData, last, header⟩ := packing.page
  have isFull : isFull pageData (copySize tuple) = true := by
    rw [isFull_eq_not_hasRoom header, full]
    rfl
  have room : pool.frames.disk.nextPageId - first < pool.poolSize := by
    rw [packing.next]
    omega
  have found := packing.filled.findFree room
  obtain ⟨after, outcome, becomes⟩ := run_insertTuple_full packing.settled last isFull
    (fun none => by cases none.symm.trans found)
  have fits : Client.Each BufferPool.handle (BufferPool.Fits first) (heap.insertTuple tuple) pool :=
    each_fits_insertTuple packing.settled packing.filled last fun _ => room
  obtain ⟨filled, sameSize⟩ := packing.filled.run fits
  have isNext : pool.frames.disk.nextPageId = first + (number + 1 : Nat) := by
    rw [packing.next]
    omega
  rw [outcome] at filled sameSize
  rw [isNext] at outcome becomes
  refine ⟨after, ⟨packing.filled.each_findsFrame fits, outcome, rfl, sameSize⟩,
    ⟨becomes.settled, filled, rfl, ?_, ?_⟩⟩
  · rw [becomes.next, isNext]
    omega
  · rw [becomes.contents, Function.update_self]
    exact ⟨_, rfl, headerOf_storeEmpty tuple⟩

/-- An insertion that opens a page found a frame for it. -/
theorem free_of_finds (packing : Packing first pool heap number stored)
    (full : hasRoom stored tuple = false)
    (finds : Client.Each BufferPool.handle BufferPool.FindsFrame (heap.insertTuple tuple) pool) :
    number + 1 < pool.poolSize := by
  obtain ⟨pageData, last, header⟩ := packing.page
  have isFull : isFull pageData (copySize tuple) = true := by
    rw [isFull_eq_not_hasRoom header, full]
    rfl
  have room := packing.filled.room_of_findFree (findFree_of_each packing.settled last isFull finds)
  have next : nextPageId pool.frames.disk = first + number + 1 := packing.next
  omega

end Packing

/-! ## Filling a heap -/

/-- What is asked for finds its frames exactly when there is one for each page, and then the
tuples are at the places. -/
structure Fills (first : Int) (pool : BufferPool DiskManager) (heap : TableHeap)
    (tuples : List Tuple) (pages : Nat) (places : List (Nat × Nat)) : Prop where
  finds : Client.Each BufferPool.handle BufferPool.FindsFrame (fill tuples heap) pool ↔
    pages ≤ pool.poolSize
  outcome : pages ≤ pool.poolSize → (run (fill tuples heap) pool).1 =
    (some (places.map (ridAt first)), { heap with lastPageId := first + (pages - 1 : Nat) })

theorem Packing.fills_nil (packing : Packing first pool heap number stored)
    (inside : number < pool.poolSize) : Fills first pool heap [] (number + 1) [] where
  finds := iff_of_true trivial inside
  outcome _ := by rw [Nat.add_sub_cancel, ← packing.last]; rfl

theorem Packing.Inserts.fills {place : Nat × Nat} {grown : TableHeap}
    {after : BufferPool DiskManager} (inserts : Inserts first pool heap tuple place grown after)
    {tuples : List Tuple} {pages : Nat} {places : List (Nat × Nat)}
    (fills : Fills first after grown tuples pages places) :
    Fills first pool heap (tuple :: tuples) pages (place :: places) := by
  have sameSize := inserts.sameSize
  refine ⟨?_, fun enough => ?_⟩
  · rw [← sameSize, ← fills.finds]
    simp only [fill, each_bind, inserts.outcome]
    refine ⟨fun finds => finds.2.1, fun finds => ⟨inserts.finds, finds, ?_⟩⟩
    split <;> trivial
  · have rest := fills.outcome (sameSize.symm ▸ enough)
    simp only [fill, run_bind, inserts.outcome, rest, run_pure, inserts.sameFirst, List.map_cons]

/-- Filling a heap is next-fit packing. -/
theorem Packing.fills (packing : Packing first pool heap number stored)
    (inside : number < pool.poolSize) (tuples : List Tuple) :
    Fills first pool heap tuples (number + (nextFit hasRoom stored tuples).length)
      (placed hasRoom number stored tuples) := by
  induction tuples generalizing pool heap number stored with
  | nil => exact packing.fills_nil inside
  | cons tuple tuples ih =>
    rw [nextFit, placed]
    cases room : hasRoom stored tuple with
    | true =>
      obtain ⟨after, inserts, later⟩ := packing.insert_room room
      exact inserts.fills (ih later (inserts.sameSize ▸ inside))
    | false =>
      simp only [Bool.false_eq_true, if_false, List.length_cons]
      have more := @length_nextFit_pos _ hasRoom [tuple] tuples
      by_cases free : number + 1 < pool.poolSize
      · obtain ⟨after, inserts, later⟩ := packing.insert_full room free
        have rest := inserts.fills (ih later (inserts.sameSize ▸ free))
        rwa [Nat.add_right_comm, Nat.add_assoc] at rest
      · refine ⟨iff_of_false (fun finds => ?_) (by omega), fun enough => absurd enough (by omega)⟩
        simp only [fill, each_bind] at finds
        exact free (packing.free_of_finds room finds.1)

/-- A new pool has a null frame unless it has no frame. -/
theorem findFree_new_iff (poolSize : Nat) (disk : DiskManager) :
    (BufferPool.new poolSize disk).findFree ≠ none ↔ 0 < poolSize := by
  simp only [BufferPool.findFree, BufferPool.new, ne_eq, List.find?_eq_none, List.mem_range,
    Option.isNone_none, not_true_eq_false, imp_false, not_forall, not_not]
  constructor
  · rintro ⟨frame, inside⟩
    exact Nat.zero_lt_of_lt inside
  · exact fun some_ => ⟨0, some_⟩

/-- A heap is built and filled without waiting for a latch that the thread holds exactly
when the pool has a frame for each page of the packing, and then the RIDs are the places of
the packing, from the first new page on. -/
theorem build_packs (poolSize : Nat) (file : Option File)
    (nonneg : 0 ≤ (DiskManager.new file).nextPageId) (tuples : List Tuple) :
    let outcome := run (build tuples) (BufferPool.new poolSize (DiskManager.new file))
    let first := (DiskManager.new file).nextPageId
    (¬ IsStuck outcome.2.mutexes ↔ (packed tuples).length ≤ poolSize) ∧
      ((packed tuples).length ≤ poolSize → outcome.1 =
        (some ((places 0 (packed tuples)).map (ridAt first)),
          { firstPageId := first, lastPageId := first + ((packed tuples).length - 1 : Nat) })) := by
  intro outcome first
  rw [BufferPool.not_isStuck_run_iff (build tuples) (BufferPool.atRest_new poolSize file)]
  by_cases some_ : 0 < poolSize
  · have free := (findFree_new_iff poolSize (DiskManager.new file)).mpr some_
    obtain ⟨finds, after, opened, packing, sameSize⟩ :=
      Packing.new (Frames.settled_empty (DiskManager.new file) nonneg)
        (BufferPool.filled_new poolSize (DiskManager.new file) .unlocked) rfl free
    have fills := packing.fills (sameSize ▸ some_) tuples
    have isPlaced : placed hasRoom 0 [] tuples = places 0 (packed tuples) :=
      (places_nextFit 0 [] tuples).symm
    rw [isPlaced, Nat.zero_add] at fills
    refine ⟨?_, fun enough => ?_⟩
    · simp only [build, each_bind, opened]
      rw [fills.finds, sameSize]
      exact and_iff_right finds
    · have filled := fills.outcome (sameSize.symm ▸ enough)
      simp only [outcome, build, run_bind, opened, filled]
      rfl
  · have more : 0 < (packed tuples).length := length_nextFit_pos [] tuples
    refine ⟨iff_of_false (fun finds => ?_) (by omega), fun enough => absurd enough (by omega)⟩
    simp only [build, each_bind] at finds
    exact some_ ((findFree_new_iff poolSize (DiskManager.new file)).mp (findFree_of_new finds.1))

/-- Three rows of which two go on a page. -/
theorem build_packs_three :
    let rows : List Tuple := [{ size := 2000 }, { size := 2000 }, { size := 2000 }]
    let outcome := run (build rows) (BufferPool.new 2 (DiskManager.new none))
    ¬ IsStuck outcome.2.mutexes ∧
      outcome.1 = (some [{ pageId := 0, slotNum := 0 }, { pageId := 0, slotNum := 1 },
        { pageId := 1, slotNum := 0 }], { firstPageId := 0, lastPageId := 1 }) := by
  intro rows outcome
  obtain ⟨stuck, packs⟩ := build_packs 2 none (by decide) rows
  have two : (packed rows).length ≤ 2 := by decide
  exact ⟨stuck.mpr two, (packs two).trans (by decide)⟩

/-! ## How many pages a heap takes -/

/-- Tuples that `InsertTuple` can put on one page, by their number and their bytes. -/
def FitOnPage (stored : List Tuple) : Prop :=
  stored.length ≤ maxSlotsPerPage ∧ slotHeader + load copySize stored + slotEntrySize ≤ pageSize

instance (stored : List Tuple) : Decidable (FitOnPage stored) :=
  inferInstanceAs (Decidable (_ ∧ _))

/-- The packing has at most three times the pages of any arrangement of the tuples. -/
theorem length_packed_le {tuples : List Tuple} (nonempty : tuples ≠ [])
    {arranged : List (List Tuple)} (perm : arranged.flatten.Perm tuples)
    (fit : ∀ page ∈ arranged, FitOnPage page) : (packed tuples).length ≤ 3 * arranged.length := by
  -- a page is closed by 102 tuples or by 4077 bytes, in units of a part of both
  have bound := @length_nextFit_le_arranged Tuple hasRoom (fun _ => 4077)
    (fun tuple => 102 * copySize tuple) (102 * 4077) (102 * 4077) (102 * 4076) tuples arranged
    (fun stored tuple full => ?_) perm (fun page member => ?_)
  · have some_ : 0 < arranged.length := by
      rw [List.length_pos_iff]
      rintro rfl
      exact nonempty (List.nil_perm.mp perm)
    change (packed tuples).length * _ ≤ _ at bound
    omega
  · rw [load_const, load_scale]
    rw [hasRoom, Bool.and_eq_false_iff] at full
    rcases full with many | large
    · have notFew := of_decide_eq_false many
      simp only [maxSlotsPerPage, pageSize, slotHeader, slotEntrySize] at notFew
      omega
    · have notSmall := of_decide_eq_false large
      simp only [pageSize, slotHeader, slotEntrySize] at notSmall
      omega
  · obtain ⟨few, small⟩ := fit page member
    simp only [maxSlotsPerPage, pageSize, slotHeader, slotEntrySize] at few small
    rw [load_const, load_scale]
    omega

/-- A pool with three times the frames that the tuples need in any arrangement takes the
heap: every tuple gets a RID, on as many pages at most. -/
theorem build_of_arranged (poolSize : Nat) (file : Option File)
    (nonneg : 0 ≤ (DiskManager.new file).nextPageId) {tuples : List Tuple} (nonempty : tuples ≠ [])
    {arranged : List (List Tuple)} (perm : arranged.flatten.Perm tuples)
    (fit : ∀ page ∈ arranged, FitOnPage page) (enough : 3 * arranged.length ≤ poolSize) :
    let outcome := run (build tuples) (BufferPool.new poolSize (DiskManager.new file))
    ¬ IsStuck outcome.2.mutexes ∧
      ∃ rids heap, outcome.1 = (some rids, heap) ∧ rids.length = tuples.length ∧
        heap.lastPageId - heap.firstPageId < 3 * arranged.length := by
  intro outcome
  obtain ⟨stuck, packs⟩ := build_packs poolSize file nonneg tuples
  have few := length_packed_le nonempty perm fit
  have inside := Nat.le_trans few enough
  have some_ : 0 < (packed tuples).length := length_nextFit_pos [] tuples
  have isPlaced : places 0 (packed tuples) = placed hasRoom 0 [] tuples := places_nextFit 0 [] tuples
  refine ⟨stuck.mpr inside, _, _, packs inside, ?_, ?_⟩
  · rw [List.length_map, isPlaced, length_placed]
  · dsimp only
    omega

/-- Two rows that need one page, in a pool of three frames. -/
theorem build_of_arranged_two :
    let rows : List Tuple := [{ size := 2000 }, { size := 2000 }]
    let outcome := run (build rows) (BufferPool.new 3 (DiskManager.new none))
    ¬ IsStuck outcome.2.mutexes ∧
      ∃ rids heap, outcome.1 = (some rids, heap) ∧ rids.length = 2 ∧
        heap.lastPageId - heap.firstPageId < 3 :=
  @build_of_arranged 3 none (by decide) [{ size := 2000 }, { size := 2000 }] (by simp)
    [[{ size := 2000 }, { size := 2000 }]] (.refl _) (by decide) (by decide)

end TableHeap

end MiniDB.Storage
