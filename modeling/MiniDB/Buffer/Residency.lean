import MiniDB.Buffer.PoolSteps
import MiniDB.Foundation.Run

/-!
# The page table and the frames agree

`NewPage` takes its id from the disk manager without asking whether the page is
already resident, and `FetchPage` makes any id resident. The agreement of table
and frames is lost exactly when `NewPage` takes a frame while the id it is about
to be given is resident in another one.
-/

namespace MiniDB.Buffer

open Foundation Storage

variable {D : Type}

/-- The calls on a buffer pool. -/
inductive PoolCall where
  | fetchPage (pageId : Int)
  | newPage
  | unpinPage (pageId : Int) (isDirty : Bool)
  | flushPage (pageId : Int)
  | flushAllPages
  | deletePage (pageId : Int)

/-- One call. -/
def BufferPool.step [Disk D] (pool : BufferPool D) : PoolCall → BufferPool D
  | .fetchPage pageId => (pool.fetchPage pageId).2
  | .newPage => pool.newPage.2
  | .unpinPage pageId isDirty => (pool.unpinPage pageId isDirty).2
  | .flushPage pageId => (pool.flushPage pageId).2
  | .flushAllPages => pool.flushAllPages
  | .deletePage pageId => (pool.deletePage pageId).2

namespace Frames

/-- Table and frames agree: the table is injective and leads to the page it
names, and every page in a frame is found through the table. -/
structure Agrees (frames : Frames D) : Prop where
  injective : ∀ {first second : Int} {frame : Nat}, frames.pageTable.lookup first = some frame →
    frames.pageTable.lookup second = some frame → first = second
  mapped : ∀ {pageId : Int} {frame : Nat}, frames.pageTable.lookup pageId = some frame →
    ∃ page, frames.pages frame = some page ∧ page.pageId = pageId
  resident : ∀ {frame : Nat} {page : Page}, frames.pages frame = some page →
    frames.pageTable.lookup page.pageId = some frame

/-- Table and frames agree but for one frame, to which nothing leads. -/
structure Vacant (frames : Frames D) (vacant : Nat) : Prop where
  mapped : ∀ {pageId : Int} {frame : Nat}, frames.pageTable.lookup pageId = some frame →
    frame ≠ vacant ∧ ∃ page, frames.pages frame = some page ∧ page.pageId = pageId
  resident : ∀ {frame : Nat} {page : Page}, frame ≠ vacant → frames.pages frame = some page →
    frames.pageTable.lookup page.pageId = some frame

theorem agrees_empty (disk : D) : ({ disk } : Frames D).Agrees := by
  refine ⟨?_, ?_, ?_⟩
  · intro first second frame found
    simp at found
  · intro pageId frame found
    simp at found
  · intro frame page held
    cases held

/-- The table determines the page in a frame. -/
theorem Agrees.pageId_eq {frames : Frames D} (agrees : frames.Agrees) {pageId : Int} {frame : Nat}
    {page : Page} (found : frames.pageTable.lookup pageId = some frame)
    (held : frames.pages frame = some page) : page.pageId = pageId := by
  obtain ⟨other, heldOther, same⟩ := agrees.mapped found
  rw [held] at heldOther
  rw [Option.some.inj heldOther, same]

/-- A page is in one frame only. -/
theorem Agrees.frame_eq {frames : Frames D} (agrees : frames.Agrees) {frame other : Nat}
    {page present : Page} (held : frames.pages frame = some page)
    (heldOther : frames.pages other = some present) (sameId : present.pageId = page.pageId) :
    other = frame := by
  have found := agrees.resident heldOther
  rw [sameId, agrees.resident held] at found
  exact (Option.some.inj found).symm

/-- A page that changes in its frame but keeps its id. -/
theorem Agrees.setFrame {frames : Frames D} (agrees : frames.Agrees) {frame : Nat}
    {page changed : Page} (held : frames.pages frame = some page)
    (sameId : changed.pageId = page.pageId) : (frames.setFrame frame (some changed)).Agrees := by
  refine ⟨agrees.injective, ?_, ?_⟩
  · intro pageId other found
    obtain ⟨present, heldPresent, same⟩ := agrees.mapped found
    by_cases here : other = frame
    · subst here
      rw [held] at heldPresent
      obtain rfl := Option.some.inj heldPresent
      exact ⟨changed, by simp [Frames.setFrame], sameId.trans same⟩
    · exact ⟨present, by simpa [Frames.setFrame, here] using heldPresent, same⟩
  · intro other present heldPresent
    rcases update_cases heldPresent with ⟨rfl, here⟩ | ⟨-, before⟩
    · obtain rfl := Option.some.inj here
      rw [sameId]
      exact agrees.resident held
    · exact agrees.resident before

/-- Taking a page out of the table leaves its frame vacant. -/
theorem Agrees.vacant_erase {frames : Frames D} (agrees : frames.Agrees) {frame : Nat} {page : Page}
    (held : frames.pages frame = some page) :
    ({ frames with pageTable := frames.pageTable.erase page.pageId }).Vacant frame := by
  refine ⟨?_, ?_⟩
  · intro pageId other found
    obtain ⟨different, foundBefore⟩ := UnorderedMap.lookup_of_erase found
    refine ⟨?_, agrees.mapped foundBefore⟩
    rintro rfl
    exact different (agrees.injective foundBefore (agrees.resident held))
  · intro other present elsewhere heldPresent
    have different : present.pageId ≠ page.pageId := fun same =>
      elsewhere (agrees.frame_eq held heldPresent same)
    exact (AList.lookup_erase_ne different).trans (agrees.resident heldPresent)

/-- A frame without a page is vacant. -/
theorem Agrees.vacant_empty {frames : Frames D} (agrees : frames.Agrees) {frame : Nat}
    (empty : frames.pages frame = none) : frames.Vacant frame := by
  refine ⟨?_, fun _ held => agrees.resident held⟩
  intro pageId other found
  obtain ⟨page, held, same⟩ := agrees.mapped found
  refine ⟨?_, page, held, same⟩
  rintro rfl
  rw [empty] at held
  cases held

theorem Vacant.with_disk {frames : Frames D} {vacant : Nat} (isVacant : frames.Vacant vacant)
    (disk : D) : ({ frames with disk } : Frames D).Vacant vacant :=
  ⟨isVacant.mapped, isVacant.resident⟩

/-- A page put in a vacant frame makes table and frames agree exactly when it was
not resident already. -/
theorem Vacant.agrees_place_iff {frames : Frames D} {vacant : Nat} (isVacant : frames.Vacant vacant)
    (page : Page) :
    (frames.place vacant page).Agrees ↔ frames.pageTable.lookup page.pageId = none := by
  constructor
  · intro agrees
    -- the other copy would be found through the table, which now leads here
    by_contra resident
    obtain ⟨frame, found⟩ := Option.ne_none_iff_exists'.mp resident
    obtain ⟨elsewhere, other, held, same⟩ := isVacant.mapped found
    have again : (frames.place vacant page).pageTable.lookup other.pageId = some frame :=
      agrees.resident (by simpa [place, Frames.setFrame, elsewhere] using held)
    rw [same] at again
    exact elsewhere (by simpa [place, Frames.setFrame, eq_comm] using again)
  · intro absent
    have mapped : ∀ {pageId : Int} {frame : Nat},
        (frames.place vacant page).pageTable.lookup pageId = some frame →
          ∃ held, (frames.place vacant page).pages frame = some held ∧ held.pageId = pageId := by
      intro pageId frame found
      by_cases here : pageId = page.pageId
      · subst here
        obtain rfl : vacant = frame := by simpa [place, Frames.setFrame] using found
        exact ⟨page, by simp [place, Frames.setFrame], rfl⟩
      · have before : frames.pageTable.lookup pageId = some frame := by
          simpa [place, Frames.setFrame, AList.lookup_insert_ne here] using found
        obtain ⟨elsewhere, other, held, same⟩ := isVacant.mapped before
        exact ⟨other, by simpa [place, Frames.setFrame, elsewhere] using held, same⟩
    refine ⟨?_, mapped, ?_⟩
    · intro first second frame foundFirst foundSecond
      obtain ⟨held, heldFirst, sameFirst⟩ := mapped foundFirst
      obtain ⟨other, heldSecond, sameSecond⟩ := mapped foundSecond
      rw [heldFirst] at heldSecond
      rw [← sameFirst, ← sameSecond, Option.some.inj heldSecond]
    · intro frame held here
      rcases update_cases here with ⟨rfl, placed⟩ | ⟨elsewhere, before⟩
      · obtain rfl := Option.some.inj placed
        simp [place, Frames.setFrame]
      · have found := isVacant.resident elsewhere before
        have different : held.pageId ≠ page.pageId := by
          intro same
          rw [same, absent] at found
          cases found
        simpa [place, Frames.setFrame, AList.lookup_insert_ne different] using found

/-- A vacant frame that is made null. -/
theorem Vacant.agrees_clear {frames : Frames D} {vacant : Nat} (isVacant : frames.Vacant vacant) :
    (frames.setFrame vacant none).Agrees := by
  refine ⟨?_, ?_, ?_⟩
  · intro first second frame foundFirst foundSecond
    obtain ⟨-, held, heldFirst, sameFirst⟩ := isVacant.mapped foundFirst
    obtain ⟨-, other, heldSecond, sameSecond⟩ := isVacant.mapped foundSecond
    rw [heldFirst] at heldSecond
    rw [← sameFirst, ← sameSecond, Option.some.inj heldSecond]
  · intro pageId frame found
    obtain ⟨elsewhere, page, held, same⟩ := isVacant.mapped found
    exact ⟨page, by simpa [Frames.setFrame, elsewhere] using held, same⟩
  · intro frame page held
    rcases update_cases held with ⟨-, here⟩ | ⟨elsewhere, before⟩
    · cases here
    · exact isVacant.resident elsewhere before

variable [Disk D]

/-- Writing back changes the disk only. -/
theorem writeBack_eq (frames : Frames D) (pageId : Int) (page : Page) :
    frames.writeBack pageId page =
      { frames with disk := (frames.writeBack pageId page).disk } := by
  unfold writeBack
  split <;> rfl

/-- An obtained frame is vacant. -/
theorem Agrees.vacant_obtained {frames obtained : Frames D} (agrees : frames.Agrees) {frame : Nat}
    (obtains : frames.Obtains (some frame) obtained) : obtained.Vacant frame := by
  cases obtains with
  | free empty => exact agrees.vacant_empty empty
  | @evicted _ page held unpinned =>
    unfold evict
    rw [writeBack_eq]
    exact (agrees.vacant_erase held).with_disk _

/-- A page that was absent is absent when the frame is obtained. -/
theorem Obtains.lookup_none {frames obtained : Frames D} {frame : Option Nat}
    (obtains : frames.Obtains frame obtained) {pageId : Int}
    (absent : frames.pageTable.lookup pageId = none) :
    obtained.pageTable.lookup pageId = none := by
  cases obtains with
  | refused => exact absent
  | free empty => exact absent
  | @evicted _ page held unpinned =>
    unfold evict
    rw [writeBack_eq]
    by_cases same : pageId = page.pageId
    · subst same
      simp
    · dsimp only
      rw [AList.lookup_erase_ne same]
      exact absent

theorem Fetches.agrees {frames after : Frames D} {pageId : Int} {result : Option Nat}
    (fetches : frames.Fetches pageId result after) (agrees : frames.Agrees) : after.Agrees := by
  cases fetches with
  | @hit frame resident =>
    obtain ⟨page, held, -⟩ := agrees.mapped resident
    rw [modifyPage, held]
    exact agrees.setFrame held rfl
  | refused => exact agrees
  | @loaded frame obtained absent obtains =>
    have vacant := agrees.vacant_obtained obtains
    refine ((vacant.with_disk _).agrees_place_iff _).mpr ?_
    exact obtains.lookup_none absent

omit [Disk D] in
theorem Unpins.agrees {frames after : Frames D} {pageId : Int} {isDirty result : Bool}
    (unpins : frames.Unpins pageId isDirty result after) (agrees : frames.Agrees) :
    after.Agrees := by
  cases unpins with
  | refused unpinned => exact agrees
  | released resident held pinned =>
    refine agrees.setFrame held ?_
    unfold BufferPool.released
    split <;> rfl

theorem Flushes.agrees {frames after : Frames D} {pageId : Int}
    (flushes : frames.Flushes pageId after) (agrees : frames.Agrees) : after.Agrees := by
  cases flushes with
  | unchanged => exact agrees
  | @written frame page resident held dirty =>
    rw [writeBack_eq]
    have kept := agrees.setFrame held (rfl : (page.setDirty false).pageId = page.pageId)
    exact ⟨kept.injective, kept.mapped, kept.resident⟩

theorem Deletes.agrees {frames after : Frames D} {pageId : Int} {result : Bool}
    (deletes : frames.Deletes pageId result after) (agrees : frames.Agrees) : after.Agrees := by
  cases deletes with
  | refused => exact agrees
  | @deleted frame page resident held unpinned =>
    have vacant := agrees.vacant_erase held
    rw [agrees.pageId_eq resident held] at vacant
    unfold dropPage
    rw [writeBack_eq]
    exact (vacant.with_disk _).agrees_clear

end Frames

/-! ## Runs of the pool -/

namespace BufferPool

/-- The latch makes no difference to the frame that is obtained. -/
theorem obtainFrame_latch [Disk D] (pool : BufferPool D) (latch : Mutex) :
    ({ pool with latch }).obtainFrame.1 = pool.obtainFrame.1 := by
  unfold obtainFrame
  have same : ({ pool with latch } : BufferPool D).findFree = pool.findFree := rfl
  rw [same]
  cases pool.findFree with
  | some frame => rfl
  | none =>
    dsimp only
    cases pool.replacer.victim.1 with
    | none => rfl
    | some frame =>
      dsimp only
      cases pool.frames.pages frame with
      | none => rfl
      | some page =>
        dsimp only
        split <;> rfl

/-- `NewPage` returns the frame that it obtained. -/
theorem newPage_frame [Disk D] (pool : BufferPool D) :
    pool.newPage.1.map Prod.snd = pool.obtainFrame.1 := by
  rw [← obtainFrame_latch pool pool.latch.lock]
  unfold newPage lockGuard
  dsimp only [Guarded.setMutex, Guarded.mutex]
  rcases ({ pool with latch := pool.latch.lock } : BufferPool D).obtainFrame with
    ⟨frame, obtained⟩
  cases frame <;> rfl

/-- The condition on a call: when `NewPage` gets a frame, the id that
`AllocPage` hands out next is not resident in another frame. -/
def FreshId (pool : BufferPool DiskManager) : PoolCall → Prop
  | .newPage =>
    ∀ frame holder, pool.obtainFrame.1 = some frame →
      pool.frames.pageTable.lookup pool.frames.disk.nextPageId = some holder → holder = frame
  | _ => True

/-- Writing back hands out no id. -/
theorem nextPageId_writeBack (frames : Frames DiskManager) (pageId : Int) (page : Page) :
    (frames.writeBack pageId page).disk.nextPageId = frames.disk.nextPageId := by
  unfold Frames.writeBack
  split <;> rfl

/-- The id is absent once the frame is obtained exactly when no other frame holds it. -/
theorem absent_iff {frames obtained : Frames DiskManager} {frame : Nat} (agrees : frames.Agrees)
    (obtains : frames.Obtains (some frame) obtained) :
    obtained.pageTable.lookup obtained.disk.nextPageId = none ↔
      ∀ holder, frames.pageTable.lookup frames.disk.nextPageId = some holder → holder = frame := by
  cases obtains with
  | free empty =>
    constructor
    · intro absent holder found
      rw [absent] at found
      cases found
    · intro only
      by_contra resident
      obtain ⟨holder, found⟩ := Option.ne_none_iff_exists'.mp resident
      obtain ⟨page, held, -⟩ := agrees.mapped found
      rw [only holder found, empty] at held
      cases held
  | @evicted _ page held unpinned =>
    unfold Frames.evict
    dsimp only
    rw [nextPageId_writeBack, Frames.writeBack_eq]
    dsimp only
    by_cases same : frames.disk.nextPageId = page.pageId
    · rw [same, agrees.resident held]
      simp [eq_comm]
    · rw [AList.lookup_erase_ne same]
      constructor
      · intro absent holder found
        rw [absent] at found
        cases found
      · intro only
        by_contra resident
        obtain ⟨holder, found⟩ := Option.ne_none_iff_exists'.mp resident
        rw [only holder found] at found
        exact same (agrees.pageId_eq found held).symm

theorem agrees_newPage_iff (pool : BufferPool DiskManager) (agrees : pool.frames.Agrees) :
    pool.newPage.2.frames.Agrees ↔ pool.FreshId .newPage := by
  have frame := pool.newPage_frame
  have creates := pool.newPage_creates
  simp only [FreshId, ← frame]
  generalize pool.newPage.1 = result, pool.newPage.2.frames = after at creates
  cases creates with
  | refused => simp [agrees]
  | @added frame obtained obtains =>
    have vacant := agrees.vacant_obtained obtains
    have placed : (obtained.addPage frame).2.Agrees ↔
        obtained.pageTable.lookup obtained.disk.nextPageId = none :=
      (vacant.with_disk _).agrees_place_iff _
    rw [placed, absent_iff agrees obtains]
    constructor
    · rintro only _ holder same found
      obtain rfl : frame = _ := by simpa using same
      exact only holder found
    · intro only holder found
      exact only frame holder rfl found

/-- A call keeps table and frames in agreement exactly when it meets the condition. -/
theorem agrees_step_iff (pool : BufferPool DiskManager) (call : PoolCall)
    (agrees : pool.frames.Agrees) : (pool.step call).frames.Agrees ↔ pool.FreshId call := by
  have flushed := fun pageId => pool.flush_preserves pageId
    (fun _ _ _ (flushes : Frames.Flushes _ _ _) => flushes.agrees) agrees
  cases call with
  | fetchPage pageId => exact iff_of_true ((pool.fetchPage_fetches pageId).agrees agrees) trivial
  | newPage => exact pool.agrees_newPage_iff agrees
  | unpinPage pageId isDirty =>
    exact iff_of_true ((pool.unpinPage_unpins pageId isDirty).agrees agrees) trivial
  | flushPage pageId => exact iff_of_true (flushed pageId).1 trivial
  | flushAllPages => exact iff_of_true (flushed 0).2 trivial
  | deletePage pageId =>
    exact iff_of_true ((pool.deletePage_deletes pageId).agrees agrees) trivial

/-- Along any run from an empty pool, table and frames agree in every state
exactly when no `NewPage` is given an id that another frame holds. -/
theorem throughout_agrees_iff (poolSize : Nat) (file : Option File) (replacerLatch : Mutex)
    (calls : List PoolCall) :
    Throughout step (fun pool => pool.frames.Agrees)
        (new poolSize (DiskManager.new file) replacerLatch) calls ↔
      EachCall step FreshId (new poolSize (DiskManager.new file) replacerLatch) calls := by
  refine @throughout_iff_eachCall _ _ _ _ (fun _ => True) _ ?_ ?_ _ calls trivial ?_
  · exact fun pool call _ agrees => pool.agrees_step_iff call agrees
  · exact fun _ _ _ _ _ => trivial
  · exact Frames.agrees_empty _

/-- Page 0 is fetched before it is allocated, and `NewPage` then gives it a
second frame. -/
theorem page_in_two_frames :
    ¬ Throughout step (fun pool => pool.frames.Agrees) (new 2 (DiskManager.new (some {})))
      [.fetchPage 0, .newPage] := by
  rintro ⟨-, -, agrees⟩
  have first : (run step (new 2 (DiskManager.new (some {}))) [.fetchPage 0, .newPage]).frames.pages
      0 = some (Page.pin { data := Bytes.copy Bytes.zeros 0 (fun i => 0) 0, pageId := 0 }) := rfl
  have led := agrees.resident first
  revert led
  decide +kernel

end BufferPool

end MiniDB.Buffer
