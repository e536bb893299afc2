import MiniDB.Buffer.PoolClient
import MiniDB.Buffer.Residency

/-!
# Working on a resident page

A client that fetches a resident page, reads and changes it and releases it
touches one frame. `OnPage` says what the frame holds at each point, the rest of
the pool being as it was, and there is one rule for each request. `contents` is
the pool as a map from page ids to the bytes of the resident pages.
-/

namespace MiniDB.Buffer

open Foundation Storage

variable {D : Type}

namespace Page

@[simp] theorem pin_data (page : Page) : page.pin.data = page.data := rfl

@[simp] theorem pin_pageId (page : Page) : page.pin.pageId = page.pageId := rfl

@[simp] theorem setData_data (page : Page) (data : Bytes) : (page.setData data).data = data := rfl

@[simp] theorem setData_pageId (page : Page) (data : Bytes) :
    (page.setData data).pageId = page.pageId := rfl

@[simp] theorem setDirty_data (page : Page) (isDirty : Bool) :
    (page.setDirty isDirty).data = page.data := rfl

@[simp] theorem setDirty_pageId (page : Page) (isDirty : Bool) :
    (page.setDirty isDirty).pageId = page.pageId := rfl

end Page

@[simp] theorem BufferPool.released_data (page : Page) (isDirty : Bool) :
    (released page isDirty).data = page.data := by
  cases isDirty <;> rfl

@[simp] theorem BufferPool.released_pageId (page : Page) (isDirty : Bool) :
    (released page isDirty).pageId = page.pageId := by
  cases isDirty <;> rfl

namespace Frames

@[simp] theorem setFrame_pages (frames : Frames D) (frame : Nat) (page : Option Page) :
    (frames.setFrame frame page).pages frame = page := by
  simp [setFrame]

@[simp] theorem setFrame_pageTable (frames : Frames D) (frame : Nat) (page : Option Page) :
    (frames.setFrame frame page).pageTable = frames.pageTable := rfl

@[simp] theorem setFrame_disk (frames : Frames D) (frame : Nat) (page : Option Page) :
    (frames.setFrame frame page).disk = frames.disk := rfl

@[simp] theorem setFrame_setFrame (frames : Frames D) (frame : Nat) (first second : Option Page) :
    (frames.setFrame frame first).setFrame frame second = frames.setFrame frame second := by
  simp [setFrame]

/-- The other frames stay. -/
theorem setFrame_pages_of_ne (frames : Frames D) {frame other : Nat} (different : other ≠ frame)
    (page : Option Page) : (frames.setFrame frame page).pages other = frames.pages other := by
  simp [setFrame, different]

/-- The bytes of the resident pages. -/
def contents (frames : Frames D) (pageId : Int) : Option Bytes :=
  ((frames.pageTable.lookup pageId).bind frames.pages).map Page.data

/-- What a page in the pool has. -/
theorem contents_of_lookup {frames : Frames D} {pageId : Int} {frame : Nat} {page : Page}
    (found : frames.pageTable.lookup pageId = some frame) (held : frames.pages frame = some page) :
    frames.contents pageId = some page.data := by
  simp [contents, found, held]

/-- A resident page has a frame and a page in it. -/
theorem Agrees.of_contents {frames : Frames D} (agrees : frames.Agrees) {pageId : Int}
    {data : Bytes} (holds : frames.contents pageId = some data) :
    ∃ frame page, frames.pageTable.lookup pageId = some frame ∧
      frames.pages frame = some page ∧ page.pageId = pageId ∧ page.data = data := by
  cases found : frames.pageTable.lookup pageId with
  | none => simp [contents, found] at holds
  | some frame =>
    obtain ⟨page, held, same⟩ := agrees.mapped found
    rw [contents_of_lookup found held] at holds
    exact ⟨frame, page, rfl, held, same, Option.some.inj holds⟩

/-- A change in the frame of a page is a change of the bytes of that page. -/
theorem Agrees.contents_setFrame {frames : Frames D} (agrees : frames.Agrees) {pageId : Int}
    {frame : Nat} (found : frames.pageTable.lookup pageId = some frame) (page : Page) :
    (frames.setFrame frame (some page)).contents =
      Function.update frames.contents pageId (some page.data) := by
  ext1 other
  by_cases same : other = pageId
  · subst same
    simp [contents, found]
  · rw [Function.update_of_ne same]
    simp only [contents, setFrame_pageTable]
    cases foundOther : frames.pageTable.lookup other with
    | none => rfl
    | some holder =>
      have different : holder ≠ frame := by
        rintro rfl
        exact same (agrees.injective foundOther found)
      simp only [Option.bind_some, frames.setFrame_pages_of_ne different]

end Frames

namespace BufferPool

/-- `UnpinPage` leaves the size of the pool. -/
theorem poolSize_unpinPage (pool : BufferPool D) (pageId : Int) (isDirty : Bool) :
    (pool.unpinPage pageId isDirty).2.poolSize = pool.poolSize := by
  unfold unpinPage lockGuard
  dsimp only [Guarded.setMutex]
  repeat' split
  all_goals rfl

/-- The pool `after` is `pool` but for one frame, which holds `page`. -/
structure OnPage (pool : BufferPool D) (frame : Nat) (page : Page) (after : BufferPool D) :
    Prop where
  size : after.poolSize = pool.poolSize
  frames : after.frames = pool.frames.setFrame frame (some page)

namespace OnPage

variable {pool after : BufferPool D} {frame : Nat} {page : Page}

/-- At first the page is as it is. -/
theorem start (held : pool.frames.pages frame = some page) : OnPage pool frame page pool := by
  refine ⟨rfl, ?_⟩
  simp [Frames.setFrame, ← held]

/-- The frame has the page. -/
theorem held (here : OnPage pool frame page after) : after.frames.pages frame = some page := by
  simp [here.frames]

/-- The table is as it was. -/
theorem lookup_eq (here : OnPage pool frame page after) :
    after.frames.pageTable = pool.frames.pageTable := by
  simp [here.frames]

/-- A step of work on the page. -/
theorem next {last : BufferPool D} {changed : Page} (here : OnPage pool frame page after)
    (there : OnPage after frame changed last) : OnPage pool frame changed last :=
  ⟨there.size.trans here.size, by rw [there.frames, here.frames, Frames.setFrame_setFrame]⟩

/-- What a client finds in the frame. -/
theorem pageAt_eq (here : OnPage pool frame page after) : after.pageAt frame = page := by
  simp [pageAt, here.held]

/-- A client changes the page. -/
theorem modifyPage (here : OnPage pool frame page after) (change : Page → Page) :
    OnPage pool frame (change page) (after.modifyPage frame change) := by
  refine here.next ⟨rfl, ?_⟩
  simp [BufferPool.modifyPage, Frames.modifyPage, here.held]

/-- The same frames are null. -/
theorem findFree_eq (here : OnPage pool frame page after) {before : Page}
    (heldBefore : pool.frames.pages frame = some before) : after.findFree = pool.findFree := by
  have same : ∀ other, (after.frames.pages other).isNone = (pool.frames.pages other).isNone := by
    intro other
    by_cases here' : other = frame
    · subst here'
      simp [here.held, heldBefore]
    · rw [here.frames, Frames.setFrame_pages_of_ne _ here']
  simp only [findFree, here.size, same]

/-- `UnpinPage` of the pinned page succeeds and changes that page only. -/
theorem unpinPage {pageId : Int} (here : OnPage pool frame page after)
    (found : pool.frames.pageTable.lookup pageId = some frame) (pinned : page.pinCount ≠ 0)
    (isDirty : Bool) :
    (after.unpinPage pageId isDirty).1 = true ∧
      OnPage pool frame (released page isDirty) (after.unpinPage pageId isDirty).2 := by
  have unpins := after.unpinPage_unpins pageId isDirty
  have size := after.poolSize_unpinPage pageId isDirty
  rw [← here.lookup_eq] at found
  generalize (after.unpinPage pageId isDirty).1 = result at unpins
  generalize framesEq : (after.unpinPage pageId isDirty).2.frames = frames at unpins
  cases unpins with
  | refused unpinned => exact absurd (unpinned found here.held) pinned
  | released resident held _ =>
    obtain rfl := Option.some.inj (found.symm.trans resident)
    obtain rfl := Option.some.inj (here.held.symm.trans held)
    exact ⟨rfl, here.next ⟨size, framesEq⟩⟩

variable [Disk D]

/-- `FetchPage` of the page finds it in its frame and pins it. -/
theorem fetchPage {pageId : Int} (here : OnPage pool frame page after)
    (found : pool.frames.pageTable.lookup pageId = some frame) :
    (after.fetchPage pageId).1 = some frame ∧
      OnPage pool frame page.pin (after.fetchPage pageId).2 := by
  rw [← here.lookup_eq] at found
  have pinned : OnPage after frame page.pin (after.fetchPage pageId).2 := by
    unfold BufferPool.fetchPage lockGuard
    dsimp only [Guarded.setMutex]
    rw [found]
    refine ⟨rfl, ?_⟩
    simp [BufferPool.pinned, Frames.modifyPage, here.held]
  refine ⟨?_, here.next pinned⟩
  unfold BufferPool.fetchPage lockGuard
  dsimp only [Guarded.setMutex]
  rw [found]

/-- A pinned page is not deleted. -/
theorem deletePage {pageId : Int} (here : OnPage pool frame page after)
    (found : pool.frames.pageTable.lookup pageId = some frame) (pinned : page.pinCount ≠ 0) :
    OnPage pool frame page (after.deletePage pageId).2 := by
  rw [← here.lookup_eq] at found
  have kept : OnPage after frame page (after.deletePage pageId).2 := by
    unfold BufferPool.deletePage lockGuard
    dsimp only [Guarded.setMutex]
    rw [found]
    dsimp only
    rw [here.held]
    dsimp only
    rw [if_pos (Nat.pos_of_ne_zero pinned)]
    exact ⟨rfl, (start here.held).frames⟩
  exact here.next kept

end OnPage

end BufferPool

/-! ## Pages that the disk manager issued -/

namespace Frames

/-- Table and frames agree, and only ids that the disk manager issued are resident. -/
structure Settled (frames : Frames DiskManager) : Prop where
  agrees : frames.Agrees
  issued : ∀ {pageId : Int} {frame : Nat}, frames.pageTable.lookup pageId = some frame →
    0 ≤ pageId ∧ pageId < frames.disk.nextPageId
  nonneg : 0 ≤ frames.disk.nextPageId

/-- A pool without pages. -/
theorem settled_empty (disk : DiskManager) (nonneg : 0 ≤ disk.nextPageId) :
    ({ disk } : Frames DiskManager).Settled :=
  ⟨agrees_empty disk, fun found => by simp at found, nonneg⟩

namespace Settled

variable {frames : Frames DiskManager} {pageId : Int} {frame : Nat}

/-- A page is replaced by one with its id. -/
theorem setFrame (settled : frames.Settled) (found : frames.pageTable.lookup pageId = some frame)
    {page : Page} (sameId : page.pageId = pageId) :
    (frames.setFrame frame (some page)).Settled := by
  obtain ⟨before, held, same⟩ := settled.agrees.mapped found
  exact ⟨settled.agrees.setFrame held (sameId.trans same.symm), settled.issued, settled.nonneg⟩

/-- The id that is issued next is not resident. -/
theorem lookup_next (settled : frames.Settled) :
    frames.pageTable.lookup frames.disk.nextPageId = none := by
  cases found : frames.pageTable.lookup frames.disk.nextPageId with
  | none => rfl
  | some frame => exact absurd (settled.issued found).2 (Int.lt_irrefl _)

/-- A new page in a vacant frame. -/
theorem addPage (settled : frames.Settled) {obtained : Frames DiskManager}
    (obtains : frames.Obtains (some frame) obtained) :
    (obtained.addPage frame).1 = frames.disk.nextPageId ∧ (obtained.addPage frame).2.Settled := by
  have next : obtained.disk.nextPageId = frames.disk.nextPageId := by
    cases obtains with
    | free empty => rfl
    | evicted held unpinned => exact BufferPool.nextPageId_writeBack _ _ _
  have absent := obtains.lookup_none settled.lookup_next
  have vacant := settled.agrees.vacant_obtained obtains
  refine ⟨next, ?_, ?_, ?_⟩
  · refine ((vacant.with_disk _).agrees_place_iff _).mpr ?_
    exact next ▸ absent
  · intro pageId holder found
    change (obtained.pageTable.insert obtained.disk.nextPageId frame).lookup pageId =
      some holder at found
    change 0 ≤ pageId ∧ pageId < obtained.disk.nextPageId + 1
    by_cases same : pageId = obtained.disk.nextPageId
    · have nonneg := settled.nonneg
      omega
    · rw [AList.lookup_insert_ne same] at found
      have before : frames.pageTable.lookup pageId ≠ none := by
        intro none
        rw [obtains.lookup_none none] at found
        cases found
      obtain ⟨frame, found⟩ := Option.ne_none_iff_exists'.mp before
      have issued := settled.issued found
      omega
  · have nonneg := settled.nonneg
    change 0 ≤ obtained.disk.nextPageId + 1
    omega

end Settled

end Frames

namespace BufferPool

variable {pool : BufferPool DiskManager}

/-- Work on one page changes the bytes of that page. -/
theorem OnPage.settled {after : BufferPool DiskManager} {frame : Nat} {page : Page} {pageId : Int}
    (here : pool.OnPage frame page after) (settled : pool.frames.Settled)
    (found : pool.frames.pageTable.lookup pageId = some frame) (sameId : page.pageId = pageId) :
    after.frames.Settled ∧
      after.frames.contents = Function.update pool.frames.contents pageId (some page.data) := by
  rw [here.frames]
  exact ⟨settled.setFrame found sameId, settled.agrees.contents_setFrame found page⟩

/-- The page that `NewPage` handed out. -/
structure Fresh (pool : BufferPool DiskManager) (pageId : Int) (frame : Nat) (page : Page)
    (after : BufferPool DiskManager) : Prop where
  next : pageId = pool.frames.disk.nextPageId
  settled : after.frames.Settled
  found : after.frames.pageTable.lookup pageId = some frame
  held : after.frames.pages frame = some page
  sameId : page.pageId = pageId
  pinned : page.pinCount = 1

/-- A new page is in a fresh frame. -/
theorem newPage_fresh (settled : pool.frames.Settled) {pageId : Int} {frame : Nat}
    (served : pool.newPage.1 = some (pageId, frame)) :
    ∃ page, Fresh pool pageId frame page pool.newPage.2 := by
  have creates := pool.newPage_creates
  rw [served] at creates
  generalize framesEq : pool.newPage.2.frames = frames at creates
  cases creates with
  | @added _ obtained obtains =>
    obtain ⟨next, settledAfter⟩ := settled.addPage obtains
    refine ⟨((obtained.preparePage frame obtained.disk.nextPageId).pin).setDirty false, next,
      framesEq ▸ settledAfter, ?_, ?_, rfl, rfl⟩
    · rw [framesEq]
      exact AList.lookup_insert _
    · rw [framesEq]
      exact Frames.setFrame_pages _ _ _

/-- A null frame is taken without a victim. -/
theorem obtainFrame_of_findFree {frame : Nat} (found : pool.findFree = some frame) :
    pool.obtainFrame = (some frame, pool) := by
  unfold obtainFrame
  rw [found]

/-- With a null frame `NewPage` takes it. -/
theorem newPage_of_findFree {frame : Nat} (found : pool.findFree = some frame) :
    pool.newPage.1 = some (pool.frames.disk.nextPageId, frame) ∧
      pool.newPage.2.frames = (pool.frames.addPage frame).2 := by
  have obtained := obtainFrame_of_findFree
    (show ({ pool with latch := pool.latch.lock } : BufferPool DiskManager).findFree = some frame
      from found)
  unfold newPage lockGuard
  dsimp only [Guarded.setMutex, Guarded.mutex]
  rw [obtained]
  exact ⟨rfl, rfl⟩

/-- In a null frame the new page takes the place of no other. -/
theorem contents_newPage (settled : pool.frames.Settled) {frame : Nat}
    (found : pool.findFree = some frame) {other : Int}
    (different : other ≠ pool.frames.disk.nextPageId) :
    pool.newPage.2.frames.contents other = pool.frames.contents other := by
  have empty : pool.frames.pages frame = none := by simpa using List.find?_some found
  rw [(newPage_of_findFree found).2]
  have table : (pool.frames.addPage frame).2.pageTable.lookup other =
      pool.frames.pageTable.lookup other := AList.lookup_insert_ne different
  simp only [Frames.contents, table]
  cases foundOther : pool.frames.pageTable.lookup other with
  | none => rfl
  | some holder =>
    have elsewhere : holder ≠ frame := by
      rintro rfl
      obtain ⟨page, held, -⟩ := settled.agrees.mapped foundOther
      rw [empty] at held
      cases held
    simp only [Option.bind_some]
    rw [show (pool.frames.addPage frame).2.pages holder = pool.frames.pages holder from
      Frames.setFrame_pages_of_ne _ elsewhere _]

end BufferPool

end MiniDB.Buffer
