import MiniDB.Buffer.Exhaustion
import MiniDB.Buffer.Resident
import MiniDB.Buffer.Transparency

/-!
# Services of pages

What a program over the pool can rely on, whatever frames the pool has and whichever
requests it refuses. A service `Shows` the pages that exist, with their bytes, and
the pins that are held; there is one rule for each request. The pool over an ideal
disk is such a service, and so is a pool that refuses more requests than it has to.
-/

namespace MiniDB.Buffer

open Foundation Storage

/-- The pages that exist, and their bytes. -/
@[ext] structure Pages where
  nextPageId : Int
  contents : Int → Bytes

namespace Pages

/-- The page was handed out by `NewPage`. -/
def Allocated (pages : Pages) (pageId : Int) : Prop := 0 ≤ pageId ∧ pageId < pages.nextPageId

instance (pages : Pages) (pageId : Int) : Decidable (pages.Allocated pageId) :=
  inferInstanceAs (Decidable (_ ∧ _))

/-- The bytes of a page change. -/
def write (pages : Pages) (pageId : Int) (data : Bytes) : Pages :=
  { pages with contents := Function.update pages.contents pageId data }

/-- A page of zeros is added. -/
def add (pages : Pages) : Pages where
  nextPageId := pages.nextPageId + 1
  contents := Function.update pages.contents pages.nextPageId Bytes.zeros

variable {pages : Pages} {pageId other : Int} {data : Bytes}

@[simp] theorem nextPageId_write : (pages.write pageId data).nextPageId = pages.nextPageId := rfl

@[simp] theorem nextPageId_add : pages.add.nextPageId = pages.nextPageId + 1 := rfl

/-- The page that is written has the bytes. -/
@[simp] theorem contents_write_self : (pages.write pageId data).contents pageId = data :=
  Function.update_self ..

/-- The other pages keep theirs. -/
theorem contents_write_of_ne (different : other ≠ pageId) :
    (pages.write pageId data).contents other = pages.contents other :=
  Function.update_of_ne different ..

/-- The later of two writes of a page stands. -/
@[simp] theorem write_write (first : Bytes) :
    (pages.write pageId first).write pageId data = pages.write pageId data := by
  simp only [write, Function.update_idem]

/-- A new page has zeros. -/
@[simp] theorem contents_add_self : pages.add.contents pages.nextPageId = Bytes.zeros :=
  Function.update_self ..

/-- The other pages are as they were. -/
theorem contents_add_of_ne (different : other ≠ pages.nextPageId) :
    pages.add.contents other = pages.contents other :=
  Function.update_of_ne different ..

@[simp] theorem allocated_write :
    (pages.write pageId data).Allocated other ↔ pages.Allocated other := Iff.rfl

/-- The next id is that of no page. -/
theorem Allocated.ne_next (allocated : pages.Allocated pageId) : pageId ≠ pages.nextPageId :=
  Int.ne_of_lt allocated.2

/-- A page stays when another one is made. -/
theorem Allocated.add (allocated : pages.Allocated pageId) : pages.add.Allocated pageId :=
  ⟨allocated.1, Int.lt_add_one_of_le (Int.le_of_lt allocated.2)⟩

end Pages

/-- A service of pages. -/
structure PageService (State : Type) where
  handle : (request : PoolRequest) → State → request.Answer × State
  Shows : State → Pages → List ClientPin → Prop
  nonneg : ∀ {state pages pins}, Shows state pages pins → 0 ≤ pages.nextPageId
  perm : ∀ {state pages pins reordered}, Shows state pages pins → reordered.Perm pins →
    Shows state pages reordered
  /-- `FetchPage` refuses, or hands out a pin. -/
  fetchPage : ∀ {state pages pins pageId}, Shows state pages pins → pages.Allocated pageId →
    let outcome : Option Nat × State := handle (.fetchPage pageId) state
    (outcome.1 = none ∧ Shows outcome.2 pages pins) ∨
      ∃ frame, outcome.1 = some frame ∧ Shows outcome.2 pages ({ pageId, frame } :: pins)
  /-- `NewPage` refuses, or adds a page of zeros and hands out a pin of it. -/
  newPage : ∀ {state pages pins}, Shows state pages pins →
    let outcome : Option (Int × Nat) × State := handle .newPage state
    (outcome.1 = none ∧ Shows outcome.2 pages pins) ∨
      ∃ frame, outcome.1 = some (pages.nextPageId, frame) ∧
        Shows outcome.2 pages.add ({ pageId := pages.nextPageId, frame } :: pins)
  /-- A pin is released; if the page was changed through it, as dirty. -/
  unpinPage : ∀ {state pages pins} {pin : ClientPin} {isDirty : Bool},
    Shows state pages (pin :: pins) → (pin.wrote = true → isDirty = true) →
      Shows (handle (.unpinPage pin.pageId isDirty) state).2 pages pins
  /-- A page that is pinned is not deleted. -/
  deletePage : ∀ {state pages pins} {pin : ClientPin}, Shows state pages pins → pin ∈ pins →
    Shows (handle (.deletePage pin.pageId) state).2 pages pins
  getPageId : ∀ {state pages pins} {pin : ClientPin}, Shows state pages pins → pin ∈ pins →
    handle (.getPageId pin.frame) state = (pin.pageId, state)
  getData : ∀ {state pages pins} {pin : ClientPin}, Shows state pages pins → pin ∈ pins →
    handle (.getData pin.frame) state = (pages.contents pin.pageId, state)
  putData : ∀ {state pages pins} {pin : ClientPin}, Shows state pages (pin :: pins) →
    ∀ data, Shows (handle (.putData pin.frame data) state).2 (pages.write pin.pageId data)
      ({ pin with wrote := true } :: pins)
  setDirty : ∀ {state pages pins} {pin : ClientPin}, Shows state pages pins → pin ∈ pins →
    Shows (handle (.setDirty pin.frame) state).2 pages pins

namespace PageService

open PoolProgram

variable {State Result Next : Type} (service : PageService State) (state : State)

/-- Run a program against the service. -/
def run (program : PoolProgram Result) (state : State) : Result × State :=
  Client.run service.handle program state

@[simp] theorem run_pure (result : Result) :
    service.run (pure result : PoolProgram Result) state = (result, state) := rfl

/-- A program and then the next one. -/
@[simp] theorem run_bind (program : PoolProgram Result) (next : Result → PoolProgram Next) :
    service.run (program >>= next) state =
      service.run (next (service.run program state).1) (service.run program state).2 :=
  Client.run_bind program next state

@[simp] theorem run_fetchPage (pageId : Int) :
    service.run (PoolProgram.fetchPage pageId) state = service.handle (.fetchPage pageId) state :=
  rfl

@[simp] theorem run_newPage :
    service.run PoolProgram.newPage state = service.handle .newPage state := rfl

@[simp] theorem run_unpinPage (pageId : Int) (isDirty : Bool) :
    service.run (PoolProgram.unpinPage pageId isDirty) state =
      service.handle (.unpinPage pageId isDirty) state := rfl

@[simp] theorem run_deletePage (pageId : Int) :
    service.run (PoolProgram.deletePage pageId) state = service.handle (.deletePage pageId) state :=
  rfl

@[simp] theorem run_getPageId (frame : Nat) :
    service.run (PoolProgram.getPageId frame) state = service.handle (.getPageId frame) state := rfl

@[simp] theorem run_getData (frame : Nat) :
    service.run (PoolProgram.getData frame) state = service.handle (.getData frame) state := rfl

@[simp] theorem run_putData (frame : Nat) (data : Bytes) :
    service.run (PoolProgram.putData frame data) state = service.handle (.putData frame data) state :=
  rfl

@[simp] theorem run_setDirty (frame : Nat) :
    service.run (PoolProgram.setDirty frame) state = service.handle (.setDirty frame) state := rfl

end PageService

/-- How a request for a page was answered. -/
inductive PageAnswer where
  | fetched (served : Bool)
  | created (served : Bool)
deriving DecidableEq, Repr

/-- What the answer to a request says about shortage. -/
def pageAnswer : (request : PoolRequest) → request.Answer → List PageAnswer
  | .fetchPage _, answer => [.fetched (Option.isSome answer)]
  | .newPage, answer => [.created (Option.isSome answer)]
  | _, _ => []

namespace PageService

variable {State Result Next : Type} (service : PageService State) (state : State)

/-- The pattern in which the requests of a program for pages are answered. -/
def pattern (program : PoolProgram Result) (state : State) : List PageAnswer :=
  Client.observed service.handle pageAnswer program state

@[simp] theorem pattern_pure (result : Result) :
    service.pattern (pure result : PoolProgram Result) state = [] := rfl

/-- The requests of a program and then those of the next one. -/
@[simp] theorem pattern_bind (program : PoolProgram Result) (next : Result → PoolProgram Next) :
    service.pattern (program >>= next) state =
      service.pattern program state ++
        service.pattern (next (service.run program state).1) (service.run program state).2 :=
  Client.observed_bind program next state

/-- A request for a page is answered by whether it brings one. -/
@[simp] theorem pattern_fetchPage (pageId : Int) :
    service.pattern (PoolProgram.fetchPage pageId) state =
      [.fetched (Option.isSome (service.handle (.fetchPage pageId) state).1)] := rfl

/-- So is a request for a new page. -/
@[simp] theorem pattern_newPage :
    service.pattern PoolProgram.newPage state =
      [.created (Option.isSome (service.handle .newPage state).1)] := rfl

@[simp] theorem pattern_unpinPage (pageId : Int) (isDirty : Bool) :
    service.pattern (PoolProgram.unpinPage pageId isDirty) state = [] := rfl

@[simp] theorem pattern_getPageId (frame : Nat) :
    service.pattern (PoolProgram.getPageId frame) state = [] := rfl

@[simp] theorem pattern_getData (frame : Nat) :
    service.pattern (PoolProgram.getData frame) state = [] := rfl

@[simp] theorem pattern_putData (frame : Nat) (data : Bytes) :
    service.pattern (PoolProgram.putData frame data) state = [] := rfl

@[simp] theorem pattern_setDirty (frame : Nat) :
    service.pattern (PoolProgram.setDirty frame) state = [] := rfl

end PageService

/-! ## The pool over an ideal disk -/

namespace Mirrors

variable {frames : Frames IdealDisk} {contents : Int → Bytes} {pins : List ClientPin}

/-- A page is marked dirty through a pointer. -/
theorem setDirty (mirrors : Mirrors frames contents pins) (frame : Nat) :
    Mirrors (frames.modifyPage frame fun page => page.setDirty true) contents pins := by
  unfold Frames.modifyPage
  cases held : frames.pages frame with
  | none =>
    have same : frames.setFrame frame none = frames := by
      rw [Frames.setFrame, ← held, Function.update_eq_self]
    rw [Option.map_none, same]
    exact mirrors
  | some page =>
    have counted : page.pinCount = holders pins page.pageId := mirrors.counted held
    have data : page.data = contents page.pageId := mirrors.data held
    exact mirrors.change frames.disk held rfl data (.inl rfl) counted
      (fun _ _ => ⟨rfl, rfl, rfl, id⟩) mirrors.pinned rfl

/-- The page behind the pointer of a pin. -/
theorem held_of_pin (mirrors : Mirrors frames contents pins) {pin : ClientPin} (member : pin ∈ pins) :
    ∃ page, frames.pages pin.frame = some page ∧ page.pageId = pin.pageId ∧
      page.data = contents pin.pageId := by
  obtain ⟨page, held, sameId⟩ := mirrors.agrees.mapped (mirrors.pinned member)
  exact ⟨page, held, sameId, (mirrors.data held).trans (congrArg contents sameId)⟩

end Mirrors

/-- Reading a page allocates none. -/
theorem Frames.Fetches.nextPageId_eq {frames after : Frames IdealDisk} {pageId : Int}
    {result : Option Nat} (fetches : frames.Fetches pageId result after) :
    after.disk.nextPageId = frames.disk.nextPageId := by
  cases fetches with
  | hit resident => rfl
  | refused => rfl
  | loaded absent obtains => exact obtains.nextPageId_eq

/-- The pool shows the pages that it mirrors. -/
structure BufferPool.ShowsPages (pool : BufferPool IdealDisk) (pages : Pages)
    (pins : List ClientPin) : Prop where
  mirrors : Mirrors pool.frames pages.contents pins
  next : pool.frames.disk.nextPageId = pages.nextPageId

namespace BufferPool.ShowsPages

variable {pool : BufferPool IdealDisk} {pages : Pages} {pins : List ClientPin} {pageId : Int}

/-- `FetchPage` refuses, or pins the page in a frame; the pool shows the same pages. -/
theorem fetchPage (shows : pool.ShowsPages pages pins) (allocated : pages.Allocated pageId) :
    ((pool.fetchPage pageId).1 = none ∧ (pool.fetchPage pageId).2.ShowsPages pages pins) ∨
      ∃ frame, (pool.fetchPage pageId).1 = some frame ∧
        (pool.fetchPage pageId).2.ShowsPages pages ({ pageId, frame } :: pins) := by
  have fetches := pool.fetchPage_fetches pageId
  have next := fetches.nextPageId_eq.trans shows.next
  have onDisk : pool.frames.disk.Allocated pageId := ⟨allocated.1, shows.next ▸ allocated.2⟩
  cases result : (pool.fetchPage pageId).1 with
  | none =>
    rw [result] at fetches
    refine .inl ⟨rfl, ?_, next⟩
    rw [fetches.refused_eq]
    exact shows.mirrors
  | some frame =>
    rw [result] at fetches
    exact .inr ⟨frame, rfl, shows.mirrors.fetch fetches onDisk, next⟩

/-- `NewPage` refuses, or pins a page of zeros under the next id. -/
theorem newPage (shows : pool.ShowsPages pages pins) :
    (pool.newPage.1 = none ∧ pool.newPage.2.ShowsPages pages pins) ∨
      ∃ frame, pool.newPage.1 = some (pages.nextPageId, frame) ∧
        pool.newPage.2.ShowsPages pages.add ({ pageId := pages.nextPageId, frame } :: pins) := by
  have creates := pool.newPage_creates
  rcases made : pool.newPage with ⟨result, after⟩
  rw [made] at creates
  cases result with
  | none =>
    have same : after.frames = pool.frames := creates.refused_eq
    exact .inl ⟨rfl, same ▸ shows.mirrors, same ▸ shows.next⟩
  | some created =>
    obtain ⟨newId, frame⟩ := created
    have newIs : newId = pages.nextPageId ∧ after.frames.disk.nextPageId = pages.nextPageId + 1 := by
      generalize framesEq : after.frames = framesAfter at creates
      cases creates with
      | added obtains =>
        have same := obtains.nextPageId_eq.trans shows.next
        exact ⟨same, congrArg (· + 1) same⟩
    obtain ⟨rfl, next⟩ := newIs
    exact .inr ⟨frame, rfl, shows.mirrors.create creates, next⟩

/-- `UnpinPage` gives up the pin; what was written stays shown if it was declared. -/
theorem unpinPage {pin : ClientPin} {isDirty : Bool} (shows : pool.ShowsPages pages (pin :: pins))
    (declared : pin.wrote = true → isDirty = true) :
    (pool.unpinPage pin.pageId isDirty).2.ShowsPages pages pins := by
  have unpins := pool.unpinPage_unpins pin.pageId isDirty
  refine ⟨shows.mirrors.unpin unpins declared, Eq.trans ?_ shows.next⟩
  generalize (pool.unpinPage pin.pageId isDirty).1 = result at unpins
  generalize (pool.unpinPage pin.pageId isDirty).2.frames = after at unpins
  cases unpins with
  | refused unpinned => rfl
  | released resident held pinned => rfl

/-- `DeletePage` of a pinned page changes no page. -/
theorem deletePage {pin : ClientPin} (shows : pool.ShowsPages pages pins) (member : pin ∈ pins) :
    (pool.deletePage pin.pageId).2.ShowsPages pages pins := by
  have deletes := pool.deletePage_deletes pin.pageId
  have found := shows.mirrors.pinned member
  generalize (pool.deletePage pin.pageId).1 = result at deletes
  generalize framesEq : (pool.deletePage pin.pageId).2.frames = after at deletes
  cases deletes with
  | refused => exact ⟨framesEq ▸ shows.mirrors, framesEq ▸ shows.next⟩
  | deleted resident held unpinned =>
    have none := holders_eq_zero_iff.mp ((shows.mirrors.counted held).symm.trans unpinned)
    exact absurd (shows.mirrors.agrees.pageId_eq resident held).symm (none pin member)

/-- The frame of a pin has the page, as the pool shows it. -/
theorem pageAt_eq {pin : ClientPin} (shows : pool.ShowsPages pages pins) (member : pin ∈ pins) :
    (pool.pageAt pin.frame).pageId = pin.pageId ∧
      (pool.pageAt pin.frame).data = pages.contents pin.pageId := by
  obtain ⟨page, held, sameId, data⟩ := shows.mirrors.held_of_pin member
  simp only [BufferPool.pageAt, held, Option.getD_some]
  exact ⟨sameId, data⟩

/-- A pool shows one byte string for each page. -/
theorem contents_eq {others : Pages} {otherPins : List ClientPin} (shows : pool.ShowsPages pages pins)
    (too : pool.ShowsPages others otherPins) (allocated : pages.Allocated pageId) :
    pages.contents pageId = others.contents pageId := by
  have onDisk : pool.frames.disk.Allocated pageId := ⟨allocated.1, shows.next ▸ allocated.2⟩
  cases found : pool.frames.pageTable.lookup pageId with
  | none => exact (shows.mirrors.stored found onDisk).symm.trans (too.mirrors.stored found onDisk)
  | some frame =>
    obtain ⟨page, held, rfl⟩ := shows.mirrors.agrees.mapped found
    exact (shows.mirrors.data held).symm.trans (too.mirrors.data held)

end BufferPool.ShowsPages

/-- The pool over an ideal disk is a service of pages. -/
def idealService : PageService (BufferPool IdealDisk) where
  handle := BufferPool.handle
  Shows := BufferPool.ShowsPages
  nonneg shows := shows.next ▸ shows.mirrors.nonneg
  perm shows same := ⟨shows.mirrors.perm same, shows.next⟩
  fetchPage shows allocated := shows.fetchPage allocated
  newPage shows := shows.newPage
  unpinPage shows declared := shows.unpinPage declared
  deletePage shows member := shows.deletePage member
  getPageId shows member := Prod.ext (shows.pageAt_eq member).1 rfl
  getData shows member := Prod.ext (shows.pageAt_eq member).2 rfl
  putData shows data := ⟨shows.mirrors.write data, shows.next⟩
  setDirty {_ _ _ pin} shows _ := ⟨shows.mirrors.setDirty pin.frame, shows.next⟩

/-- A pool without pages on a disk with some. -/
theorem showsPages_new (poolSize count : Nat) (initial : Int → Bytes) :
    (BufferPool.new poolSize (IdealDisk.start count initial) .noop).ShowsPages
      { nextPageId := count, contents := (IdealDisk.start count initial).bytes } [] :=
  ⟨Mirrors.start count initial, rfl⟩

/-- The pool is a service that refuses by itself only. -/
theorem run_idealService {Result : Type} (program : PoolProgram Result) (pool : BufferPool IdealDisk) :
    idealService.run program pool = PoolProgram.run program pool := rfl

/-! ## Pools that can load a page -/

namespace BufferPool

variable {pool : BufferPool IdealDisk} {pages : Pages} {pins : List ClientPin} {pageId : Int}

/-- Finding a frame leaves the size of the pool. -/
theorem poolSize_obtainFrame {D : Type} [Disk D] (pool : BufferPool D) :
    pool.obtainFrame.2.poolSize = pool.poolSize := by
  unfold obtainFrame
  dsimp only
  split
  · rfl
  · split
    · rfl
    · split
      · rfl
      · split <;> rfl

theorem poolSize_fetchPage {D : Type} [Disk D] (pool : BufferPool D) (pageId : Int) :
    (pool.fetchPage pageId).2.poolSize = pool.poolSize := by
  have obtained := poolSize_obtainFrame { pool with latch := pool.latch.lock }
  unfold fetchPage lockGuard
  dsimp only [Guarded.setMutex, Guarded.mutex]
  cases pool.frames.pageTable.lookup pageId with
  | some frame => rfl
  | none =>
    dsimp only
    split
    · next refused =>
      rw [refused] at obtained
      exact obtained
    · next served =>
      rw [served] at obtained
      exact obtained

theorem poolSize_newPage {D : Type} [Disk D] (pool : BufferPool D) :
    pool.newPage.2.poolSize = pool.poolSize := by
  have obtained := poolSize_obtainFrame { pool with latch := pool.latch.lock }
  unfold newPage lockGuard
  dsimp only [Guarded.setMutex, Guarded.mutex]
  split
  · next refused =>
    rw [refused] at obtained
    exact obtained
  · next served =>
    rw [served] at obtained
    exact obtained

/-- All frames are pinned if each is the frame of a pin. -/
theorem ShowsPages.allPinned_iff (shows : pool.ShowsPages pages pins) :
    pool.AllPinned ↔ ∀ frame < pool.poolSize, ∃ pin ∈ pins, pin.frame = frame := by
  refine forall₂_congr fun frame _ => ?_
  constructor
  · rintro ⟨page, held, pinned⟩
    rw [shows.mirrors.counted held] at pinned
    obtain ⟨pin, member, same⟩ := List.countP_pos_iff.mp pinned
    have samePage : pin.pageId = page.pageId := by simpa using same
    have found := shows.mirrors.pinned member
    rw [samePage, shows.mirrors.agrees.resident held] at found
    exact ⟨pin, member, (Option.some.inj found).symm⟩
  · rintro ⟨pin, member, rfl⟩
    obtain ⟨page, held, sameId, -⟩ := shows.mirrors.held_of_pin member
    refine ⟨page, held, ?_⟩
    rw [shows.mirrors.counted held, sameId]
    exact List.countP_pos_iff.mpr ⟨pin, member, by simp⟩

/-- The pool has the page, or a frame that is not pinned. -/
def Brings (pool : BufferPool IdealDisk) (pageId : Int) : Prop :=
  pool.frames.pageTable.lookup pageId ≠ none ∨ ¬ pool.AllPinned

/-- `FetchPage` of a tidy pool brings every page that it can. -/
theorem TidyBut.fetchPage_ne_none_iff (tidy : pool.Tidy) :
    (pool.fetchPage pageId).1 ≠ none ↔ pool.Brings pageId := by
  unfold Brings
  cases found : pool.frames.pageTable.lookup pageId with
  | some frame =>
    rw [fetchPage_hit found]
    exact iff_of_true (Option.some_ne_none frame) (.inl (Option.some_ne_none frame))
  | none =>
    rcases tidy.fetchPage_cases found with ⟨all, refused, -⟩ | ⟨notAll, served, -⟩
    · exact iff_of_false (fun served => served refused) (by simp [all])
    · exact iff_of_true served (.inr notAll)

theorem pageTable_unpinPage {D : Type} [Disk D] (pool : BufferPool D) (pageId : Int)
    (isDirty : Bool) :
    (pool.unpinPage pageId isDirty).2.frames.pageTable = pool.frames.pageTable := by
  have unpins := pool.unpinPage_unpins pageId isDirty
  generalize (pool.unpinPage pageId isDirty).2.frames = after at unpins
  generalize (pool.unpinPage pageId isDirty).1 = result at unpins
  cases unpins with
  | refused unpinned => rfl
  | released resident held pinned => rfl

/-- What a pool can bring stays the same over a request for one page that is then
released: a page that was there is found in the same table. -/
theorem ShowsPages.brings_iff {after : BufferPool IdealDisk} {others : Pages}
    (shows : pool.ShowsPages pages pins) (showsAfter : after.ShowsPages others pins)
    (size : after.poolSize = pool.poolSize) (brings : pool.Brings pageId)
    (table : pool.frames.pageTable.lookup pageId ≠ none →
      after.frames.pageTable = pool.frames.pageTable) (other : Int) :
    after.Brings other ↔ pool.Brings other := by
  have samePins : after.AllPinned ↔ pool.AllPinned := by
    rw [shows.allPinned_iff, showsAfter.allPinned_iff, size]
  unfold Brings
  rcases brings with resident | notAll
  · rw [table resident, samePins]
  · exact iff_of_true (.inr fun all => notAll (samePins.mp all)) (.inr notAll)

/-- The pool shows the pages and can load one: some frame is not pinned. -/
structure LoadsPage (pool : BufferPool IdealDisk) (pages : Pages) (pins : List ClientPin) : Prop where
  shows : pool.ShowsPages pages pins
  tidy : pool.Tidy
  loads : ¬ pool.AllPinned

/-- With as many frames and the same pins it still can. -/
theorem LoadsPage.of_shows {after : BufferPool IdealDisk} {others : Pages}
    (ready : pool.LoadsPage pages pins) (shows : after.ShowsPages others pins) (tidy : after.Tidy)
    (size : after.poolSize = pool.poolSize) : after.LoadsPage others pins := by
  refine ⟨shows, tidy, ?_⟩
  rw [shows.allPinned_iff, size, ← ready.shows.allPinned_iff]
  exact ready.loads

/-- A new pool with some frames. -/
theorem loadsPage_new {poolSize : Nat} (some : 0 < poolSize) (count : Nat) (initial : Int → Bytes) :
    (BufferPool.new poolSize (IdealDisk.start count initial) .noop).LoadsPage
      { nextPageId := count, contents := (IdealDisk.start count initial).bytes } [] := by
  have shows := showsPages_new poolSize count initial
  refine ⟨shows, tidy_new poolSize _, fun all => ?_⟩
  obtain ⟨pin, member, -⟩ := shows.allPinned_iff.mp all 0 some
  cases member

/-- `FetchPage` serves, and the page is pinned. -/
theorem LoadsPage.fetch (ready : pool.LoadsPage pages pins) (allocated : pages.Allocated pageId) :
    ∃ frame, (pool.fetchPage pageId).1 = some frame ∧
      (pool.fetchPage pageId).2.ShowsPages pages ({ pageId, frame } :: pins) := by
  have served := ready.tidy.fetchPage_ne_none_iff.mpr (Or.inr ready.loads : pool.Brings pageId)
  rcases ready.shows.fetchPage allocated with ⟨refused, -⟩ | fetched
  · exact absurd refused served
  · exact fetched

/-- Fetching a page and releasing it again, as it was. -/
theorem LoadsPage.visit (ready : pool.LoadsPage pages pins) (allocated : pages.Allocated pageId) :
    ∃ frame, (pool.fetchPage pageId).1 = some frame ∧
      (pool.fetchPage pageId).2.ShowsPages pages ({ pageId, frame } :: pins) ∧
      ((pool.fetchPage pageId).2.unpinPage pageId false).2.LoadsPage pages pins := by
  obtain ⟨frame, fetched, held⟩ := ready.fetch allocated
  have released := @ShowsPages.unpinPage _ _ _ _ false held (by simp)
  refine ⟨frame, fetched, held,
    ready.of_shows released ((ready.tidy.fetchPage pageId).unpinPage pageId false) ?_⟩
  exact (poolSize_unpinPage _ _ _).trans (poolSize_fetchPage pool pageId)

/-- Fetching a page, writing it and releasing it. -/
theorem LoadsPage.rewrite (ready : pool.LoadsPage pages pins) (allocated : pages.Allocated pageId)
    (data : Bytes) :
    ∃ frame, (pool.fetchPage pageId).1 = some frame ∧
      (pool.fetchPage pageId).2.ShowsPages pages ({ pageId, frame } :: pins) ∧
      (((pool.fetchPage pageId).2.modifyPage frame fun page => page.setData data).unpinPage pageId
        true).2.LoadsPage (pages.write pageId data) pins := by
  obtain ⟨frame, fetched, held⟩ := ready.fetch allocated
  have written := idealService.putData held data
  have released := @PageService.unpinPage _ idealService _ _ _ _ true written fun _ => rfl
  have tidy := ((ready.tidy.fetchPage pageId).handle (.putData frame data)).unpinPage pageId true
  refine ⟨frame, fetched, held, ready.of_shows released tidy ?_⟩
  exact (poolSize_unpinPage _ _ _).trans (poolSize_fetchPage pool pageId)

/-- A new page that is written and released. -/
theorem LoadsPage.create (ready : pool.LoadsPage pages pins) (data : Bytes) :
    ∃ frame, pool.newPage.1 = some (pages.nextPageId, frame) ∧
      pool.newPage.2.ShowsPages pages.add ({ pageId := pages.nextPageId, frame } :: pins) ∧
      (((pool.newPage.2.modifyPage frame fun page => page.setData data).modifyPage frame fun page =>
        page.setDirty true).unpinPage pages.nextPageId true).2.LoadsPage
          (pages.add.write pages.nextPageId data) pins := by
  rcases ready.tidy.newPage_cases with ⟨all, -⟩ | ⟨-, served, tidy⟩
  · exact absurd all ready.loads
  · rcases ready.shows.newPage with ⟨refused, -⟩ | ⟨frame, made, held⟩
    · exact absurd refused served
    · have written := idealService.putData held data
      have marked := idealService.setDirty written List.mem_cons_self
      have released := @PageService.unpinPage _ idealService _ _ _ _ true marked fun _ => rfl
      have tidyAfter := ((tidy.handle (.putData frame data)).handle (.setDirty frame)).unpinPage
        pages.nextPageId true
      refine ⟨frame, made, held, ready.of_shows released tidyAfter ?_⟩
      exact (poolSize_unpinPage _ _ _).trans (poolSize_newPage pool)

end BufferPool

end MiniDB.Buffer
