import MiniDB.Buffer.Latches

/-!
# The pool as a store of pages

As long as a null frame is left for every new page, the pool is a map from page
ids to bytes: a page stays in its frame, and a pointer to it stays good. `Serves`
says what requests make of the map, and there is one rule for each request.
-/

namespace MiniDB.Buffer

open Foundation Storage

namespace BufferPool

variable {pool middle after : BufferPool DiskManager} {pageId : Int} {frame : Nat}

/-- The pool `after` serves `contents` from the frames of `pool`. -/
structure Serves (pool : BufferPool DiskManager) (contents : Int → Option Bytes)
    (after : BufferPool DiskManager) : Prop where
  settled : after.frames.Settled
  contents : after.frames.contents = contents
  table : after.frames.pageTable = pool.frames.pageTable
  free : after.findFree = pool.findFree
  next : after.frames.disk.nextPageId = pool.frames.disk.nextPageId

theorem Serves.refl (settled : pool.frames.Settled) : pool.Serves pool.frames.contents pool :=
  ⟨settled, rfl, rfl, rfl, rfl⟩

theorem Serves.trans {first second : Int → Option Bytes} (before : pool.Serves first middle)
    (later : middle.Serves second after) : pool.Serves second after :=
  ⟨later.settled, later.contents, later.table.trans before.table, later.free.trans before.free,
    later.next.trans before.next⟩

/-- Work on one page. -/
theorem OnPage.serves {page : Page} (here : pool.OnPage frame page after)
    (settled : pool.frames.Settled) (found : pool.frames.pageTable.lookup pageId = some frame)
    (sameId : page.pageId = pageId) :
    pool.Serves (Function.update pool.frames.contents pageId (some page.data)) after := by
  obtain ⟨before, held, -⟩ := settled.agrees.mapped found
  obtain ⟨settledAfter, contents⟩ := here.settled settled found sameId
  exact ⟨settledAfter, contents, here.lookup_eq, here.findFree_eq held, by simp [here.frames]⟩

/-- Work on one page that leaves its bytes. -/
theorem OnPage.serves_same {page before : Page} (here : pool.OnPage frame page after)
    (settled : pool.frames.Settled) (found : pool.frames.pageTable.lookup pageId = some frame)
    (held : pool.frames.pages frame = some before) (sameId : page.pageId = before.pageId)
    (sameData : page.data = before.data) : pool.Serves pool.frames.contents after := by
  have serves := here.serves settled found (sameId.trans (settled.agrees.pageId_eq found held))
  rwa [sameData, ← Frames.contents_of_lookup found held, Function.update_eq_self] at serves

/-- A pointer to a resident page: its id and its bytes. -/
theorem pageAt_of_lookup (settled : pool.frames.Settled)
    (found : pool.frames.pageTable.lookup pageId = some frame) :
    (pool.pageAt frame).pageId = pageId ∧
      pool.frames.contents pageId = some (pool.pageAt frame).data := by
  obtain ⟨page, held, named⟩ := settled.agrees.mapped found
  rw [Frames.contents_of_lookup found held]
  simp [pageAt, held, named]

theorem exists_frame (settled : pool.frames.Settled) {data : Bytes}
    (resident : pool.frames.contents pageId = some data) :
    ∃ frame, pool.frames.pageTable.lookup pageId = some frame := by
  obtain ⟨frame, -, found, -⟩ := settled.agrees.of_contents resident
  exact ⟨frame, found⟩

/-- A resident page is not the one that is issued next. -/
theorem ne_nextPageId (settled : pool.frames.Settled) {pageData : Bytes}
    (resident : pool.frames.contents pageId = some pageData) :
    pageId ≠ pool.frames.disk.nextPageId := by
  obtain ⟨frame, found⟩ := exists_frame settled resident
  exact Int.ne_of_lt (settled.issued found).2

/-- `FetchPage` of a resident page. -/
theorem serves_fetchPage (settled : pool.frames.Settled)
    (found : pool.frames.pageTable.lookup pageId = some frame) :
    (pool.fetchPage pageId).1 = some frame ∧
      pool.Serves pool.frames.contents (pool.fetchPage pageId).2 := by
  obtain ⟨page, held, -⟩ := settled.agrees.mapped found
  obtain ⟨hit, here⟩ := (OnPage.start held).fetchPage found
  exact ⟨hit, here.serves_same settled found held rfl rfl⟩

/-- A change of the bytes through a pointer. -/
theorem serves_putData (settled : pool.frames.Settled)
    (found : pool.frames.pageTable.lookup pageId = some frame) (data : Bytes) :
    pool.Serves (Function.update pool.frames.contents pageId (some data))
      (pool.modifyPage frame fun page => page.setData data) := by
  obtain ⟨page, held, named⟩ := settled.agrees.mapped found
  exact ((OnPage.start held).modifyPage fun page => page.setData data).serves settled found named

theorem serves_setDirty (settled : pool.frames.Settled)
    (found : pool.frames.pageTable.lookup pageId = some frame) :
    pool.Serves pool.frames.contents (pool.modifyPage frame fun page => page.setDirty true) := by
  obtain ⟨page, held, -⟩ := settled.agrees.mapped found
  exact ((OnPage.start held).modifyPage fun page => page.setDirty true).serves_same settled found
    held rfl rfl

/-- `UnpinPage`, whether or not there is a pin to release. -/
theorem serves_unpinPage (settled : pool.frames.Settled) (pageId : Int) (isDirty : Bool) :
    pool.Serves pool.frames.contents (pool.unpinPage pageId isDirty).2 := by
  have unpins := pool.unpinPage_unpins pageId isDirty
  have size := pool.poolSize_unpinPage pageId isDirty
  generalize (pool.unpinPage pageId isDirty).1 = result at unpins
  generalize framesEq : (pool.unpinPage pageId isDirty).2.frames = frames at unpins
  cases unpins with
  | refused unpinned =>
    have free : (pool.unpinPage pageId isDirty).2.findFree = pool.findFree := by
      simp only [findFree, framesEq, size]
    exact ⟨framesEq ▸ settled, by rw [framesEq], by rw [framesEq], free, by rw [framesEq]⟩
  | @released frame page resident held pinned =>
    have here : pool.OnPage frame (released page isDirty) (pool.unpinPage pageId isDirty).2 :=
      ⟨size, framesEq⟩
    exact here.serves_same settled resident held (by simp) (by simp)

/-- The page is resident and somebody holds a pin of it. -/
def IsPinned (pool : BufferPool DiskManager) (pageId : Int) : Prop :=
  ∃ frame page, pool.frames.pageTable.lookup pageId = some frame ∧
    pool.frames.pages frame = some page ∧ page.pinCount ≠ 0

theorem isPinned_fetchPage (settled : pool.frames.Settled)
    (found : pool.frames.pageTable.lookup pageId = some frame) :
    (pool.fetchPage pageId).2.IsPinned pageId := by
  obtain ⟨page, held, -⟩ := settled.agrees.mapped found
  obtain ⟨-, here⟩ := (OnPage.start held).fetchPage found
  exact ⟨frame, page.pin, by rw [here.lookup_eq, found], here.held, Nat.succ_ne_zero _⟩

/-- A change through a pointer that releases no pin. -/
theorem IsPinned.modifyPage (pinned : pool.IsPinned pageId) (change : Page → Page)
    (samePins : ∀ page, (change page).pinCount = page.pinCount) (frame : Nat) :
    (pool.modifyPage frame change).IsPinned pageId := by
  obtain ⟨holder, page, found, held, pins⟩ := pinned
  by_cases same : holder = frame
  · subst same
    refine ⟨holder, change page, found, ?_, by rwa [samePins]⟩
    simp [BufferPool.modifyPage, Frames.modifyPage, held]
  · refine ⟨holder, page, found, ?_, pins⟩
    simp only [BufferPool.modifyPage, Frames.modifyPage]
    rw [Frames.setFrame_pages_of_ne _ same, held]

/-- `DeletePage` of a pinned page is refused. -/
theorem serves_deletePage (settled : pool.frames.Settled) (pinned : pool.IsPinned pageId) :
    pool.Serves pool.frames.contents (pool.deletePage pageId).2 := by
  obtain ⟨frame, page, found, held, pins⟩ := pinned
  exact ((OnPage.start held).deletePage found pins).serves_same settled found held rfl rfl

/-- A page of zeros was added under the next id. -/
structure Adds (pool : BufferPool DiskManager) (frame : Nat) (after : BufferPool DiskManager) :
    Prop where
  settled : after.frames.Settled
  found : after.frames.pageTable.lookup pool.frames.disk.nextPageId = some frame
  kept : ∀ {pageId : Int} {holder : Nat}, pool.frames.pageTable.lookup pageId = some holder →
    after.frames.pageTable.lookup pageId = some holder
  contents : after.frames.contents =
    Function.update pool.frames.contents pool.frames.disk.nextPageId (some Bytes.zeros)
  next : after.frames.disk.nextPageId = pool.frames.disk.nextPageId + 1

/-- `NewPage` with a null frame left. -/
theorem adds_newPage (settled : pool.frames.Settled) (free : pool.findFree ≠ none) :
    ∃ frame, pool.newPage.1 = some (pool.frames.disk.nextPageId, frame) ∧
      pool.Adds frame pool.newPage.2 := by
  obtain ⟨frame, foundFree⟩ := Option.ne_none_iff_exists'.mp free
  obtain ⟨served, frames⟩ := newPage_of_findFree foundFree
  obtain ⟨page, fresh⟩ := newPage_fresh settled served
  have absent := settled.lookup_next
  refine ⟨frame, served, fresh.settled, fresh.found, ?_, ?_, by rw [frames]; rfl⟩
  · intro pageId holder found
    have different : pageId ≠ pool.frames.disk.nextPageId := by
      rintro rfl
      rw [absent] at found
      cases found
    rw [frames]
    exact (AList.lookup_insert_ne different).trans found
  · ext1 other
    by_cases same : other = pool.frames.disk.nextPageId
    · rw [same, Function.update_self, Frames.contents_of_lookup fresh.found fresh.held]
      have held := fresh.held
      rw [frames] at held
      have placed : (pool.frames.addPage frame).2.pages frame =
          some (((pool.frames.preparePage frame pool.frames.disk.nextPageId).pin).setDirty false) :=
        Frames.setFrame_pages _ _ _
      rw [← Option.some.inj (placed.symm.trans held)]
      rfl
    · rw [Function.update_of_ne same, contents_newPage settled foundFree same]

/-- A client holds a pin of the page and the pointer to it; the bytes are as before. -/
structure Holds (pool : BufferPool DiskManager) (pageId : Int) (frame : Nat)
    (after : BufferPool DiskManager) : Prop where
  serves : pool.Serves pool.frames.contents after
  found : after.frames.pageTable.lookup pageId = some frame
  pinned : after.IsPinned pageId

/-- A page that is fetched is held. -/
theorem holds_fetchPage (settled : pool.frames.Settled) {data : Bytes}
    (resident : pool.frames.contents pageId = some data) :
    ∃ frame, (pool.fetchPage pageId).1 = some frame ∧
      pool.Holds pageId frame (pool.fetchPage pageId).2 ∧
      ((pool.fetchPage pageId).2.pageAt frame).data = data := by
  obtain ⟨frame, found⟩ := exists_frame settled resident
  obtain ⟨hit, fetched⟩ := serves_fetchPage settled found
  have foundAfter := fetched.table ▸ found
  have held := (pageAt_of_lookup fetched.settled foundAfter).2
  rw [fetched.contents, resident] at held
  exact ⟨frame, hit, ⟨fetched, foundAfter, isPinned_fetchPage settled found⟩,
    (Option.some.inj held).symm⟩

/-- The pool `after` holds `contents`, and `count` new pages were made. The pointers
to the pages stay good. -/
structure Becomes (pool : BufferPool DiskManager) (contents : Int → Option Bytes) (count : Nat)
    (after : BufferPool DiskManager) : Prop where
  settled : after.frames.Settled
  contents : after.frames.contents = contents
  kept : ∀ {pageId : Int} {holder : Nat}, pool.frames.pageTable.lookup pageId = some holder →
    after.frames.pageTable.lookup pageId = some holder
  next : after.frames.disk.nextPageId = pool.frames.disk.nextPageId + count

theorem Serves.becomes {contents : Int → Option Bytes} (serves : pool.Serves contents after) :
    pool.Becomes contents 0 after :=
  ⟨serves.settled, serves.contents, fun found => serves.table ▸ found, by simp [serves.next]⟩

theorem Adds.becomes (adds : pool.Adds frame after) :
    pool.Becomes (Function.update pool.frames.contents pool.frames.disk.nextPageId
      (some Bytes.zeros)) 1 after :=
  ⟨adds.settled, adds.contents, adds.kept, adds.next⟩

theorem Becomes.trans {first second : Int → Option Bytes} {count more : Nat}
    (before : pool.Becomes first count middle) (later : middle.Becomes second more after) :
    pool.Becomes second (count + more) after :=
  ⟨later.settled, later.contents, fun found => later.kept (before.kept found),
    by rw [later.next, before.next]; omega⟩

/-- A new page is zeros. -/
theorem Adds.data_eq (adds : pool.Adds frame after) : (after.pageAt frame).data = Bytes.zeros := by
  have held := (pageAt_of_lookup adds.settled adds.found).2
  rw [adds.contents, Function.update_self] at held
  exact (Option.some.inj held).symm

/-- The bytes of a new page are written. -/
theorem Adds.putData (adds : pool.Adds frame after) (data : Bytes) :
    after.Serves (Function.update pool.frames.contents pool.frames.disk.nextPageId (some data))
      (after.modifyPage frame fun page => page.setData data) := by
  have written := serves_putData adds.settled adds.found data
  rwa [adds.contents, Function.update_idem] at written

/-- A new page is written, marked as dirty and released. -/
theorem Adds.fill (adds : pool.Adds frame after) (data : Bytes) :
    pool.Becomes (Function.update pool.frames.contents pool.frames.disk.nextPageId (some data)) 1
      (((after.modifyPage frame fun page => page.setData data).modifyPage frame
        fun page => page.setDirty true).unpinPage pool.frames.disk.nextPageId true).2 := by
  have written := adds.putData data
  have marked := serves_setDirty written.settled (written.table ▸ adds.found)
  have released := serves_unpinPage marked.settled pool.frames.disk.nextPageId true
  rw [written.contents] at marked
  rw [marked.contents] at released
  exact adds.becomes.trans ((written.trans marked).trans released).becomes

end BufferPool

end MiniDB.Buffer
