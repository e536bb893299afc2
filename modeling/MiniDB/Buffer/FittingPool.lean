import MiniDB.Buffer.Latches
import MiniDB.Buffer.LentPages
import MiniDB.Buffer.Transparency

/-!
# Programs that fit in the pool

A program that creates no more pages than the pool has frames, and fetches and keeps only
these, finds every page in the pool. What the disk does with the bytes that it is given is
then never seen, and no latch is taken twice: the pool over the disk manager behaves as one
over a disk that keeps what it is given, with a replacer whose latch is a no-op.
-/

namespace MiniDB.Buffer

open Foundation Storage

variable {D E : Type} [IssuesIds D] [IssuesIds E]

/-! ## Pools over two disks -/

/-- The disks issue the same ids, and stay related when both allocate a page or write one
that is admitted. -/
structure KeptByWrites (related : D → E → Prop) (admits : Int → Prop) : Prop where
  next : ∀ {disk : D} {other : E}, related disk other → nextPageId disk = nextPageId other
  allocPage : ∀ {disk : D} {other : E}, related disk other →
    related (Disk.allocPage disk).2 (Disk.allocPage other).2
  writePage : ∀ {disk : D} {other : E} {pageId : Int} (data : Bytes), admits pageId →
    related disk other → related (Disk.writePage disk pageId data) (Disk.writePage other pageId data)

/-- Writing changes no id. -/
theorem keptByWrites_nextPageId (admits : Int → Prop) :
    KeptByWrites (fun (disk : D) (other : E) => nextPageId disk = nextPageId other) admits where
  next same := same
  allocPage same := by rw [IssuesIds.allocPage_next, IssuesIds.allocPage_next, same]
  writePage data _ same := by rw [IssuesIds.writePage_keeps, IssuesIds.writePage_keeps, same]

variable {related : D → E → Prop} {admits : Int → Prop}

namespace Frames

/-- The same pages in the same frames, over disks that are related. -/
structure Twin (related : D → E → Prop) (frames : Frames D) (other : Frames E) : Prop where
  pages : frames.pages = other.pages
  pageTable : frames.pageTable = other.pageTable
  disk : related frames.disk other.disk

variable {frames : Frames D} {other : Frames E}

omit [IssuesIds D] [IssuesIds E] in
/-- The same page is put into both frames. -/
theorem Twin.setFrame (twin : frames.Twin related other) (frame : Nat) (page : Option Page) :
    (frames.setFrame frame page).Twin related (other.setFrame frame page) :=
  ⟨by simp only [Frames.setFrame, twin.pages], twin.pageTable, twin.disk⟩

omit [IssuesIds D] [IssuesIds E] in
/-- The same change is made to both pages. -/
theorem Twin.modifyPage (twin : frames.Twin related other) (frame : Nat) (change : Page → Page) :
    (frames.modifyPage frame change).Twin related (other.modifyPage frame change) := by
  rw [Frames.modifyPage, Frames.modifyPage, twin.pages]
  exact twin.setFrame frame _

/-- A page of both is written back. -/
theorem Twin.writeBack (kept : KeptByWrites related admits) (twin : frames.Twin related other)
    {pageId : Int} (admitted : admits pageId) (page : Page) :
    (frames.writeBack pageId page).Twin related (other.writeBack pageId page) := by
  unfold Frames.writeBack
  split
  · exact ⟨twin.pages, twin.pageTable, kept.writePage page.data admitted twin.disk⟩
  · exact twin

/-- A new page gets the same id and is put in the same way. -/
theorem Twin.addPage (kept : KeptByWrites related admits) (twin : frames.Twin related other)
    (frame : Nat) :
    (frames.addPage frame).1 = (other.addPage frame).1 ∧
      (frames.addPage frame).2.Twin related (other.addPage frame).2 := by
  have sameId : (Disk.allocPage frames.disk).1 = (Disk.allocPage other.disk).1 := by
    rw [IssuesIds.allocPage_id, IssuesIds.allocPage_id, kept.next twin.disk]
  refine ⟨sameId, ?_, ?_, ?_⟩
  · simp only [Frames.addPage, place, Frames.setFrame, preparePage, twin.pages, sameId]
  · simp only [Frames.addPage, place, Frames.setFrame, preparePage, twin.pages, twin.pageTable,
      sameId]
  · exact kept.allocPage twin.disk

/-- A page of both is dropped. -/
theorem Twin.dropPage (kept : KeptByWrites related admits) (twin : frames.Twin related other)
    (frame : Nat) {pageId : Int} (admitted : admits pageId) (page : Page) :
    (frames.dropPage frame pageId page).Twin related (other.dropPage frame pageId page) := by
  have written := twin.writeBack kept admitted page
  have erased : ({ frames.writeBack pageId page with
      pageTable := (frames.writeBack pageId page).pageTable.erase pageId } : Frames D).Twin related
        { other.writeBack pageId page with
          pageTable := (other.writeBack pageId page).pageTable.erase pageId } :=
    ⟨written.pages, by rw [written.pageTable], written.disk⟩
  exact erased.setFrame frame none

/-- The page table leads to pages that are admitted only. -/
def Admits (admits : Int → Prop) (frames : Frames D) : Prop :=
  ∀ {pageId : Int} {frame : Nat}, frames.pageTable.lookup pageId = some frame → admits pageId

/-- Both write the page, or neither. -/
theorem Twin.flushPageInternal (kept : KeptByWrites related admits)
    (twin : frames.Twin related other) (admitted : frames.Admits admits) (pageId : Int) :
    (frames.flushPageInternal pageId).1 = (other.flushPageInternal pageId).1 ∧
      (frames.flushPageInternal pageId).2.Twin related (other.flushPageInternal pageId).2 := by
  unfold Frames.flushPageInternal
  rw [← twin.pageTable, ← twin.pages]
  cases found : frames.pageTable.lookup pageId with
  | none => exact ⟨rfl, twin⟩
  | some frame =>
    dsimp only
    cases frames.pages frame with
    | none => exact ⟨rfl, twin⟩
    | some page =>
      dsimp only
      split
      · exact ⟨rfl, (twin.writeBack kept (admitted found) page).setFrame frame _⟩
      · exact ⟨rfl, twin⟩

end Frames

namespace BufferPool

/-- Pools of one size with the same pages in the same frames. -/
structure Twin (related : D → E → Prop) (pool : BufferPool D) (other : BufferPool E) : Prop where
  poolSize : pool.poolSize = other.poolSize
  frames : pool.frames.Twin related other.frames

variable {pool : BufferPool D} {other : BufferPool E}

omit [IssuesIds D] [IssuesIds E] in
/-- Both find the same null frame. -/
theorem Twin.findFree (twin : pool.Twin related other) : pool.findFree = other.findFree := by
  simp only [BufferPool.findFree, twin.poolSize, twin.frames.pages]

/-- A resident page is found in both. -/
theorem Twin.fetchPage (twin : pool.Twin related other) {pageId : Int}
    (resident : pool.frames.pageTable.lookup pageId ≠ none) :
    (pool.fetchPage pageId).1 = (other.fetchPage pageId).1 ∧
      (pool.fetchPage pageId).2.Twin related (other.fetchPage pageId).2 := by
  obtain ⟨frame, found⟩ := Option.ne_none_iff_exists'.mp resident
  have foundOther : other.frames.pageTable.lookup pageId = some frame :=
    twin.frames.pageTable ▸ found
  unfold BufferPool.fetchPage lockGuard
  dsimp only [Guarded.setMutex]
  rw [found, foundOther]
  exact ⟨rfl, twin.poolSize, twin.frames.modifyPage frame Page.pin⟩

omit [IssuesIds D] in
/-- With a null frame `NewPage` takes it. -/
theorem newPage_of_free [Disk D] {frame : Nat} (found : pool.findFree = some frame) :
    pool.newPage.1 = some ((pool.frames.addPage frame).1, frame) ∧
      pool.newPage.2.frames = (pool.frames.addPage frame).2 ∧
      pool.newPage.2.poolSize = pool.poolSize := by
  have locked : ({ pool with latch := pool.latch.lock } : BufferPool D).findFree = some frame :=
    found
  unfold newPage lockGuard
  dsimp only [Guarded.setMutex, Guarded.mutex]
  rw [obtainFrame, locked]
  exact ⟨rfl, rfl, rfl⟩

/-- With a null frame left, both make the same page. -/
theorem Twin.newPage (kept : KeptByWrites related admits) (twin : pool.Twin related other)
    (free : pool.findFree ≠ none) :
    pool.newPage.1 = other.newPage.1 ∧ pool.newPage.2.Twin related other.newPage.2 := by
  obtain ⟨frame, found⟩ := Option.ne_none_iff_exists'.mp free
  obtain ⟨answer, frames, size⟩ := newPage_of_free found
  obtain ⟨answerOther, framesOther, sizeOther⟩ := newPage_of_free (twin.findFree ▸ found)
  obtain ⟨sameId, added⟩ := twin.frames.addPage kept frame
  refine ⟨by rw [answer, answerOther, sameId], ?_, ?_⟩
  · rw [size, sizeOther, twin.poolSize]
  · rw [frames, framesOther]
    exact added

omit [IssuesIds D] [IssuesIds E] in
/-- `UnpinPage` does the same to both. -/
theorem Twin.unpinPage (twin : pool.Twin related other) (pageId : Int) (isDirty : Bool) :
    (pool.unpinPage pageId isDirty).1 = (other.unpinPage pageId isDirty).1 ∧
      (pool.unpinPage pageId isDirty).2.Twin related (other.unpinPage pageId isDirty).2 := by
  unfold BufferPool.unpinPage lockGuard
  dsimp only [Guarded.setMutex]
  rw [← twin.frames.pageTable]
  cases pool.frames.pageTable.lookup pageId with
  | none => exact ⟨rfl, twin.poolSize, twin.frames⟩
  | some frame =>
    dsimp only
    rw [← twin.frames.pages]
    cases pool.frames.pages frame with
    | none => exact ⟨rfl, twin.poolSize, twin.frames⟩
    | some page =>
      dsimp only
      by_cases unpinned : page.pinCount = 0
      · rw [if_pos unpinned, if_pos unpinned]
        exact ⟨rfl, twin.poolSize, twin.frames⟩
      · rw [if_neg unpinned, if_neg unpinned]
        split <;> exact ⟨rfl, twin.poolSize, twin.frames.setFrame frame _⟩

/-- `DeletePage` does the same to both. -/
theorem Twin.deletePage (kept : KeptByWrites related admits) (twin : pool.Twin related other)
    (admitted : pool.frames.Admits admits) (pageId : Int) :
    (pool.deletePage pageId).1 = (other.deletePage pageId).1 ∧
      (pool.deletePage pageId).2.Twin related (other.deletePage pageId).2 := by
  unfold BufferPool.deletePage lockGuard
  dsimp only [Guarded.setMutex]
  rw [← twin.frames.pageTable]
  cases found : pool.frames.pageTable.lookup pageId with
  | none => exact ⟨rfl, twin.poolSize, twin.frames⟩
  | some frame =>
    dsimp only
    rw [← twin.frames.pages]
    cases pool.frames.pages frame with
    | none => exact ⟨rfl, twin.poolSize, twin.frames⟩
    | some page =>
      dsimp only
      split
      · exact ⟨rfl, twin.poolSize, twin.frames⟩
      · exact ⟨rfl, twin.poolSize, twin.frames.dropPage kept frame (admitted found) page⟩

/-- `FlushPage` does the same to both. -/
theorem Twin.flushPage (kept : KeptByWrites related admits) (twin : pool.Twin related other)
    (admitted : pool.frames.Admits admits) (pageId : Int) :
    (pool.flushPage pageId).1 = (other.flushPage pageId).1 ∧
      (pool.flushPage pageId).2.Twin related (other.flushPage pageId).2 := by
  obtain ⟨sameAnswer, flushed⟩ := twin.frames.flushPageInternal kept admitted pageId
  exact ⟨sameAnswer, twin.poolSize, flushed⟩

omit [IssuesIds D] in
/-- A page that keeps its id leaves the ids. -/
theorem ids_setFrame {frames : Frames D} {frame : Nat} {page changed : Page}
    (held : frames.pages frame = some page) (sameId : changed.pageId = page.pageId) (other : Nat) :
    ((frames.setFrame frame (some changed)).pages other).map Page.pageId =
      (frames.pages other).map Page.pageId := by
  by_cases same : other = frame
  · subst same
    rw [Frames.setFrame_pages, held, Option.map_some, Option.map_some, sameId]
  · rw [Frames.setFrame_pages_of_ne _ same]

/-- A page that is written leaves the ids, the table and the next id. -/
theorem ids_flushes {frames after : Frames D} {pageId : Int}
    (flushes : frames.Flushes pageId after) :
    (∀ frame, (after.pages frame).map Page.pageId = (frames.pages frame).map Page.pageId) ∧
      after.pageTable = frames.pageTable ∧ nextPageId after.disk = nextPageId frames.disk := by
  cases flushes with
  | unchanged => exact ⟨fun _ => rfl, rfl, rfl⟩
  | @written frame page resident held dirty =>
    refine ⟨fun other => ?_, ?_, Frames.nextPageId_writeBack frames pageId page⟩
    · rw [Frames.writeBack_eq]
      exact @ids_setFrame _ { frames with disk := (frames.writeBack pageId page).disk } frame page
        (page.setDirty false) held rfl other
    · rw [Frames.writeBack_eq]
      rfl

/-- `FlushAllPages` does the same to both. -/
theorem Twin.flushAllPages (kept : KeptByWrites related admits) (twin : pool.Twin related other)
    (admitted : pool.frames.Admits admits) :
    pool.flushAllPages.Twin related other.flushAllPages := by
  have flushed : ∀ (pageIds : List Int) (frames : Frames D) (others : Frames E),
      frames.Twin related others → frames.Admits admits →
      (pageIds.foldl (fun frames pageId => (frames.flushPageInternal pageId).2) frames).Twin related
        (pageIds.foldl (fun frames pageId => (frames.flushPageInternal pageId).2) others) := by
    intro pageIds
    induction pageIds with
    | nil => exact fun _ _ twins _ => twins
    | cons pageId pageIds ih =>
      intro frames others twins admitted
      refine ih _ _ (twins.flushPageInternal kept admitted pageId).2 fun found => ?_
      rw [(ids_flushes (frames.flushPageInternal_flushes pageId)).2.1] at found
      exact admitted found
  refine ⟨twin.poolSize, ?_⟩
  have keys : pool.frames.pageTable.keys = other.frames.pageTable.keys := by
    rw [twin.frames.pageTable]
  change (pool.frames.pageTable.keys.foldl _ pool.frames).Twin related
    (other.frames.pageTable.keys.foldl _ other.frames)
  rw [← keys]
  exact flushed _ _ _ twin.frames admitted

omit [IssuesIds D] [IssuesIds E] in
theorem Twin.modifyPage (twin : pool.Twin related other) (frame : Nat) (change : Page → Page) :
    (pool.modifyPage frame change).Twin related (other.modifyPage frame change) :=
  ⟨twin.poolSize, twin.frames.modifyPage frame change⟩

omit [IssuesIds D] [IssuesIds E] in
/-- A client finds the same page in both. -/
theorem Twin.pageAt (twin : pool.Twin related other) (frame : Nat) :
    pool.pageAt frame = other.pageAt frame := by
  rw [BufferPool.pageAt, BufferPool.pageAt, twin.frames.pages]

/-- What is fetched is resident, and there is a null frame for a new page. -/
def StaysInside (request : PoolRequest) (pool : BufferPool D) : Prop :=
  match request with
  | .fetchPage pageId => pool.frames.pageTable.lookup pageId ≠ none
  | .newPage => pool.findFree ≠ none
  | _ => True

/-- A request that stays inside the pool has the same answer over both disks. -/
theorem Twin.handle (kept : KeptByWrites related admits) (twin : pool.Twin related other)
    (admitted : pool.frames.Admits admits) (request : PoolRequest)
    (inside : StaysInside request pool) :
    (BufferPool.handle request pool).1 = (BufferPool.handle request other).1 ∧
      (BufferPool.handle request pool).2.Twin related (BufferPool.handle request other).2 := by
  cases request with
  | fetchPage pageId => exact twin.fetchPage inside
  | newPage => exact twin.newPage kept inside
  | unpinPage pageId isDirty => exact twin.unpinPage pageId isDirty
  | deletePage pageId => exact twin.deletePage kept admitted pageId
  | flushPage pageId => exact twin.flushPage kept admitted pageId
  | flushAllPages => exact ⟨rfl, twin.flushAllPages kept admitted⟩
  | getPageId frame => exact ⟨congrArg Page.pageId (twin.pageAt frame), twin⟩
  | getData frame => exact ⟨congrArg Page.data (twin.pageAt frame), twin⟩
  | putData frame data => exact ⟨rfl, twin.modifyPage frame _⟩
  | setDirty frame => exact ⟨rfl, twin.modifyPage frame _⟩

omit [IssuesIds D] in
/-- No request that stays inside changes the size of the pool. -/
theorem poolSize_handle [Disk D] (request : PoolRequest) (inside : StaysInside request pool) :
    (BufferPool.handle request pool).2.poolSize = pool.poolSize := by
  cases request with
  | fetchPage pageId =>
    obtain ⟨frame, found⟩ := Option.ne_none_iff_exists'.mp inside
    change (pool.fetchPage pageId).2.poolSize = pool.poolSize
    unfold BufferPool.fetchPage lockGuard
    dsimp only [Guarded.setMutex]
    rw [found]
    rfl
  | newPage =>
    obtain ⟨frame, found⟩ := Option.ne_none_iff_exists'.mp inside
    exact (newPage_of_free found).2.2
  | unpinPage pageId isDirty =>
    change (pool.unpinPage pageId isDirty).2.poolSize = pool.poolSize
    unfold BufferPool.unpinPage lockGuard
    dsimp only
    repeat' split
    all_goals rfl
  | deletePage pageId =>
    change (pool.deletePage pageId).2.poolSize = pool.poolSize
    unfold BufferPool.deletePage lockGuard
    dsimp only
    repeat' split
    all_goals rfl
  | flushPage _ | flushAllPages | getPageId _ | getData _ | putData _ _ | setDirty _ => rfl

/-! ## Pools that are filled from the first frame on -/

/-- The pages issued from `first` on are in the frames in this order, and no other page
is in the pool. -/
structure Filled (first : Int) (pool : BufferPool D) : Prop where
  started : first ≤ nextPageId pool.frames.disk
  ids : ∀ frame, (pool.frames.pages frame).map Page.pageId =
    if first + frame < nextPageId pool.frames.disk then some (first + frame) else none
  found : ∀ frame : Nat, first + frame < nextPageId pool.frames.disk →
    pool.frames.pageTable.lookup (first + frame) = some frame
  keys : pool.frames.Admits fun pageId =>
    first ≤ pageId ∧ pageId < nextPageId pool.frames.disk
  room : nextPageId pool.frames.disk ≤ first + pool.poolSize

/-- What a program that fits asks for: pages that were issued since `first`, no more new
ones than there are frames, and no deletion of an unpinned page. -/
def Fits (first : Int) (request : PoolRequest) (pool : BufferPool D) : Prop :=
  match request with
  | .fetchPage pageId => first ≤ pageId ∧ pageId < nextPageId pool.frames.disk
  | .newPage => nextPageId pool.frames.disk - first < pool.poolSize
  | .deletePage pageId => (pool.deletePage pageId).1 = false
  | _ => True

instance (first : Int) (request : PoolRequest) (pool : BufferPool D) :
    Decidable (Fits first request pool) :=
  match request with
  | .fetchPage _ => inferInstanceAs (Decidable (_ ∧ _))
  | .newPage => inferInstanceAs (Decidable (_ < _))
  | .deletePage _ => inferInstanceAs (Decidable (_ = _))
  | .unpinPage _ _ | .flushPage _ | .flushAllPages | .getPageId _ | .getData _ | .putData _ _
  | .setDirty _ => inferInstanceAs (Decidable True)

variable {first : Int}

/-- Pages that keep their ids, in frames that the table still leads to. -/
theorem Filled.keep (filled : pool.Filled first) {after : BufferPool D}
    (ids : ∀ frame, (after.frames.pages frame).map Page.pageId =
      (pool.frames.pages frame).map Page.pageId)
    (table : after.frames.pageTable = pool.frames.pageTable)
    (next : nextPageId after.frames.disk = nextPageId pool.frames.disk)
    (size : after.poolSize = pool.poolSize) : after.Filled first := by
  refine ⟨next ▸ filled.started, fun frame => ?_, fun frame => ?_, fun found => ?_, ?_⟩
  · rw [ids, filled.ids, next]
  · rw [table, next]
    exact filled.found frame
  · rw [table] at found
    rw [next]
    exact filled.keys found
  · rw [next, size]
    exact filled.room

theorem Filled.same (filled : pool.Filled first) {after : BufferPool D}
    (frames : after.frames = pool.frames) (size : after.poolSize = pool.poolSize) :
    after.Filled first :=
  filled.keep (fun _ => by rw [frames]) (by rw [frames]) (by rw [frames]) size

/-- A client that changes a page leaves its id. -/
theorem Filled.modifyPage (filled : pool.Filled first) (frame : Nat) {change : Page → Page}
    (sameId : ∀ page, (change page).pageId = page.pageId) :
    (pool.modifyPage frame change).Filled first := by
  refine filled.keep (fun other => ?_) rfl rfl rfl
  change ((pool.frames.modifyPage frame change).pages other).map Page.pageId = _
  unfold Frames.modifyPage
  cases held : pool.frames.pages frame with
  | none =>
    have same : pool.frames.setFrame frame none = pool.frames := by
      rw [Frames.setFrame, ← held, Function.update_eq_self]
    rw [Option.map_none, same]
  | some page => exact ids_setFrame held (sameId page) other

/-- `UnpinPage` takes no page out. -/
theorem Filled.unpinPage (filled : pool.Filled first) (pageId : Int) (isDirty : Bool) :
    (pool.unpinPage pageId isDirty).2.Filled first := by
  have unpins := pool.unpinPage_unpins pageId isDirty
  have size : (pool.unpinPage pageId isDirty).2.poolSize = pool.poolSize :=
    poolSize_handle (.unpinPage pageId isDirty) trivial
  generalize (pool.unpinPage pageId isDirty).1 = result at unpins
  generalize framesEq : (pool.unpinPage pageId isDirty).2.frames = frames at unpins
  cases unpins with
  | refused unpinned => exact filled.same framesEq size
  | released resident held pinned =>
    refine filled.keep (fun frame => ?_) ?_ ?_ size
    · rw [framesEq]
      exact ids_setFrame held (released_pageId _ _) frame
    · rw [framesEq]
      rfl
    · rw [framesEq]
      rfl

/-- The frame that `NewPage` takes is the one after those that are filled. -/
theorem Filled.findFree (filled : pool.Filled first)
    (room : nextPageId pool.frames.disk - first < pool.poolSize) :
    pool.findFree = some (nextPageId pool.frames.disk - first).toNat := by
  have started := filled.started
  rw [BufferPool.findFree, List.find?_range_eq_some]
  refine ⟨?_, List.mem_range.mpr (by omega), fun frame before => ?_⟩
  · have empty := filled.ids (nextPageId pool.frames.disk - first).toNat
    rw [if_neg (by omega)] at empty
    simpa using empty
  · have held := filled.ids frame
    rw [if_pos (by omega)] at held
    obtain ⟨page, isPage, -⟩ := Option.map_eq_some_iff.mp held
    simp [isPage]

/-- A new page is put into the next frame. -/
theorem Filled.newPage (filled : pool.Filled first)
    (room : nextPageId pool.frames.disk - first < pool.poolSize) :
    pool.newPage.2.Filled first := by
  have started := filled.started
  obtain ⟨-, frames, size⟩ := newPage_of_free (filled.findFree room)
  generalize isFrame : (nextPageId pool.frames.disk - first).toNat = frame at frames
  have nextId : (Disk.allocPage pool.frames.disk).1 = nextPageId pool.frames.disk :=
    IssuesIds.allocPage_id _
  have later : nextPageId (pool.frames.addPage frame).2.disk =
      nextPageId pool.frames.disk + 1 := IssuesIds.allocPage_next _
  have table : (pool.frames.addPage frame).2.pageTable =
      pool.frames.pageTable.insert (nextPageId pool.frames.disk) frame := by
    rw [← nextId]
    rfl
  refine ⟨?_, fun other => ?_, fun other issued => ?_, fun {pageId} {other} found => ?_, ?_⟩
  · rw [frames, later]
    omega
  · rw [frames, later]
    by_cases same : other = frame
    · subst same
      rw [if_pos (by omega)]
      have held : ((pool.frames.addPage other).2.pages other).map Page.pageId =
          some (Disk.allocPage pool.frames.disk).1 := by
        simp [Frames.addPage, Frames.place, Frames.preparePage, Page.setPageId]
      rw [held, nextId]
      exact congrArg some (by omega)
    · have kept : (pool.frames.addPage frame).2.pages other = pool.frames.pages other :=
        Function.update_of_ne same _ _
      rw [kept, filled.ids]
      exact if_congr (by omega) rfl rfl
  · rw [frames, later] at issued
    rw [frames, table]
    by_cases same : other = frame
    · subst same
      have isNext : first + (other : Int) = nextPageId pool.frames.disk := by omega
      rw [isNext]
      exact AList.lookup_insert _
    · rw [AList.lookup_insert_ne (by omega)]
      exact filled.found other (by omega)
  · rw [frames, table] at found
    rw [frames, later]
    by_cases same : pageId = nextPageId pool.frames.disk
    · omega
    · rw [AList.lookup_insert_ne same] at found
      obtain ⟨least, issued⟩ := filled.keys found
      omega
  · rw [frames, later, size]
    omega

/-- A program that fits stays inside the pool. -/
theorem Filled.staysInside (filled : pool.Filled first) {request : PoolRequest}
    (fits : Fits first request pool) : StaysInside request pool := by
  cases request with
  | fetchPage pageId =>
    obtain ⟨issuedSince, issued⟩ : first ≤ pageId ∧ pageId < nextPageId pool.frames.disk := fits
    have isPage : first + ((pageId - first).toNat : Int) = pageId := by omega
    have found := filled.found (pageId - first).toNat (isPage.symm ▸ issued)
    rw [isPage] at found
    exact fun absent => by cases absent.symm.trans found
  | newPage => exact fun none => by cases none.symm.trans (filled.findFree fits)
  | unpinPage _ _ | deletePage _ | flushPage _ | flushAllPages | getPageId _ | getData _
  | putData _ _ | setDirty _ => trivial

/-- A request that fits leaves the pool filled from its first frame on. -/
theorem Filled.handle (filled : pool.Filled first) {request : PoolRequest}
    (fits : Fits first request pool) : (BufferPool.handle request pool).2.Filled first := by
  have flushed := fun pageId => @flush_preserves _ _ pool pageId
    (fun after => (∀ frame, (after.pages frame).map Page.pageId =
        (pool.frames.pages frame).map Page.pageId) ∧
      after.pageTable = pool.frames.pageTable ∧
      nextPageId after.disk = nextPageId pool.frames.disk)
    (fun _ _ _ flushes kept => by
      obtain ⟨ids, table, next⟩ := ids_flushes flushes
      exact ⟨fun frame => (ids frame).trans (kept.1 frame), table.trans kept.2.1,
        next.trans kept.2.2⟩)
    ⟨fun _ => rfl, rfl, rfl⟩
  cases request with
  | fetchPage pageId =>
    have resident : pool.frames.pageTable.lookup pageId ≠ none := filled.staysInside fits
    have size : (pool.fetchPage pageId).2.poolSize = pool.poolSize :=
      poolSize_handle (.fetchPage pageId) resident
    have fetches := pool.fetchPage_fetches pageId
    change (pool.fetchPage pageId).2.Filled first
    generalize (pool.fetchPage pageId).1 = result at fetches
    generalize framesEq : (pool.fetchPage pageId).2.frames = frames at fetches
    cases fetches with
    | @hit frame found =>
      have pinned := filled.modifyPage frame fun page => (rfl : page.pin.pageId = page.pageId)
      exact pinned.keep (fun _ => by rw [framesEq]; rfl) (by rw [framesEq]; rfl)
        (by rw [framesEq]; rfl) size
    | refused => exact filled.same framesEq size
    | loaded absent obtains => exact absurd absent resident
  | newPage => exact filled.newPage fits
  | unpinPage pageId isDirty => exact filled.unpinPage pageId isDirty
  | deletePage pageId =>
    have deletes := pool.deletePage_deletes pageId
    rw [show (pool.deletePage pageId).1 = false from fits] at deletes
    change (pool.deletePage pageId).2.Filled first
    have size : (pool.deletePage pageId).2.poolSize = pool.poolSize :=
      poolSize_handle (.deletePage pageId) trivial
    generalize framesEq : (pool.deletePage pageId).2.frames = frames at deletes
    cases deletes with
    | refused => exact filled.same framesEq size
  | flushPage pageId =>
    obtain ⟨ids, table, next⟩ := (flushed pageId).1
    exact filled.keep ids table next rfl
  | flushAllPages =>
    obtain ⟨ids, table, next⟩ := (flushed 0).2
    exact filled.keep ids table next rfl
  | getPageId frame => exact filled
  | getData frame => exact filled
  | putData frame data => exact filled.modifyPage frame fun _ => rfl
  | setDirty frame => exact filled.modifyPage frame fun _ => rfl

/-- A program that fits keeps the pool filled, and its size. -/
theorem Filled.run {Result : Type} (filled : pool.Filled first) {program : PoolProgram Result}
    (fits : Client.Each BufferPool.handle (Fits first) program pool) :
    (PoolProgram.run program pool).2.Filled first ∧
      (PoolProgram.run program pool).2.poolSize = pool.poolSize := by
  induction program generalizing pool with
  | done result => exact ⟨filled, rfl⟩
  | ask request next ih =>
    obtain ⟨final, sameSize⟩ := ih _ (filled.handle fits.1) fits.2
    exact ⟨final, sameSize.trans (poolSize_handle request (filled.staysInside fits.1))⟩

/-- A frame that is null is behind the filled ones. -/
theorem Filled.room_of_findFree (filled : pool.Filled first) (free : pool.findFree ≠ none) :
    nextPageId pool.frames.disk - first < pool.poolSize := by
  obtain ⟨frame, found⟩ := Option.ne_none_iff_exists'.mp free
  obtain ⟨empty, inside, -⟩ := List.find?_range_eq_some.mp found
  have bound := List.mem_range.mp inside
  have ids := filled.ids frame
  rw [Option.isNone_iff_eq_none.mp empty, Option.map_none] at ids
  have beyond : ¬ first + (frame : Int) < nextPageId pool.frames.disk := by
    intro issued
    rw [if_pos issued] at ids
    cases ids
  omega

/-- A new pool has no page. -/
theorem filled_new (poolSize : Nat) (disk : D) (replacerLatch : Mutex) :
    (new poolSize disk replacerLatch).Filled (nextPageId disk) where
  started := Int.le_refl _
  ids frame := by
    have beyond : ¬ nextPageId disk + frame < nextPageId disk := by omega
    exact (if_neg beyond).symm
  found frame issued := by
    have : nextPageId disk + frame < nextPageId disk := issued
    omega
  keys found := by cases found
  room := Int.le_add_of_nonneg_right (Int.natCast_nonneg poolSize)

/-- A request that stays inside the pool finds a frame. -/
theorem StaysInside.findsFrame {pool : BufferPool DiskManager} {request : PoolRequest}
    (inside : StaysInside request pool) : FindsFrame request pool := by
  cases request with
  | fetchPage pageId => exact .inl inside
  | newPage => exact inside
  | unpinPage _ _ | deletePage _ | flushPage _ | flushAllPages | getPageId _ | getData _
  | putData _ _ | setDirty _ => trivial

/-- A program that fits finds its frames. -/
theorem Filled.each_findsFrame {Result : Type} {pool : BufferPool DiskManager}
    {program : PoolProgram Result} (filled : pool.Filled first)
    (fits : Client.Each BufferPool.handle (Fits first) program pool) :
    Client.Each BufferPool.handle FindsFrame program pool := by
  induction program generalizing pool with
  | done result => trivial
  | ask request next ih =>
    exact ⟨(filled.staysInside fits.1).findsFrame, ih _ (filled.handle fits.1) fits.2⟩

/-- The pool over the disk manager beside one over another disk. -/
structure Beside (related : DiskManager → E → Prop) (first last : Int)
    (pool : BufferPool DiskManager) (other : BufferPool E) : Prop where
  twin : pool.Twin related other
  filled : pool.Filled first
  atRest : AtRest pool.mutexes
  room : first + pool.poolSize ≤ last

/-- A request that fits has the same answer over both disks, if these are kept related by
writes of the pages that the pool has room for. -/
theorem beside_handle {related : DiskManager → E → Prop} {last : Int}
    (kept : KeptByWrites related fun pageId => first ≤ pageId ∧ pageId < last)
    (request : PoolRequest) (pool : BufferPool DiskManager) (other : BufferPool E)
    (beside : Beside related first last pool other) (fits : Fits first request pool) :
    (handle request pool).1 = (handle request other).1 ∧
      Beside related first last (handle request pool).2 (handle request other).2 := by
  have inside := beside.filled.staysInside fits
  have admitted : pool.frames.Admits fun pageId => first ≤ pageId ∧ pageId < last := by
    intro pageId frame found
    obtain ⟨least, issued⟩ := beside.filled.keys found
    have issuedUpTo := beside.filled.room
    have room := beside.room
    omega
  obtain ⟨sameAnswer, twin⟩ := beside.twin.handle kept admitted request inside
  refine ⟨sameAnswer, twin, beside.filled.handle fits,
    beside.atRest.restores (restores_handle request pool inside.findsFrame), ?_⟩
  rw [poolSize_handle request inside]
  exact beside.room

omit [IssuesIds E] in
/-- A new pool is beside one over a related disk. -/
theorem beside_new {related : DiskManager → E → Prop} (poolSize : Nat) (file : Option File)
    (other : E) (replacerLatch : Mutex) {last : Int}
    (room : nextPageId (DiskManager.new file) + poolSize ≤ last)
    (disks : related (DiskManager.new file) other) :
    Beside related (nextPageId (DiskManager.new file)) last
      (new poolSize (DiskManager.new file)) (new poolSize other replacerLatch) where
  twin := ⟨rfl, rfl, rfl, disks⟩
  filled := filled_new poolSize (DiskManager.new file) .unlocked
  atRest := atRest_new poolSize file
  room := room

/-- A program that fits in the pool returns over the disk manager, with the latches as they
are, what it returns over a disk that keeps what it is given, and has the same pages. -/
theorem fitting_program_exact {Result : Type} (poolSize : Nat) (file : Option File)
    (ideal : IdealDisk) (sameIds : ideal.nextPageId = (DiskManager.new file).nextPageId)
    (program : PoolProgram Result)
    (fits : Client.Each BufferPool.handle (Fits ideal.nextPageId) program
      (new poolSize (DiskManager.new file))) :
    let pool := new poolSize (DiskManager.new file)
    let idealPool := new poolSize ideal .noop
    (PoolProgram.run program pool).1 = (PoolProgram.run program idealPool).1 ∧
      (PoolProgram.run program pool).2.frames.contents =
        (PoolProgram.run program idealPool).2.frames.contents ∧
      AtRest (PoolProgram.run program pool).2.mutexes := by
  intro pool idealPool
  rw [sameIds] at fits
  have kept := @keptByWrites_nextPageId DiskManager IdealDisk _ _ fun pageId =>
    nextPageId (DiskManager.new file) ≤ pageId ∧
      pageId < nextPageId (DiskManager.new file) + poolSize
  obtain ⟨sameResult, after⟩ := Client.run_of_simulates (beside_handle kept) program
    (beside_new poolSize file ideal .noop (Int.le_refl _) sameIds.symm) fits
  refine ⟨sameResult, ?_, after.atRest⟩
  funext pageId
  have frames := after.twin.frames
  change ((Client.run handle program pool).2.frames.contents pageId) =
    (Client.run handle program idealPool).2.frames.contents pageId
  rw [Frames.contents, Frames.contents, frames.pageTable, frames.pages]

end BufferPool

/-- A page is created, written, flushed and read again. -/
def PoolProgram.writeAndRead : PoolProgram (Option UInt8) := do
  match ← newPage with
  | none => return none
  | some (pageId, frame) =>
    putData frame fun _ => 7
    let _ ← unpinPage pageId true
    flushAllPages
    match ← fetchPage pageId with
    | none => return none
    | some frame =>
      let data ← getData frame
      return some (data 0)

/-- A pool of one frame over a new database file. -/
theorem BufferPool.fitting_program_exact_one_page :
    (PoolProgram.writeAndRead.run (BufferPool.new 1 (DiskManager.new (some {})))).1 =
        (PoolProgram.writeAndRead.run
          (BufferPool.new 1 (IdealDisk.start 0 fun _ => Bytes.zeros) .noop)).1 ∧
      (PoolProgram.writeAndRead.run (BufferPool.new 1 (DiskManager.new (some {})))).1 = some 7 := by
  have alike := fitting_program_exact 1 (some {}) (IdealDisk.start 0 fun _ => Bytes.zeros)
    (by decide) PoolProgram.writeAndRead (by decide +kernel)
  exact ⟨alike.1, by decide +kernel⟩

end MiniDB.Buffer
