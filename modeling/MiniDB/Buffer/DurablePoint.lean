import MiniDB.Buffer.Transparency

/-!
# `FlushAllPages` is a durable point

Clients may change the bytes behind any frame at any time, release pages with any
flag and delete them. `changed` keeps the pages whose bytes were changed since they
were last released as dirty. `Durable` is the invariant: a resident page that is
neither dirty nor changed has its bytes on disk. Where nothing is changed, a flush
of all pages makes the disk alone answer every `FetchPage` as the pool does.
-/

namespace MiniDB.Buffer

open Foundation Storage

/-- The pool, and the pages that were changed and not released as dirty since. -/
structure EditedPool where
  pool : BufferPool IdealDisk
  changed : Int → Bool := fun _ => false

/-- A call on the pool, or a write through the pointer to the page in a frame. -/
inductive EditCall where
  | call (call : PoolCall)
  | write (frame : Nat) (data : Bytes)

namespace EditedPool

/-- An empty pool on a disk with `count` pages. -/
def start (poolSize count : Nat) (initial : Int → Bytes) (replacerLatch : Mutex) : EditedPool :=
  { pool := BufferPool.new poolSize (IdealDisk.start count initial) replacerLatch }

/-- The pages that are changed once a call has returned: a release as dirty takes its
page off. -/
def changedAfter (edited : EditedPool) : PoolCall → Int → Bool
  | .unpinPage pageId true =>
    if (edited.pool.unpinPage pageId true).1 then Function.update edited.changed pageId false
    else edited.changed
  | _ => edited.changed

/-- One call or write. -/
def step (edited : EditedPool) : EditCall → EditedPool
  | .call call => { pool := edited.pool.step call, changed := edited.changedAfter call }
  | .write frame data =>
    match edited.pool.frames.pages frame with
    | none => edited
    | some page =>
      let frames := edited.pool.frames.setFrame frame (some (page.setData data))
      { pool := { edited.pool with frames }
        changed := Function.update edited.changed page.pageId true }

/-- `FetchPage` is asked for allocated pages only. -/
def FetchesAllocated (edited : EditedPool) : EditCall → Prop
  | .call (.fetchPage pageId) => edited.pool.frames.disk.Allocated pageId
  | _ => True

end EditedPool

/-- The bytes behind the pointer that `FetchPage` returns; `none` is the null pointer. -/
def BufferPool.fetchedBytes {D : Type} [Disk D] (pool : BufferPool D) (pageId : Int) :
    Option Bytes :=
  ((pool.fetchPage pageId).1.bind (pool.fetchPage pageId).2.frames.pages).map Page.data

/-! ## Clean pages are on disk -/

/-- A resident page is dirty, changed behind the pool's back, or on disk. -/
structure Durable (frames : Frames IdealDisk) (changed : Int → Bool) : Prop where
  agrees : frames.Agrees
  allocated : ∀ {pageId : Int} {frame : Nat}, frames.pageTable.lookup pageId = some frame →
    frames.disk.Allocated pageId
  saved : ∀ {frame : Nat} {page : Page}, frames.pages frame = some page →
    page.isDirty = true ∨ changed page.pageId = true ∨ frames.disk.bytes page.pageId = page.data
  unwritten : ∀ {pageId : Int}, frames.disk.nextPageId ≤ pageId →
    frames.disk.written pageId = none
  nonneg : 0 ≤ frames.disk.nextPageId

namespace Durable

variable {frames : Frames IdealDisk} {changed : Int → Bool}

theorem start (count : Nat) (initial : Int → Bytes) (changed : Int → Bool) :
    Durable { disk := IdealDisk.start count initial } changed where
  agrees := Frames.agrees_empty _
  allocated found := by simp at found
  saved held := by cases held
  unwritten beyond := if_neg fun inside => Int.not_lt.mpr beyond inside.2
  nonneg := Int.natCast_nonneg count

theorem ne_of_beyond (durable : Durable frames changed) {pageId beyond : Int} {frame : Nat}
    (found : frames.pageTable.lookup pageId = some frame)
    (isBeyond : frames.disk.nextPageId ≤ beyond) : beyond ≠ pageId := by
  have below := (durable.allocated found).2
  omega

/-- One resident page changes in its frame, on disk and in the ledger of changes; all
other pages stay as they are. -/
theorem change (durable : Durable frames changed) (disk : IdealDisk) {frame : Nat}
    {page after : Page} {changed' : Int → Bool} (held : frames.pages frame = some page)
    (sameId : after.pageId = page.pageId)
    (saved : after.isDirty = true ∨ changed' page.pageId = true ∨
      disk.bytes page.pageId = after.data)
    (elsewhere : ∀ other, other ≠ page.pageId → changed' other = changed other ∧
      disk.written other = frames.disk.written other)
    (next : disk.nextPageId = frames.disk.nextPageId) :
    Durable ({ frames with disk }.setFrame frame (some after)) changed' := by
  have found := durable.agrees.resident held
  have kept := durable.agrees.setFrame held sameId
  refine ⟨⟨kept.injective, kept.mapped, kept.resident⟩, ?_, ?_, ?_, ?_⟩
  · intro pageId other foundOther
    obtain ⟨nonneg, below⟩ := durable.allocated foundOther
    exact ⟨nonneg, next.symm ▸ below⟩
  · intro other present here
    rcases update_cases here with ⟨-, written⟩ | ⟨different, before⟩
    · obtain rfl := Option.some.inj written
      rw [sameId]
      exact saved
    · have otherId : present.pageId ≠ page.pageId := fun same =>
        different (durable.agrees.frame_eq held before same)
      obtain ⟨sameLedger, sameDisk⟩ := elsewhere present.pageId otherId
      have sameBytes : disk.bytes present.pageId = frames.disk.bytes present.pageId :=
        IdealDisk.bytes_congr sameDisk
      rw [sameLedger]
      change _ ∨ _ ∨ disk.bytes present.pageId = present.data
      rw [sameBytes]
      exact durable.saved before
  · intro pageId beyond
    have beyondBefore : frames.disk.nextPageId ≤ pageId := next ▸ beyond
    exact (elsewhere _ (durable.ne_of_beyond found beyondBefore)).2.trans
      (durable.unwritten beyondBefore)
  · exact next.symm ▸ durable.nonneg

/-- A page leaves the pool, written back if it is dirty. -/
theorem dropPage (durable : Durable frames changed) {frame : Nat} {page : Page}
    (held : frames.pages frame = some page) :
    Durable (frames.dropPage frame page.pageId page) changed := by
  have found := durable.agrees.resident held
  have elsewhere : ∀ other, other ≠ page.pageId →
      (frames.writeBack page.pageId page).disk.written other = frames.disk.written other :=
    fun other different => frames.written_writeBack_of_ne different page
  have next := frames.nextPageId_writeBack_ideal page.pageId page
  unfold Frames.dropPage
  rw [Frames.writeBack_eq]
  generalize (frames.writeBack page.pageId page).disk = disk at elsewhere next
  refine ⟨((durable.agrees.vacant_erase held).with_disk disk).agrees_clear, ?_, ?_, ?_, ?_⟩
  · intro pageId other foundOther
    obtain ⟨nonneg, below⟩ := durable.allocated (UnorderedMap.lookup_of_erase foundOther).2
    exact ⟨nonneg, next.symm ▸ below⟩
  · intro other present here
    rcases update_cases here with ⟨-, cleared⟩ | ⟨different, before⟩
    · cases cleared
    · have otherId : present.pageId ≠ page.pageId := fun same =>
        different (durable.agrees.frame_eq held before same)
      have sameBytes : disk.bytes present.pageId = frames.disk.bytes present.pageId :=
        IdealDisk.bytes_congr (elsewhere _ otherId)
      change _ ∨ _ ∨ disk.bytes present.pageId = present.data
      rw [sameBytes]
      exact durable.saved before
  · intro pageId beyond
    have beyondBefore : frames.disk.nextPageId ≤ pageId := next ▸ beyond
    exact (elsewhere _ (durable.ne_of_beyond found beyondBefore)).trans
      (durable.unwritten beyondBefore)
  · exact next.symm ▸ durable.nonneg

/-- An obtained frame, once it is cleared. -/
theorem obtained (durable : Durable frames changed) {frame : Nat} {after : Frames IdealDisk}
    (obtains : frames.Obtains (some frame) after) :
    Durable (after.setFrame frame none) changed := by
  cases obtains with
  | free empty =>
    have same : frames.setFrame frame none = frames := by
      rw [Frames.setFrame, ← empty, Function.update_eq_self]
    rw [same]
    exact durable
  | evicted held unpinned => exact durable.dropPage held

/-- A page comes into an empty frame with the bytes it has on disk. -/
theorem place (durable : Durable frames changed) {frame : Nat} {page : Page}
    (empty : frames.pages frame = none) (absent : frames.pageTable.lookup page.pageId = none)
    (allocated : frames.disk.Allocated page.pageId)
    (data : frames.disk.bytes page.pageId = page.data) :
    Durable (frames.place frame page) changed := by
  refine ⟨((durable.agrees.vacant_empty empty).agrees_place_iff page).mpr absent, ?_, ?_,
    durable.unwritten, durable.nonneg⟩
  · intro pageId other found
    by_cases same : pageId = page.pageId
    · exact same ▸ allocated
    · exact durable.allocated ((AList.lookup_insert_ne same).symm.trans found)
  · intro other present here
    rcases update_cases here with ⟨-, placed⟩ | ⟨-, before⟩
    · obtain rfl := Option.some.inj placed
      exact .inr (.inr data)
    · exact durable.saved before

/-- `AllocPage` makes the next page exist, which no one has written. -/
theorem alloc (durable : Durable frames changed) :
    Durable { frames with disk := (Disk.allocPage frames.disk).2 } changed := by
  refine ⟨⟨durable.agrees.injective, durable.agrees.mapped, durable.agrees.resident⟩, ?_,
    durable.saved, ?_, ?_⟩
  · intro pageId frame found
    obtain ⟨nonneg, below⟩ := durable.allocated found
    exact ⟨nonneg, Int.lt_add_one_of_le (Int.le_of_lt below)⟩
  · intro pageId beyond
    have beyondBefore : frames.disk.nextPageId + 1 ≤ pageId := beyond
    exact durable.unwritten (by omega)
  · exact Int.add_nonneg durable.nonneg (by decide)

/-! ## One operation -/

theorem fetch (durable : Durable frames changed) {pageId : Int} {result : Option Nat}
    {after : Frames IdealDisk} (fetches : frames.Fetches pageId result after)
    (allocated : frames.disk.Allocated pageId) : Durable after changed := by
  cases fetches with
  | refused => exact durable
  | @hit frame resident =>
    obtain ⟨page, held, rfl⟩ := durable.agrees.mapped resident
    rw [Frames.modifyPage, held]
    have saved := durable.saved held
    exact durable.change frames.disk held rfl saved (fun _ _ => ⟨rfl, rfl⟩) rfl
  | @loaded frame obtained absent obtains =>
    have next : obtained.disk.Allocated pageId := by
      have same := obtains.nextPageId_eq
      exact ⟨allocated.1, same.symm ▸ allocated.2⟩
    rw [Frames.loadPage_of_allocated next, ← Frames.place_setFrame]
    exact (durable.obtained obtains).place (by simp [Frames.setFrame])
      (obtains.lookup_none absent) next rfl

theorem create (durable : Durable frames changed) {result : Option (Int × Nat)}
    {after : Frames IdealDisk} (creates : frames.Creates result after) : Durable after changed := by
  cases creates with
  | refused => exact durable
  | @added frame obtained obtains =>
    have cleared := durable.obtained obtains
    have absent : obtained.pageTable.lookup obtained.disk.nextPageId = none := by
      by_contra found
      obtain ⟨holder, found⟩ := Option.ne_none_iff_exists'.mp found
      exact cleared.ne_of_beyond found (Int.le_refl _) rfl
    have allocated : (Disk.allocPage obtained.disk).2.Allocated obtained.disk.nextPageId :=
      ⟨cleared.nonneg, Int.lt_add_one_of_le (Int.le_refl _)⟩
    have unwritten : obtained.disk.written obtained.disk.nextPageId = none :=
      cleared.unwritten (Int.le_refl _)
    have zeros : (Disk.allocPage obtained.disk).2.bytes obtained.disk.nextPageId = Bytes.zeros := by
      simp [IdealDisk.bytes, Disk.allocPage, unwritten]
    have added : (obtained.addPage frame).2 =
        { obtained with disk := (Disk.allocPage obtained.disk).2 }.place frame
          (((obtained.preparePage frame obtained.disk.nextPageId).pin).setDirty false) := rfl
    rw [added, ← Frames.place_setFrame]
    exact cleared.alloc.place (by simp [Frames.setFrame]) absent allocated zeros

/-- A release as dirty settles the changes of its page. -/
theorem unpin (durable : Durable frames changed) {pageId : Int} {isDirty result : Bool}
    {after : Frames IdealDisk} (unpins : frames.Unpins pageId isDirty result after) :
    Durable after (if result && isDirty then Function.update changed pageId false
      else changed) := by
  cases unpins with
  | refused unpinned => exact durable
  | @released frame page resident held pinned =>
    obtain rfl := durable.agrees.pageId_eq resident held
    cases isDirty with
    | true =>
      refine durable.change frames.disk held rfl (.inl rfl) ?_ rfl
      exact fun other different => ⟨Function.update_of_ne different _ _, rfl⟩
    | false =>
      have saved := durable.saved held
      exact durable.change frames.disk held rfl saved (fun _ _ => ⟨rfl, rfl⟩) rfl

theorem flush (durable : Durable frames changed) {pageId : Int} {after : Frames IdealDisk}
    (flushes : frames.Flushes pageId after) : Durable after changed := by
  cases flushes with
  | unchanged => exact durable
  | @written frame page resident held dirty =>
    obtain rfl := durable.agrees.pageId_eq resident held
    have written : frames.writeBack page.pageId page =
        { frames with disk := Disk.writePage frames.disk page.pageId page.data } := by
      simp [Frames.writeBack, dirty]
    rw [written]
    refine durable.change (Disk.writePage frames.disk page.pageId page.data) held rfl ?_ ?_ rfl
    · exact .inr (.inr (by simp [IdealDisk.bytes, Disk.writePage, Page.setDirty]))
    · exact fun other different => ⟨rfl, Function.update_of_ne different _ _⟩

theorem delete (durable : Durable frames changed) {pageId : Int} {result : Bool}
    {after : Frames IdealDisk} (deletes : frames.Deletes pageId result after) :
    Durable after changed := by
  cases deletes with
  | refused => exact durable
  | deleted resident held unpinned =>
    obtain rfl := durable.agrees.pageId_eq resident held
    exact durable.dropPage held

theorem write (durable : Durable frames changed) {frame : Nat} {page : Page}
    (held : frames.pages frame = some page) (data : Bytes) :
    Durable (frames.setFrame frame (some (page.setData data)))
      (Function.update changed page.pageId true) :=
  durable.change frames.disk held rfl (.inr (.inl (Function.update_self _ _ _)))
    (fun _ different => ⟨Function.update_of_ne different _ _, rfl⟩) rfl

/-- An empty pool on the disk of a durable one. -/
theorem restart (durable : Durable frames changed) : Durable { disk := frames.disk } changed where
  agrees := Frames.agrees_empty _
  allocated found := by simp at found
  saved held := by cases held
  unwritten := durable.unwritten
  nonneg := durable.nonneg

end Durable

namespace EditedPool

/-- Every call or write keeps what is clean on disk. -/
theorem durable_step (edited : EditedPool) (call : EditCall)
    (durable : Durable edited.pool.frames edited.changed)
    (allocated : edited.FetchesAllocated call) :
    Durable (edited.step call).pool.frames (edited.step call).changed := by
  have flushed := fun pageId => edited.pool.flush_preserves pageId
    (fun _ _ _ flushes (holds : Durable _ edited.changed) => holds.flush flushes) durable
  match call with
  | .write frame data =>
    cases held : edited.pool.frames.pages frame with
    | none =>
      simp only [step, held]
      exact durable
    | some page =>
      simp only [step, held]
      exact durable.write held data
  | .call (.fetchPage pageId) =>
    exact durable.fetch (edited.pool.fetchPage_fetches pageId) allocated
  | .call .newPage => exact durable.create edited.pool.newPage_creates
  | .call (.unpinPage pageId true) =>
    have after := durable.unpin (edited.pool.unpinPage_unpins pageId true)
    rw [Bool.and_true] at after
    exact after
  | .call (.unpinPage pageId false) =>
    have after := durable.unpin (edited.pool.unpinPage_unpins pageId false)
    rw [Bool.and_false] at after
    exact after
  | .call (.flushPage pageId) => exact (flushed pageId).1
  | .call .flushAllPages => exact (flushed 0).2
  | .call (.deletePage pageId) => exact durable.delete (edited.pool.deletePage_deletes pageId)

end EditedPool

/-! ## `FlushAllPages` -/

namespace Frames

variable {D : Type} [Disk D]

/-- Every dirty page is still to be flushed. -/
def DirtyAmong (frames : Frames D) (pageIds : List Int) : Prop :=
  ∀ frame page, frames.pages frame = some page → page.isDirty = true → page.pageId ∈ pageIds

/-- Flushing a page takes it off the list. -/
theorem dirtyAmong_flush {frames : Frames D} (agrees : frames.Agrees) {pageId : Int}
    {pageIds : List Int} (among : frames.DirtyAmong (pageId :: pageIds)) :
    (frames.flushPageInternal pageId).2.DirtyAmong pageIds := by
  -- it is enough that the flushed page is not dirty any more
  have rest : ∀ {frame : Nat} {page : Page}, frames.pages frame = some page →
      page.isDirty = true → page.pageId ≠ pageId → page.pageId ∈ pageIds := by
    intro frame page held dirty different
    exact (List.mem_cons.mp (among frame page held dirty)).resolve_left different
  intro frame page
  unfold flushPageInternal
  cases found : frames.pageTable.lookup pageId with
  | none =>
    intro held dirty
    refine rest held dirty fun same => ?_
    have resident := agrees.resident held
    rw [same, found] at resident
    cases resident
  | some flushed =>
    obtain ⟨present, heldPresent, sameId⟩ := agrees.mapped found
    simp only [heldPresent]
    by_cases isDirty : present.isDirty = true
    · rw [if_pos isDirty, writeBack_eq]
      intro held dirty
      rcases update_cases held with ⟨-, written⟩ | ⟨different, before⟩
      · obtain rfl := Option.some.inj written
        cases dirty
      · refine rest before dirty fun same => different ?_
        exact agrees.frame_eq heldPresent before (same.trans sameId.symm)
    · rw [if_neg isDirty]
      intro held dirty
      refine rest held dirty fun same => ?_
      have sameFrame := agrees.frame_eq heldPresent held (same.trans sameId.symm)
      rw [sameFrame, heldPresent] at held
      obtain rfl := Option.some.inj held
      exact isDirty dirty

theorem dirtyAmong_foldl {pageIds : List Int} {frames : Frames D} (agrees : frames.Agrees)
    (among : frames.DirtyAmong pageIds) :
    (pageIds.foldl (fun frames pageId => (frames.flushPageInternal pageId).2) frames).DirtyAmong
      [] := by
  induction pageIds generalizing frames with
  | nil => exact among
  | cons pageId pageIds ih =>
    exact ih ((frames.flushPageInternal_flushes pageId).agrees agrees)
      (dirtyAmong_flush agrees among)

end Frames

namespace BufferPool

/-- After `FlushAllPages` no resident page is dirty. -/
theorem not_dirty_flushAllPages {D : Type} [Disk D] {pool : BufferPool D}
    (agrees : pool.frames.Agrees) {frame : Nat} {page : Page}
    (held : pool.flushAllPages.frames.pages frame = some page) : page.isDirty = false := by
  have among : pool.frames.DirtyAmong pool.frames.pageTable.keys := by
    intro frame page held _
    have resident := agrees.resident held
    exact AList.mem_keys.mp (AList.lookup_isSome.mp (by simp [resident]))
  by_contra dirty
  have pending := Frames.dirtyAmong_foldl agrees among frame page held (by simpa using dirty)
  cases pending

variable {pool : BufferPool IdealDisk} {changed : Int → Bool}

/-- A pool with nothing dirty and nothing changed answers from disk. -/
theorem fetchedBytes_of_clean (durable : Durable pool.frames changed)
    (clean : ∀ frame page, pool.frames.pages frame = some page → page.isDirty = false)
    (unchanged : ∀ pageId, changed pageId = false) {pageId : Int}
    (allocated : pool.frames.disk.Allocated pageId) {bytes : Bytes}
    (fetched : pool.fetchedBytes pageId = some bytes) :
    bytes = pool.frames.disk.bytes pageId := by
  have fetches := pool.fetchPage_fetches pageId
  unfold fetchedBytes at fetched
  generalize (pool.fetchPage pageId).1 = result, (pool.fetchPage pageId).2.frames = after
    at fetches fetched
  cases fetches with
  | refused => cases fetched
  | @hit frame resident =>
    obtain ⟨page, held, rfl⟩ := durable.agrees.mapped resident
    have onDisk : pool.frames.disk.bytes page.pageId = page.data := by
      rcases durable.saved held with dirty | isChanged | onDisk
      · rw [clean frame page held] at dirty
        cases dirty
      · rw [unchanged page.pageId] at isChanged
        cases isChanged
      · exact onDisk
    have returned : page.data = bytes := by
      simpa [Frames.modifyPage, Frames.setFrame, held, Page.pin] using fetched
    rw [← returned, onDisk]
  | @loaded frame obtained absent obtains =>
    have sameDisk : obtained.disk = pool.frames.disk := by
      cases obtains with
      | free empty => rfl
      | evicted held unpinned => simp [Frames.evict, Frames.writeBack, clean _ _ held]
    rw [Frames.loadPage_of_allocated (sameDisk ▸ allocated)] at fetched
    have returned : obtained.disk.bytes pageId = bytes := by
      simpa [Frames.place, Frames.setFrame, Page.pin, Page.setData] using fetched
    rw [← returned, sameDisk]

/-- An empty pool returns a page unless it has no frame at all. -/
theorem fetchedBytes_new (poolSize : Nat) (disk : IdealDisk) (replacerLatch : Mutex)
    (pageId : Int) :
    (BufferPool.new poolSize disk replacerLatch).fetchedBytes pageId = none ↔ poolSize = 0 := by
  cases poolSize with
  | zero =>
    refine iff_of_true ?_ rfl
    simp [fetchedBytes, fetchPage, lockGuard, Guarded.setMutex, new, obtainFrame, findFree,
      LayeredClock.victim, LayeredClock.size, countFrames]
  | succ size =>
    refine iff_of_false ?_ (Nat.succ_ne_zero size)
    have free : findFree ({ poolSize := size + 1
                            frames := { disk }
                            replacer := { frameCount := size + 1, latch := replacerLatch }
                            latch := .locked } : BufferPool IdealDisk) = some 0 := by
      simp [findFree, List.range_succ_eq_map]
    simp [fetchedBytes, fetchPage, lockGuard, Guarded.setMutex, Guarded.mutex, new, obtainFrame, free,
      Mutex.lock, pinned, Frames.loadPage, Frames.place, Frames.setFrame]

end BufferPool

namespace EditedPool

/-- A flush of all pages in a state where every change was released as dirty: no
resident page is dirty, and an empty pool of any size on the same disk returns for
every allocated page the bytes that the old one returns. It returns nothing only if
it has no frame. -/
def FlushIsDurable (edited : EditedPool) : Prop :=
  (∀ frame page, edited.pool.flushAllPages.frames.pages frame = some page →
    page.isDirty = false) ∧
  ∀ poolSize replacerLatch pageId,
    edited.pool.flushAllPages.frames.disk.Allocated pageId →
      ((BufferPool.new poolSize edited.pool.flushAllPages.frames.disk
          replacerLatch).fetchedBytes pageId = none ↔ poolSize = 0) ∧
      ∀ oldBytes newBytes, edited.pool.flushAllPages.fetchedBytes pageId = some oldBytes →
        (BufferPool.new poolSize edited.pool.flushAllPages.frames.disk
          replacerLatch).fetchedBytes pageId = some newBytes → newBytes = oldBytes

theorem flushIsDurable_of_durable {edited : EditedPool}
    (durable : Durable edited.pool.frames edited.changed)
    (released : ∀ pageId, edited.changed pageId = false) : edited.FlushIsDurable := by
  have clean : ∀ frame page, edited.pool.flushAllPages.frames.pages frame = some page →
      page.isDirty = false :=
    fun _ _ held => BufferPool.not_dirty_flushAllPages durable.agrees held
  have after : Durable edited.pool.flushAllPages.frames edited.changed :=
    (edited.pool.flush_preserves 0
      (fun _ _ _ flushes (holds : Durable _ edited.changed) => holds.flush flushes) durable).2
  refine ⟨clean, fun poolSize replacerLatch pageId allocated => ⟨?_, ?_⟩⟩
  · exact BufferPool.fetchedBytes_new poolSize _ replacerLatch pageId
  · intro oldBytes newBytes old new
    rw [BufferPool.fetchedBytes_of_clean after clean released allocated old]
    have fresh : Durable (BufferPool.new poolSize edited.pool.flushAllPages.frames.disk
        replacerLatch).frames edited.changed := after.restart
    refine BufferPool.fetchedBytes_of_clean fresh ?_ released allocated new
    intro frame page held
    cases held

/-- For every pool size, disk and run in which only allocated pages are fetched: in
every state where each changed page was released as dirty since, `FlushAllPages` is
a durable point. -/
theorem throughout_flush_durable (poolSize count : Nat) (initial : Int → Bytes)
    (replacerLatch : Mutex) (calls : List EditCall)
    (allocated : EachCall step FetchesAllocated (start poolSize count initial replacerLatch) calls) :
    Throughout step (fun edited => (∀ pageId, edited.changed pageId = false) →
      edited.FlushIsDurable) (start poolSize count initial replacerLatch) calls := by
  refine @EachCall.throughout _ _ step _ (fun edited => Durable edited.pool.frames edited.changed)
    _ ?_ ?_ _ _ (Durable.start count initial _) allocated
  · intro edited call durable fetchesAllocated
    exact edited.durable_step call durable fetchesAllocated
  · intro edited durable released
    exact flushIsDurable_of_durable durable released

/-- A page that is created, changed, released as dirty and flushed. -/
theorem throughout_flush_durable_changed :
    EachCall step FetchesAllocated (start 2 1 (fun _ _ => 3) .noop)
        [.call (.fetchPage 0), .call .newPage, .write 1 (fun _ => 7),
          .call (.unpinPage 1 true)] ∧
      Throughout step (fun edited => (∀ pageId, edited.changed pageId = false) →
          edited.FlushIsDurable) (start 2 1 (fun _ _ => 3) .noop)
        [.call (.fetchPage 0), .call .newPage, .write 1 (fun _ => 7),
          .call (.unpinPage 1 true)] := by
  have allocated : EachCall step FetchesAllocated (start 2 1 (fun _ _ => 3) .noop)
      [.call (.fetchPage 0), .call .newPage, .write 1 (fun _ => 7), .call (.unpinPage 1 true)] :=
    ⟨show IdealDisk.Allocated _ 0 by decide +kernel, trivial, trivial, trivial, trivial⟩
  exact ⟨allocated, throughout_flush_durable 2 1 _ .noop _ allocated⟩

end EditedPool

end MiniDB.Buffer
