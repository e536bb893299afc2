import MiniDB.Buffer.PoolClient
import MiniDB.Buffer.Temperature

/-!
# Pin counts

The pins are counted page object by page object, that is frame by frame, because an
eviction can take the table entry of a page that is pinned in another frame. Fetching
a page adds one to the frame it returns, and unpinning takes one from the frame that
the table leads to; what leaves the pool on the way was not pinned.
-/

namespace MiniDB.Buffer

open Foundation Storage

variable {D : Type}

namespace Frames

/-- The pins on the page in a frame; a null frame has none. -/
def pinCountAt (frames : Frames D) (frame : Nat) : Nat :=
  match frames.pages frame with
  | none => 0
  | some page => page.pinCount

theorem pinCountAt_of_held {frames : Frames D} {frame : Nat} {page : Page}
    (held : frames.pages frame = some page) : frames.pinCountAt frame = page.pinCount := by
  simp only [pinCountAt, held]

theorem pinCountAt_setFrame (frames : Frames D) (frame : Nat) (page : Page) :
    (frames.setFrame frame (some page)).pinCountAt =
      Function.update frames.pinCountAt frame page.pinCount := by
  ext other
  by_cases same : other = frame
  · subst same
    rw [Function.update_self]
    exact pinCountAt_of_held (Function.update_self _ _ _)
  · simp only [pinCountAt, setFrame, Function.update_of_ne same]

variable [Disk D]

/-- A frame that was obtained has no pins, and nothing else is changed in the frames. -/
theorem Obtains.unpinned {frames obtained : Frames D} {frame : Nat}
    (obtains : frames.Obtains (some frame) obtained) :
    obtained.pages = frames.pages ∧ frames.pinCountAt frame = 0 := by
  cases obtains with
  | free empty => exact ⟨rfl, by simp only [pinCountAt, empty]⟩
  | @evicted _ page held unpinned =>
    unfold evict
    rw [writeBack_eq]
    exact ⟨rfl, (pinCountAt_of_held held).trans unpinned⟩

/-- A fetched page is in the frame that the table leads to, with one pin more. -/
theorem Fetches.pins {frames after : Frames D} {pageId : Int} {frame : Nat}
    (fetches : frames.Fetches pageId (some frame) after) (mapped : frames.Mapped) :
    after.pageTable.lookup pageId = some frame ∧
      after.pinCountAt =
        Function.update frames.pinCountAt frame (frames.pinCountAt frame + 1) := by
  cases fetches with
  | hit resident =>
    obtain ⟨page, held, -⟩ := mapped _ _ resident
    refine ⟨resident, ?_⟩
    rw [modifyPage, held, Option.map_some, pinCountAt_setFrame, pinCountAt_of_held held]
    rfl
  | @loaded _ obtained absent obtains =>
    obtain ⟨pagesEq, none⟩ := obtains.unpinned
    refine ⟨AList.lookup_insert _, ?_⟩
    have same : obtained.pinCountAt = frames.pinCountAt := by
      unfold pinCountAt
      rw [pagesEq]
    rw [none, ← same]
    exact pinCountAt_setFrame _ _ _

omit [Disk D] in
/-- Unpinning takes a pin from the frame that the table leads to. -/
theorem Unpins.pins {frames after : Frames D} {pageId : Int} {isDirty result : Bool} {frame : Nat}
    (unpins : frames.Unpins pageId isDirty result after) (mapped : frames.Mapped)
    (resident : frames.pageTable.lookup pageId = some frame) :
    after.pinCountAt = Function.update frames.pinCountAt frame (frames.pinCountAt frame - 1) := by
  cases unpins with
  | refused unpinned =>
    obtain ⟨page, held, -⟩ := mapped _ _ resident
    have noPins : frames.pinCountAt frame = 0 :=
      (pinCountAt_of_held held).trans (unpinned resident held)
    rw [noPins, Nat.zero_sub, ← noPins, Function.update_eq_self]
  | @released released page found held pinned =>
    obtain rfl := Option.some.inj (resident.symm.trans found)
    rw [pinCountAt_setFrame, pinCountAt_of_held held]
    congr 1
    unfold BufferPool.released
    split <;> rfl

/-- The table leads to the pages it names, and the pins are the given ones. -/
structure PinsAs (frames : Frames D) (pins : Nat → Nat) : Prop where
  mapped : frames.Mapped
  pins : frames.pinCountAt = pins

end Frames

namespace BufferPool

open Frames

variable [Disk D] {pool : BufferPool D} {pins : Nat → Nat} {pageId : Int} {frame : Nat}

theorem pinsAs_fetchPage_null (counted : pool.frames.PinsAs pins)
    (null : (pool.fetchPage pageId).1 = none) : (pool.fetchPage pageId).2.frames.PinsAs pins := by
  have fetches := pool.fetchPage_fetches pageId
  rw [null] at fetches
  rw [fetches.refused_eq]
  exact counted

/-- A fetched page has one pin more, and the pointer leads to a page of that id. -/
theorem pinsAs_fetchPage (counted : pool.frames.PinsAs pins)
    (fetched : (pool.fetchPage pageId).1 = some frame) :
    (pool.fetchPage pageId).2.frames.PinsAs (Function.update pins frame (pins frame + 1)) ∧
      (pool.fetchPage pageId).2.frames.pageTable.lookup pageId = some frame ∧
      ((pool.fetchPage pageId).2.pageAt frame).pageId = pageId := by
  have fetches := pool.fetchPage_fetches pageId
  rw [fetched] at fetches
  have mapped : (pool.fetchPage pageId).2.frames.Mapped := by
    obtain ⟨-, _, -, loads⟩ | ⟨-, keeps⟩ := fetches.temperatures counted.mapped
    · exact loads.mapped
    · exact keeps.mapped
  obtain ⟨resident, more⟩ := fetches.pins counted.mapped
  obtain ⟨page, held, sameId⟩ := mapped _ _ resident
  refine ⟨⟨mapped, more.trans (by rw [counted.pins])⟩, resident, ?_⟩
  rw [pageAt, held, Option.getD_some, sameId]

omit [Disk D] in
/-- Unpinning a page takes back the pin of its fetch. -/
theorem pinsAs_unpinPage (isDirty : Bool)
    (counted : pool.frames.PinsAs (Function.update pins frame (pins frame + 1)))
    (resident : pool.frames.pageTable.lookup pageId = some frame) :
    (pool.unpinPage pageId isDirty).2.frames.PinsAs pins := by
  have unpins := pool.unpinPage_unpins pageId isDirty
  refine ⟨(unpins.temperatures counted.mapped).mapped, ?_⟩
  rw [unpins.pins counted.mapped resident, counted.pins, Function.update_idem, Function.update_self,
    Nat.add_sub_cancel, Function.update_eq_self]

/-- Every request of a client leaves a table that leads to the pages it names. -/
theorem mapped_handle (request : PoolRequest) (mapped : pool.frames.Mapped) :
    (BufferPool.handle request pool).2.frames.Mapped := by
  have modified : ∀ (frame : Nat) (change : Page → Page), (∀ page, (change page).pageId = page.pageId) →
      (pool.modifyPage frame change).frames.Mapped := by
    intro frame change sameId
    cases held : pool.frames.pages frame with
    | none =>
      have same : Function.update pool.frames.pages frame none = pool.frames.pages := by
        rw [← held, Function.update_eq_self]
      simp only [modifyPage, Frames.modifyPage, held, Option.map_none, setFrame, same]
      exact mapped
    | some page =>
      simp only [modifyPage, Frames.modifyPage, held, Option.map_some]
      exact mapped.setFrame held (sameId page)
  have flushed := @flush_preserves _ _ pool
  cases request with
  | fetchPage pageId =>
    obtain ⟨-, _, -, loads⟩ | ⟨-, keeps⟩ := (pool.fetchPage_fetches pageId).temperatures mapped
    · exact loads.mapped
    · exact keeps.mapped
  | newPage =>
    obtain ⟨_, _, -, loads⟩ | ⟨-, keeps⟩ := pool.newPage_creates.temperatures mapped
    · exact loads.mapped
    · exact keeps.mapped
  | unpinPage pageId isDirty => exact ((pool.unpinPage_unpins pageId isDirty).temperatures mapped).mapped
  | deletePage pageId => exact ((pool.deletePage_deletes pageId).temperatures mapped).mapped
  | flushPage pageId =>
    exact (flushed pageId (fun _ _ _ flushes here => (flushes.temperatures here).mapped) mapped).1
  | flushAllPages =>
    exact (flushed 0 (fun _ _ _ flushes here => (flushes.temperatures here).mapped) mapped).2
  | getPageId frame => exact mapped
  | getData frame => exact mapped
  | putData frame data => exact modified frame _ fun _ => rfl
  | setDirty frame => exact modified frame _ fun _ => rfl

/-- Whatever clients do from an empty pool on, the table leads to the pages it names. -/
theorem mapped_run {Result : Type} (program : PoolProgram Result) (poolSize : Nat) (disk : D)
    (replacerLatch : Mutex) :
    (PoolProgram.run program (new poolSize disk replacerLatch)).2.frames.Mapped := by
  have empty : (new poolSize disk replacerLatch).frames.Mapped := by
    intro pageId frame found
    cases found
  exact Client.run_keeps (fun before after : BufferPool D => before.frames.Mapped → after.frames.Mapped)
    (fun _ mapped => mapped) (fun first second mapped => second (first mapped))
    (fun request _ mapped => mapped_handle request mapped) program _ empty

end BufferPool

end MiniDB.Buffer
