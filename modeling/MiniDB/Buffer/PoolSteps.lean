import MiniDB.Buffer.BufferPool

/-!
# What one operation of the pool can do

Each operation is described once by what it can do to the frames, whatever the
replacer answers. Invariants of the pool are derived from these descriptions, so
they hold for every choice of victim.
-/

namespace MiniDB.Buffer

open Foundation Storage

variable {D : Type} [Disk D]

namespace Frames

/-- Obtaining a frame refuses, finds one without a page, or evicts an unpinned page. -/
inductive Obtains (frames : Frames D) : Option Nat → Frames D → Prop where
  | refused : Obtains frames none frames
  | free {frame : Nat} (empty : frames.pages frame = none) : Obtains frames (some frame) frames
  | evicted {frame : Nat} {page : Page} (held : frames.pages frame = some page)
      (unpinned : page.pinCount = 0) : Obtains frames (some frame) (frames.evict page)

/-- `FetchPage` pins a resident page, refuses, or loads the page into an obtained frame. -/
inductive Fetches (frames : Frames D) (pageId : Int) : Option Nat → Frames D → Prop where
  | hit {frame : Nat} (resident : frames.pageTable.lookup pageId = some frame) :
      Fetches frames pageId (some frame) (frames.modifyPage frame Page.pin)
  | refused : Fetches frames pageId none frames
  | loaded {frame : Nat} {obtained : Frames D}
      (absent : frames.pageTable.lookup pageId = none)
      (obtains : Obtains frames (some frame) obtained) :
      Fetches frames pageId (some frame) (obtained.loadPage frame pageId)

/-- `NewPage` refuses or adds a page in an obtained frame. -/
inductive Creates (frames : Frames D) : Option (Int × Nat) → Frames D → Prop where
  | refused : Creates frames none frames
  | added {frame : Nat} {obtained : Frames D} (obtains : Obtains frames (some frame) obtained) :
      Creates frames (some ((obtained.addPage frame).1, frame)) (obtained.addPage frame).2

/-- `UnpinPage` refuses or releases one pin of a resident page. -/
inductive Unpins (frames : Frames D) (pageId : Int) (isDirty : Bool) :
    Bool → Frames D → Prop where
  | refused (unpinned : ∀ {frame : Nat} {page : Page},
        frames.pageTable.lookup pageId = some frame → frames.pages frame = some page →
          page.pinCount = 0) : Unpins frames pageId isDirty false frames
  | released {frame : Nat} {page : Page} (resident : frames.pageTable.lookup pageId = some frame)
      (held : frames.pages frame = some page) (pinned : page.pinCount ≠ 0) :
      Unpins frames pageId isDirty true
        (frames.setFrame frame (some (BufferPool.released page isDirty)))

/-- Flushing leaves a clean or absent page alone and writes a dirty one back. -/
inductive Flushes (frames : Frames D) (pageId : Int) : Frames D → Prop where
  | unchanged : Flushes frames pageId frames
  | written {frame : Nat} {page : Page} (resident : frames.pageTable.lookup pageId = some frame)
      (held : frames.pages frame = some page) (dirty : page.isDirty = true) :
      Flushes frames pageId
        ((frames.writeBack pageId page).setFrame frame (some (page.setDirty false)))

/-- `DeletePage` refuses or takes an unpinned page out of the pool. -/
inductive Deletes (frames : Frames D) (pageId : Int) : Bool → Frames D → Prop where
  | refused : Deletes frames pageId false frames
  | deleted {frame : Nat} {page : Page} (resident : frames.pageTable.lookup pageId = some frame)
      (held : frames.pages frame = some page) (unpinned : page.pinCount = 0) :
      Deletes frames pageId true (frames.dropPage frame pageId page)

/-- A refused request leaves the frames as they are. -/
theorem Obtains.refused_eq {frames after : Frames D} (obtains : Obtains frames none after) :
    after = frames := by
  cases obtains
  rfl

theorem Fetches.refused_eq {frames after : Frames D} {pageId : Int}
    (fetches : Fetches frames pageId none after) : after = frames := by
  cases fetches
  rfl

theorem Creates.refused_eq {frames after : Frames D} (creates : Creates frames none after) :
    after = frames := by
  cases creates
  rfl

theorem flushPageInternal_flushes (frames : Frames D) (pageId : Int) :
    Flushes frames pageId (frames.flushPageInternal pageId).2 := by
  unfold flushPageInternal
  split
  · exact .unchanged
  · next frame resident =>
    split
    · exact .unchanged
    · next page held =>
      split
      · next dirty => exact .written resident held dirty
      · exact .unchanged

end Frames

namespace BufferPool

variable (pool : BufferPool D) (pageId : Int)

theorem obtainFrame_obtains :
    pool.frames.Obtains pool.obtainFrame.1 pool.obtainFrame.2.frames := by
  unfold obtainFrame
  split
  · next frame found =>
    have empty : pool.frames.pages frame = none := by simpa using List.find?_some found
    exact .free empty
  · dsimp only
    split
    · exact .refused
    · next frame _ =>
      split
      · next held => exact .free held
      · next page held =>
        split
        · exact .refused
        · next unpinned => exact .evicted held (by omega)

theorem fetchPage_fetches :
    pool.frames.Fetches pageId (pool.fetchPage pageId).1 (pool.fetchPage pageId).2.frames := by
  unfold fetchPage lockGuard
  dsimp only [Guarded.setMutex]
  split
  · next frame resident => exact .hit resident
  · next absent =>
    have obtains := obtainFrame_obtains { pool with latch := (Guarded.mutex pool).lock }
    split
    · next obtained same =>
      rw [same] at obtains
      have kept : obtained.frames = pool.frames := obtains.refused_eq
      exact kept ▸ .refused
    · next frame obtained same =>
      rw [same] at obtains
      exact .loaded absent obtains

theorem newPage_creates : pool.frames.Creates pool.newPage.1 pool.newPage.2.frames := by
  have obtains := obtainFrame_obtains { pool with latch := (Guarded.mutex pool).lock }
  unfold newPage lockGuard
  dsimp only [Guarded.setMutex]
  split
  · next obtained same =>
    rw [same] at obtains
    have kept : obtained.frames = pool.frames := obtains.refused_eq
    exact kept ▸ .refused
  · next frame obtained same =>
    rw [same] at obtains
    exact .added obtains

omit [Disk D] in
theorem unpinPage_unpins (isDirty : Bool) :
    pool.frames.Unpins pageId isDirty (pool.unpinPage pageId isDirty).1
      (pool.unpinPage pageId isDirty).2.frames := by
  unfold unpinPage lockGuard
  dsimp only [Guarded.setMutex]
  split
  · next absent => exact .refused fun found => by cases absent.symm.trans found
  · next frame resident =>
    split
    · next empty =>
      refine .refused fun found held => ?_
      obtain rfl := Option.some.inj (resident.symm.trans found)
      cases empty.symm.trans held
    · next page held =>
      by_cases unpinned : page.pinCount = 0
      · rw [if_pos unpinned]
        refine .refused fun found other => ?_
        obtain rfl := Option.some.inj (resident.symm.trans found)
        rw [← Option.some.inj (held.symm.trans other)]
        exact unpinned
      · rw [if_neg unpinned]
        split
        · exact .released resident held unpinned
        · exact .released resident held unpinned

theorem deletePage_deletes :
    pool.frames.Deletes pageId (pool.deletePage pageId).1 (pool.deletePage pageId).2.frames := by
  unfold deletePage lockGuard
  dsimp only [Guarded.setMutex]
  split
  · exact .refused
  · next frame resident =>
    split
    · exact .refused
    · next page held =>
      by_cases pinned : page.pinCount > 0
      · rw [if_pos pinned]
        exact .refused
      · rw [if_neg pinned]
        exact .deleted resident held (by omega)

/-- An invariant of the frames that flushing a page keeps is kept by both flushes. -/
theorem flush_preserves {invariant : Frames D → Prop}
    (preserves : ∀ frames pageId after, Frames.Flushes frames pageId after → invariant frames →
      invariant after) (holds : invariant pool.frames) :
    invariant (pool.flushPage pageId).2.frames ∧ invariant pool.flushAllPages.frames := by
  constructor
  · exact preserves _ pageId _ (pool.frames.flushPageInternal_flushes pageId) holds
  · suffices all : ∀ (pageIds : List Int) (frames : Frames D), invariant frames →
        invariant (pageIds.foldl (fun frames pageId => (frames.flushPageInternal pageId).2)
          frames) from all _ _ holds
    intro pageIds
    induction pageIds with
    | nil => exact fun _ here => here
    | cons pageId pageIds ih =>
      intro frames here
      exact ih _ (preserves _ pageId _ (frames.flushPageInternal_flushes pageId) here)

end BufferPool

end MiniDB.Buffer
