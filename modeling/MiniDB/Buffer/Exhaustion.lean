import MiniDB.Buffer.PoolClient
import MiniDB.Buffer.Victims
import MiniDB.Foundation.Run

/-!
# Pins, candidates and an exhausted pool

The replacer keeps its own record of the frames that may be taken. `Tidy` says
that it is the record of the pin counts: a frame is a candidate exactly when it
holds an unpinned page. Every operation keeps it, so `FetchPage` and `NewPage`
are refused only when all pages are pinned, and then change nothing.
-/

namespace MiniDB.Buffer

open Foundation Storage

variable {D : Type}

namespace LayeredClock

variable {clock : LayeredClock} {frame : Nat}

/-- `Pin` takes its frame out. -/
theorem inReplacer_pin (isFrame : frame < clock.frameCount) :
    (clock.pin frame).inReplacer = Function.update clock.inReplacer frame false := by
  unfold pin lockGuard' lockGuard
  dsimp only [Guarded.setMutex]
  rw [if_pos isFrame]

theorem frameCount_pin (clock : LayeredClock) (frame : Nat) :
    (clock.pin frame).frameCount = clock.frameCount := by
  unfold pin lockGuard' lockGuard
  dsimp only [Guarded.setMutex]
  split <;> rfl

/-- `Pin` keeps the clock ready. -/
theorem Ready.pin (ready : clock.Ready) (frame : Nat) : (clock.pin frame).Ready := by
  unfold LayeredClock.pin lockGuard' lockGuard
  dsimp only [Guarded.setMutex, Guarded.mutex]
  rw [ready.latch]
  split
  · exact ⟨ready.hand, rfl⟩
  · exact ⟨ready.hand, rfl⟩

/-- `Unpin` puts its frame in. -/
theorem inReplacer_unpin (isFrame : frame < clock.frameCount) (isHot : Bool) :
    (clock.unpin frame isHot).inReplacer = Function.update clock.inReplacer frame true := by
  unfold unpin lockGuard' lockGuard
  dsimp only [Guarded.setMutex]
  cases candidate : clock.inReplacer frame with
  | false => rw [if_pos (by simpa using isFrame)]
  | true =>
    rw [if_neg (by simp)]
    exact (Function.update_eq_self_iff.mpr candidate.symm).symm

theorem frameCount_unpin (clock : LayeredClock) (frame : Nat) (isHot : Bool) :
    (clock.unpin frame isHot).frameCount = clock.frameCount := by
  unfold unpin lockGuard' lockGuard
  dsimp only [Guarded.setMutex]
  split <;> rfl

/-- `Unpin` keeps the clock ready. -/
theorem Ready.unpin (ready : clock.Ready) (frame : Nat) (isHot : Bool) :
    (clock.unpin frame isHot).Ready := by
  unfold LayeredClock.unpin lockGuard' lockGuard
  dsimp only [Guarded.setMutex, Guarded.mutex]
  rw [ready.latch]
  split
  · exact ⟨ready.hand, rfl⟩
  · exact ⟨ready.hand, rfl⟩

end LayeredClock

namespace Frames

variable [Disk D] (frames : Frames D) (pageId : Int) (page : Page)

@[simp] theorem writeBack_pages : (frames.writeBack pageId page).pages = frames.pages := by
  unfold writeBack
  split <;> rfl

@[simp] theorem writeBack_pageTable :
    (frames.writeBack pageId page).pageTable = frames.pageTable := by
  unfold writeBack
  split <;> rfl

end Frames

namespace BufferPool

/-- The frame holds a page without a pin. -/
def Evictable (pool : BufferPool D) (frame : Nat) : Prop :=
  ∃ page, pool.frames.pages frame = some page ∧ page.pinCount = 0

/-- Every frame of the pool holds a page with a pin. -/
def AllPinned (pool : BufferPool D) : Prop :=
  ∀ frame < pool.poolSize, ∃ page, pool.frames.pages frame = some page ∧ 0 < page.pinCount

/-- The replacer's candidates are the unpinned pages, and the table leads to pages
in frames of the pool, but for the frames that are `vacant`: to these nothing
leads, and what they hold does not count. -/
structure TidyBut (vacant : Nat → Prop) (pool : BufferPool D) : Prop where
  size : pool.replacer.frameCount = pool.poolSize
  ready : pool.replacer.Ready
  bounded : ∀ {frame : Nat} {page : Page}, pool.frames.pages frame = some page →
    frame < pool.poolSize
  mapped : ∀ {pageId : Int} {frame : Nat}, pool.frames.pageTable.lookup pageId = some frame →
    ¬ vacant frame ∧ ∃ page, pool.frames.pages frame = some page ∧ page.pageId = pageId
  tracked : ∀ {frame : Nat}, frame < pool.poolSize → ¬ vacant frame →
    (pool.replacer.inReplacer frame = true ↔ pool.Evictable frame)

/-- No frame is exempt. -/
abbrev Tidy (pool : BufferPool D) : Prop := TidyBut (fun _ => False) pool

/-- A new pool is tidy. -/
theorem tidy_new (poolSize : Nat) (disk : D) : (new poolSize disk .noop).Tidy := by
  refine ⟨rfl, ⟨?_, rfl⟩, ?_, ?_, ?_⟩
  · exact (Nat.eq_zero_or_pos poolSize).symm
  · intro frame page held
    cases held
  · intro pageId frame found
    simp [new] at found
  · intro frame _ _
    constructor
    · intro candidate
      cases candidate
    · rintro ⟨page, held, -⟩
      cases held

/-- The pool's own latch does not matter. -/
theorem TidyBut.with_latch {vacant : Nat → Prop} {pool : BufferPool D} (tidy : pool.TidyBut vacant)
    (latch : Mutex) : ({ pool with latch } : BufferPool D).TidyBut vacant :=
  ⟨tidy.size, tidy.ready, tidy.bounded, tidy.mapped, tidy.tracked⟩

/-- A page changes in its frame and the replacer follows its pin count. -/
theorem TidyBut.setPage {pool after : BufferPool D} (tidy : pool.Tidy) {frame : Nat}
    {page changed : Page} (held : pool.frames.pages frame = some page)
    (sameId : changed.pageId = page.pageId) (size : after.poolSize = pool.poolSize)
    (pages : after.frames.pages = Function.update pool.frames.pages frame (some changed))
    (table : after.frames.pageTable = pool.frames.pageTable)
    (count : after.replacer.frameCount = pool.replacer.frameCount) (ready : after.replacer.Ready)
    (here : after.replacer.inReplacer frame = true ↔ changed.pinCount = 0)
    (elsewhere : ∀ other, other ≠ frame →
      after.replacer.inReplacer other = pool.replacer.inReplacer other) : after.Tidy := by
  refine ⟨by rw [count, size, tidy.size], ready, ?_, ?_, ?_⟩
  · intro other present heldOther
    rw [pages] at heldOther
    rw [size]
    rcases update_cases heldOther with ⟨rfl, -⟩ | ⟨-, before⟩
    · exact tidy.bounded held
    · exact tidy.bounded before
  · intro pageId other found
    rw [table] at found
    obtain ⟨-, present, heldOther, named⟩ := tidy.mapped found
    refine ⟨id, ?_⟩
    by_cases same : other = frame
    · subst same
      obtain rfl := Option.some.inj (held.symm.trans heldOther)
      exact ⟨changed, by rw [pages, Function.update_self], sameId.trans named⟩
    · exact ⟨present, by rw [pages, Function.update_of_ne same, heldOther], named⟩
  · intro other bound _
    rw [size] at bound
    by_cases same : other = frame
    · subst same
      rw [here, Evictable, pages, Function.update_self]
      simp
    · rw [elsewhere other same, tidy.tracked bound id, Evictable, Evictable, pages,
        Function.update_of_ne same]

/-- A pinned page comes into the vacant frame. -/
theorem TidyBut.place {pool after : BufferPool D} {frame : Nat}
    (tidy : pool.TidyBut (fun other => other = frame)) (isFrame : frame < pool.poolSize) {page : Page}
    (pinned : page.pinCount ≠ 0) (size : after.poolSize = pool.poolSize)
    (pages : after.frames.pages = Function.update pool.frames.pages frame (some page))
    (table : after.frames.pageTable = pool.frames.pageTable.insert page.pageId frame)
    (replacer : after.replacer = pool.replacer.pin frame) : after.Tidy := by
  have bits := LayeredClock.inReplacer_pin (tidy.size.symm ▸ isFrame)
  refine ⟨by rw [replacer, LayeredClock.frameCount_pin, size, tidy.size],
    replacer ▸ tidy.ready.pin frame, ?_, ?_, ?_⟩
  · intro other present heldOther
    rw [pages] at heldOther
    rw [size]
    rcases update_cases heldOther with ⟨rfl, -⟩ | ⟨-, before⟩
    · exact isFrame
    · exact tidy.bounded before
  · intro pageId other found
    refine ⟨id, ?_⟩
    rw [table] at found
    by_cases same : pageId = page.pageId
    · subst same
      rw [AList.lookup_insert] at found
      obtain rfl := Option.some.inj found
      exact ⟨page, by rw [pages, Function.update_self], rfl⟩
    · rw [AList.lookup_insert_ne same] at found
      obtain ⟨different, present, heldOther, named⟩ := tidy.mapped found
      exact ⟨present, by rw [pages, Function.update_of_ne different, heldOther], named⟩
  · intro other bound _
    rw [size] at bound
    rw [replacer, bits, Evictable, pages]
    by_cases same : other = frame
    · subst same
      simp [pinned]
    · rw [Function.update_of_ne same, Function.update_of_ne same]
      exact tidy.tracked bound same

/-- `Victim` answers with an unpinned page, and refuses, without a change, when
there is none. -/
theorem TidyBut.victim_cases {pool : BufferPool D} (tidy : pool.Tidy) :
    (∀ frame, ¬ pool.Evictable frame) ∧ pool.replacer.victim = (none, pool.replacer) ∨
      ∃ frame, pool.replacer.victim.1 = some frame ∧ pool.Evictable frame ∧
        pool.replacer.Takes frame pool.replacer.victim.2 := by
  rcases LayeredClock.victim_cases tidy.ready with ⟨none, refused⟩ | ⟨frame, chosen, takes⟩
  · refine .inl ⟨fun frame evictable => ?_, refused⟩
    have bound := tidy.bounded evictable.choose_spec.1
    have candidate := (tidy.tracked bound id).mpr evictable
    rw [none frame (tidy.size ▸ bound)] at candidate
    cases candidate
  · exact .inr ⟨frame, chosen, (tidy.tracked (tidy.size ▸ takes.isFrame) id).mp takes.candidate,
      takes⟩

/-- There is no null frame exactly if every frame has a page. -/
theorem findFree_eq_none_iff {pool : BufferPool D} :
    pool.findFree = none ↔ ∀ frame < pool.poolSize, pool.frames.pages frame ≠ none := by
  simp [findFree, Option.ne_none_iff_isSome]

/-- A frame without a page is vacant. -/
theorem TidyBut.vacant {pool : BufferPool D} (tidy : pool.Tidy) {frame : Nat}
    (empty : pool.frames.pages frame = none) : pool.TidyBut (fun other => other = frame) := by
  refine ⟨tidy.size, tidy.ready, tidy.bounded, ?_, fun isFrame _ => tidy.tracked isFrame id⟩
  intro pageId other found
  obtain ⟨-, page, held, named⟩ := tidy.mapped found
  refine ⟨?_, page, held, named⟩
  rintro rfl
  rw [empty] at held
  cases held

variable [Disk D]

/-- A page that leaves the table leaves its frame vacant. -/
theorem TidyBut.evict {pool : BufferPool D} (tidy : pool.Tidy) {frame : Nat} {page : Page}
    (held : pool.frames.pages frame = some page) {replacer : LayeredClock}
    (takes : pool.replacer.Takes frame replacer) :
    ({ pool with frames := pool.frames.evict page, replacer } : BufferPool D).TidyBut
      (fun other => other = frame) := by
  have pages : (pool.frames.evict page).pages = pool.frames.pages := Frames.writeBack_pages _ _ _
  have table : (pool.frames.evict page).pageTable = pool.frames.pageTable.erase page.pageId := by
    simp only [Frames.evict, Frames.writeBack_pageTable]
  refine ⟨takes.frameCount.trans tidy.size, takes.ready, ?_, ?_, ?_⟩
  · intro other present heldOther
    rw [pages] at heldOther
    exact tidy.bounded heldOther
  · intro pageId other found
    rw [table] at found
    obtain ⟨different, foundBefore⟩ := UnorderedMap.lookup_of_erase found
    obtain ⟨-, present, heldOther, named⟩ := tidy.mapped foundBefore
    refine ⟨?_, present, pages ▸ heldOther, named⟩
    rintro rfl
    obtain rfl := Option.some.inj (held.symm.trans heldOther)
    exact different named.symm
  · intro other isFrame elsewhere
    rw [takes.removed, Function.update_of_ne elsewhere, Evictable, pages]
    exact tidy.tracked isFrame id

/-- A frame is refused, without a change, exactly when all pages are pinned; an
obtained frame is vacant. -/
theorem TidyBut.obtainFrame_cases {pool : BufferPool D} (tidy : pool.Tidy) :
    pool.AllPinned ∧ pool.obtainFrame = (none, pool) ∨
      ¬ pool.AllPinned ∧ ∃ frame after, pool.obtainFrame = (some frame, after) ∧
        frame < pool.poolSize ∧ after.poolSize = pool.poolSize ∧
        after.TidyBut (fun other => other = frame) := by
  unfold obtainFrame
  cases free : pool.findFree with
  | some frame =>
    have empty : pool.frames.pages frame = none := by simpa using List.find?_some free
    have bound : frame < pool.poolSize := by simpa using List.mem_of_find?_eq_some free
    refine .inr ⟨fun all => ?_, frame, pool, rfl, bound, rfl, tidy.vacant empty⟩
    obtain ⟨page, held, -⟩ := all frame bound
    rw [empty] at held
    cases held
  | none =>
    have full := findFree_eq_none_iff.mp free
    rcases tidy.victim_cases with ⟨none, refused⟩ | ⟨frame, chosen, evictable, takes⟩
    · refine .inl ⟨fun frame bound => ?_, ?_⟩
      · obtain ⟨page, held⟩ := Option.ne_none_iff_exists'.mp (full frame bound)
        refine ⟨page, held, Nat.pos_of_ne_zero fun unpinned => ?_⟩
        exact none frame ⟨page, held, unpinned⟩
      · simp only [refused]
    · obtain ⟨page, held, unpinned⟩ := evictable
      have bound := tidy.bounded held
      have notPinned : ¬ 0 < page.pinCount := by omega
      refine .inr ⟨fun all => ?_, frame, _, ?_, bound, ?_, tidy.evict held takes⟩
      · obtain ⟨other, heldOther, pinned⟩ := all frame bound
        obtain rfl := Option.some.inj (held.symm.trans heldOther)
        exact notPinned pinned
      · simp only [chosen, held, if_neg notPinned]
      · rfl

/-! ## The requests -/

omit [Disk D] in
/-- Nothing but the latch changed. -/
structure Unchanged (pool after : BufferPool D) : Prop where
  size : after.poolSize = pool.poolSize
  frames : after.frames = pool.frames
  replacer : after.replacer = pool.replacer

omit [Disk D] in
/-- A change of the latch only leaves the pool tidy. -/
theorem Unchanged.tidy {pool after : BufferPool D} (unchanged : pool.Unchanged after)
    (tidy : pool.Tidy) : after.Tidy := by
  have same : after = { pool with latch := after.latch } := by
    rw [← unchanged.size, ← unchanged.frames, ← unchanged.replacer]
  rw [same]
  exact tidy.with_latch _

/-- `FetchPage` of a page that is not resident is refused, without a change, when
all pages are pinned, and served otherwise. -/
theorem TidyBut.fetchPage_cases {pool : BufferPool D} (tidy : pool.Tidy) {pageId : Int}
    (absent : pool.frames.pageTable.lookup pageId = none) :
    pool.AllPinned ∧ (pool.fetchPage pageId).1 = none ∧ pool.Unchanged (pool.fetchPage pageId).2 ∨
      ¬ pool.AllPinned ∧ (pool.fetchPage pageId).1 ≠ none ∧ (pool.fetchPage pageId).2.Tidy := by
  unfold BufferPool.fetchPage lockGuard
  dsimp only [Guarded.setMutex, Guarded.mutex]
  rw [absent]
  rcases (tidy.with_latch pool.latch.lock).obtainFrame_cases with
    ⟨all, refused⟩ | ⟨notAll, frame, after, obtained, bound, size, vacant⟩
  · rw [refused]
    exact .inl ⟨all, rfl, rfl, rfl, rfl⟩
  · rw [obtained]
    have placed : (after.pinned (after.frames.loadPage frame pageId) frame).Tidy :=
      vacant.place (size ▸ bound) (Nat.succ_ne_zero _) rfl rfl rfl rfl
    exact .inr ⟨notAll, by simp, placed.with_latch _⟩

/-- `NewPage` is refused, without a change, when all pages are pinned, and served
otherwise. -/
theorem TidyBut.newPage_cases {pool : BufferPool D} (tidy : pool.Tidy) :
    pool.AllPinned ∧ pool.newPage.1 = none ∧ pool.Unchanged pool.newPage.2 ∨
      ¬ pool.AllPinned ∧ pool.newPage.1 ≠ none ∧ pool.newPage.2.Tidy := by
  unfold BufferPool.newPage lockGuard
  dsimp only [Guarded.setMutex, Guarded.mutex]
  rcases (tidy.with_latch pool.latch.lock).obtainFrame_cases with
    ⟨all, refused⟩ | ⟨notAll, frame, after, obtained, bound, size, vacant⟩
  · rw [refused]
    exact .inl ⟨all, rfl, rfl, rfl, rfl⟩
  · rw [obtained]
    have placed : (after.pinned (after.frames.addPage frame).2 frame).Tidy :=
      vacant.place (size ▸ bound) (Nat.succ_ne_zero _) rfl rfl rfl rfl
    exact .inr ⟨notAll, by simp, placed.with_latch _⟩

/-- A resident page is served. -/
theorem fetchPage_hit {pool : BufferPool D} {pageId : Int} {frame : Nat}
    (found : pool.frames.pageTable.lookup pageId = some frame) :
    pool.fetchPage pageId =
      (some frame, { pool with
        frames := pool.frames.modifyPage frame Page.pin
        replacer := pool.replacer.pin frame
        latch := pool.latch.lock.unlock }) := by
  unfold BufferPool.fetchPage lockGuard
  dsimp only [Guarded.setMutex, Guarded.mutex]
  rw [found]
  rfl

/-- `FetchPage` keeps the pool tidy. -/
theorem TidyBut.fetchPage {pool : BufferPool D} (tidy : pool.Tidy) (pageId : Int) :
    (pool.fetchPage pageId).2.Tidy := by
  cases found : pool.frames.pageTable.lookup pageId with
  | some frame =>
    obtain ⟨-, page, held, -⟩ := tidy.mapped found
    have bits := LayeredClock.inReplacer_pin (tidy.size.symm ▸ tidy.bounded held)
    rw [fetchPage_hit found]
    refine tidy.setPage held (rfl : page.pin.pageId = page.pageId) rfl ?_ rfl
      (LayeredClock.frameCount_pin _ _) (tidy.ready.pin frame) ?_ ?_
    · simp [Frames.modifyPage, Frames.setFrame, held]
    · simp [bits, Page.pin]
    · intro other elsewhere
      simp only [bits, Function.update_of_ne elsewhere]
  | none =>
    rcases tidy.fetchPage_cases found with ⟨-, -, unchanged⟩ | ⟨-, -, after⟩
    · exact unchanged.tidy tidy
    · exact after

/-- `NewPage` keeps the pool tidy. -/
theorem TidyBut.newPage {pool : BufferPool D} (tidy : pool.Tidy) : pool.newPage.2.Tidy := by
  rcases tidy.newPage_cases with ⟨-, -, unchanged⟩ | ⟨-, -, after⟩
  · exact unchanged.tidy tidy
  · exact after

omit [Disk D] in
/-- `UnpinPage` keeps the pool tidy. -/
theorem TidyBut.unpinPage {pool : BufferPool D} (tidy : pool.Tidy) (pageId : Int) (isDirty : Bool) :
    (pool.unpinPage pageId isDirty).2.Tidy := by
  unfold BufferPool.unpinPage lockGuard
  dsimp only [Guarded.setMutex, Guarded.mutex]
  cases found : pool.frames.pageTable.lookup pageId with
  | none => exact tidy.with_latch _
  | some frame =>
    obtain ⟨-, page, held, -⟩ := tidy.mapped found
    have bound := tidy.bounded held
    simp only [held]
    by_cases unpinned : page.pinCount = 0
    · simp only [if_pos unpinned]
      exact tidy.with_latch _
    · simp only [if_neg unpinned]
      have sameId : (released page isDirty).pageId = page.pageId := by cases isDirty <;> rfl
      by_cases last : (released page isDirty).pinCount = 0
      · simp only [if_pos last]
        have bits := @LayeredClock.inReplacer_unpin pool.replacer frame (tidy.size.symm ▸ bound)
        refine tidy.setPage held sameId rfl rfl rfl (LayeredClock.frameCount_unpin _ _ _)
          (tidy.ready.unpin frame _) ?_ ?_
        · simp [bits, last]
        · intro other elsewhere
          simp only [bits, Function.update_of_ne elsewhere]
      · simp only [if_neg last]
        refine tidy.setPage held sameId rfl rfl rfl rfl tidy.ready ?_ fun _ _ => rfl
        refine iff_of_false (fun candidate => ?_) last
        obtain ⟨other, heldOther, none⟩ := (tidy.tracked bound id).mp candidate
        obtain rfl := Option.some.inj (held.symm.trans heldOther)
        exact unpinned none

omit [Disk D] in
/-- A page changes in its frame but keeps its id and its pins. -/
theorem TidyBut.modifyPage {pool : BufferPool D} (tidy : pool.Tidy) {frame : Nat}
    {page changed : Page} (held : pool.frames.pages frame = some page)
    (sameId : changed.pageId = page.pageId) (samePins : changed.pinCount = page.pinCount)
    {frames : Frames D}
    (pages : frames.pages = Function.update pool.frames.pages frame (some changed))
    (table : frames.pageTable = pool.frames.pageTable) : ({ pool with frames }).Tidy := by
  refine tidy.setPage held sameId rfl pages table rfl tidy.ready ?_ fun _ _ => rfl
  rw [tidy.tracked (tidy.bounded held) id, samePins, Evictable, held]
  simp

omit [Disk D] in
/-- So does a client that writes its page. -/
theorem TidyBut.handle_modifyPage {pool : BufferPool D} (tidy : pool.Tidy) (frame : Nat)
    {change : Page → Page} (sameId : ∀ page, (change page).pageId = page.pageId)
    (samePins : ∀ page, (change page).pinCount = page.pinCount) :
    (pool.modifyPage frame change).Tidy := by
  unfold BufferPool.modifyPage
  cases held : pool.frames.pages frame with
  | none =>
    have same : pool.frames.modifyPage frame change = pool.frames := by
      unfold Frames.modifyPage Frames.setFrame
      rw [held, Option.map_none, ← held, Function.update_eq_self]
    rw [same]
    exact tidy
  | some page =>
    refine tidy.modifyPage held (sameId page) (samePins page) ?_ rfl
    simp [Frames.modifyPage, Frames.setFrame, held]

/-- So does the writing of a page. -/
theorem TidyBut.flushes {pool : BufferPool D} (tidy : pool.Tidy) {pageId : Int} {frames : Frames D}
    (flushes : pool.frames.Flushes pageId frames) : ({ pool with frames }).Tidy := by
  cases flushes with
  | unchanged => exact tidy
  | @written frame page resident held dirty =>
    refine tidy.modifyPage held (rfl : (page.setDirty false).pageId = page.pageId) rfl ?_ ?_
    · simp [Frames.setFrame]
    · simp [Frames.setFrame]

/-- `DeletePage` keeps the pool tidy. -/
theorem TidyBut.deletePage {pool : BufferPool D} (tidy : pool.Tidy) (pageId : Int) :
    (pool.deletePage pageId).2.Tidy := by
  unfold BufferPool.deletePage lockGuard
  dsimp only [Guarded.setMutex, Guarded.mutex]
  cases found : pool.frames.pageTable.lookup pageId with
  | none => exact tidy.with_latch _
  | some frame =>
    obtain ⟨-, page, held, named⟩ := tidy.mapped found
    have bound := tidy.bounded held
    have bits := LayeredClock.inReplacer_pin (tidy.size.symm ▸ bound)
    simp only [held]
    by_cases pinned : page.pinCount > 0
    · simp only [if_pos pinned]
      exact tidy.with_latch _
    · simp only [if_neg pinned]
      have pages : (pool.frames.dropPage frame pageId page).pages =
          Function.update pool.frames.pages frame none := by
        simp [Frames.dropPage, Frames.setFrame]
      have table : (pool.frames.dropPage frame pageId page).pageTable =
          pool.frames.pageTable.erase pageId := by
        simp [Frames.dropPage, Frames.setFrame]
      refine ⟨(LayeredClock.frameCount_pin _ _).trans tidy.size, tidy.ready.pin frame, ?_, ?_, ?_⟩
      · intro other present heldOther
        simp only [BufferPool.pinned, pages] at heldOther ⊢
        rcases update_cases heldOther with ⟨-, here⟩ | ⟨-, before⟩
        · cases here
        · exact tidy.bounded before
      · intro otherId other foundOther
        simp only [BufferPool.pinned, pages, table] at foundOther ⊢
        obtain ⟨different, foundBefore⟩ := UnorderedMap.lookup_of_erase foundOther
        obtain ⟨-, present, heldOther, namedOther⟩ := tidy.mapped foundBefore
        have elsewhere : other ≠ frame := by
          rintro rfl
          obtain rfl := Option.some.inj (held.symm.trans heldOther)
          exact different (namedOther.symm.trans named)
        exact ⟨id, present, by rw [Function.update_of_ne elsewhere, heldOther], namedOther⟩
      · intro other isFrame _
        simp only [BufferPool.pinned, Evictable, pages, bits]
        by_cases same : other = frame
        · simp [same]
        · rw [Function.update_of_ne same, Function.update_of_ne same]
          exact tidy.tracked isFrame id

/-- Every request keeps the pool tidy. -/
theorem TidyBut.handle {pool : BufferPool D} (tidy : pool.Tidy) (request : PoolRequest) :
    (handle request pool).2.Tidy := by
  have flushed := fun pageId => @flush_preserves D _ pool pageId
    (fun frames => ({ pool with frames } : BufferPool D).Tidy)
    (fun frames _ _ flushes here =>
      @TidyBut.flushes D _ { pool with frames } here _ _ flushes) tidy
  cases request with
  | fetchPage pageId => exact tidy.fetchPage pageId
  | newPage => exact tidy.newPage
  | unpinPage pageId isDirty => exact tidy.unpinPage pageId isDirty
  | deletePage pageId => exact tidy.deletePage pageId
  | flushPage pageId => exact (flushed pageId).1.with_latch _
  | flushAllPages => exact (flushed 0).2.with_latch _
  | getPageId frame => exact tidy
  | getData frame => exact tidy
  | putData frame data => exact tidy.handle_modifyPage frame (fun _ => rfl) fun _ => rfl
  | setDirty frame => exact tidy.handle_modifyPage frame (fun _ => rfl) fun _ => rfl

/-! ## Runs of the pool -/

/-- The replacer's record and the pin counts agree, the victim is never a pinned
page, and a refused request means that all pages are pinned and changes nothing. -/
structure Accounts (pool : BufferPool D) : Prop where
  candidates : ∀ frame < pool.poolSize,
    (pool.replacer.inReplacer frame = true ↔ pool.Evictable frame)
  victim : ∀ frame, pool.replacer.victim.1 = some frame → pool.Evictable frame
  fetchPage_refuses : ∀ pageId, pool.frames.pageTable.lookup pageId = none →
    ((pool.fetchPage pageId).1 = none ↔ pool.AllPinned)
  newPage_refuses : pool.newPage.1 = none ↔ pool.AllPinned
  fetchPage_refused : ∀ pageId, (pool.fetchPage pageId).1 = none →
    pool.Unchanged (pool.fetchPage pageId).2
  newPage_refused : pool.newPage.1 = none → pool.Unchanged pool.newPage.2

/-- A tidy pool accounts for its frames. -/
theorem accounts_of_tidy {pool : BufferPool D} (tidy : pool.Tidy) : pool.Accounts where
  candidates frame bound := tidy.tracked bound id
  victim frame chosen := by
    rcases tidy.victim_cases with ⟨-, refused⟩ | ⟨taken, answer, evictable, -⟩
    · rw [refused] at chosen
      cases chosen
    · obtain rfl := Option.some.inj (chosen.symm.trans answer)
      exact evictable
  fetchPage_refuses pageId absent := by
    rcases tidy.fetchPage_cases absent with ⟨all, refused, -⟩ | ⟨notAll, served, -⟩
    · exact iff_of_true refused all
    · exact iff_of_false served notAll
  newPage_refuses := by
    rcases tidy.newPage_cases with ⟨all, refused, -⟩ | ⟨notAll, served, -⟩
    · exact iff_of_true refused all
    · exact iff_of_false served notAll
  fetchPage_refused pageId refused := by
    cases found : pool.frames.pageTable.lookup pageId with
    | some frame =>
      rw [fetchPage_hit found] at refused
      cases refused
    | none =>
      rcases tidy.fetchPage_cases found with ⟨-, -, unchanged⟩ | ⟨-, served, -⟩
      · exact unchanged
      · exact absurd refused served
  newPage_refused refused := by
    rcases tidy.newPage_cases with ⟨-, -, unchanged⟩ | ⟨-, served, -⟩
    · exact unchanged
    · exact absurd refused served

/-- From an empty pool of any size over any disk, the replacer is in step with the
pins in every state that the operations of the pool, and changes of pages through
pointers, reach. The replacer's latch is set aside. -/
theorem throughout_accounts (poolSize : Nat) (disk : D) (requests : List PoolRequest) :
    Throughout (fun pool request => (handle request pool).2) Accounts
      (new poolSize disk .noop) requests :=
  @throughout_of_invariant _ _ _ Tidy _ (fun _ request tidy => tidy.handle request)
    (fun _ => accounts_of_tidy) _ (tidy_new poolSize disk) requests

end BufferPool

end MiniDB.Buffer
