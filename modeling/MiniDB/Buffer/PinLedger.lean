import MiniDB.Buffer.PageService
import MiniDB.Buffer.PinCounts

/-!
# The ledger of pins

Pins are counted page id by page id: a page that is resident has the pins of its page
object, and a page that is not has none. A page object is reset when its frame gets
another page, but only an unpinned page leaves the pool. So as long as only issued ids
are fetched, the pins of a page are the `FetchPage` and `NewPage` calls that returned it,
less the `UnpinPage` calls that returned true.
-/

namespace MiniDB.Buffer

open Foundation Storage

/-- A disk whose `AllocPage` hands out `next_page_id` and adds one to it. -/
class IssuesIds (D : Type) extends Disk D where
  nextPageId : D → Int
  readPage_keeps : ∀ disk pageId data, nextPageId (readPage disk pageId data).2 = nextPageId disk
  writePage_keeps : ∀ disk pageId data, nextPageId (writePage disk pageId data) = nextPageId disk
  allocPage_id : ∀ disk, (allocPage disk).1 = nextPageId disk
  allocPage_next : ∀ disk, nextPageId (allocPage disk).2 = nextPageId disk + 1

export IssuesIds (nextPageId)

instance : IssuesIds DiskManager where
  nextPageId disk := disk.nextPageId
  readPage_keeps _ _ _ := rfl
  writePage_keeps _ _ _ := rfl
  allocPage_id _ := rfl
  allocPage_next _ := rfl

instance : IssuesIds IdealDisk where
  nextPageId disk := disk.nextPageId
  readPage_keeps _ _ _ := rfl
  writePage_keeps _ _ _ := rfl
  allocPage_id _ := rfl
  allocPage_next _ := rfl

namespace Frames

variable {D : Type}

/-- The pins of a page: those of the page object that the table leads to. -/
def pinsOf (frames : Frames D) (pageId : Int) : Nat :=
  match frames.pageTable.lookup pageId with
  | none => 0
  | some frame => frames.pinCountAt frame

variable {frames after obtained : Frames D} {frame : Nat} {page changed : Page} {pageId : Int}

/-- A page that is not in the pool has no pins. -/
theorem pinsOf_absent (absent : frames.pageTable.lookup pageId = none) : frames.pinsOf pageId = 0 := by
  simp only [pinsOf, absent]

/-- A page in the pool has the pins of its frame. -/
theorem pinsOf_resident (resident : frames.pageTable.lookup pageId = some frame)
    (held : frames.pages frame = some page) : frames.pinsOf pageId = page.pinCount := by
  simp only [pinsOf, resident, pinCountAt_of_held held]

theorem Agrees.pinsOf_held (agrees : frames.Agrees) (held : frames.pages frame = some page) :
    frames.pinsOf page.pageId = page.pinCount :=
  pinsOf_resident (agrees.resident held) held

/-- A page changes in its frame, and with it its pins. -/
theorem Agrees.pinsOf_setFrame (agrees : frames.Agrees) (held : frames.pages frame = some page) :
    (frames.setFrame frame (some changed)).pinsOf =
      Function.update frames.pinsOf page.pageId changed.pinCount := by
  ext pageId
  by_cases same : pageId = page.pageId
  · subst same
    rw [Function.update_self]
    exact pinsOf_resident (agrees.resident held) (Function.update_self _ _ _)
  · rw [Function.update_of_ne same]
    unfold pinsOf
    dsimp only [Frames.setFrame]
    cases found : frames.pageTable.lookup pageId with
    | none => rfl
    | some other =>
      -- the table leads to another frame, because the page there has another id
      have elsewhere : other ≠ frame := by
        rintro rfl
        exact same (agrees.pageId_eq found held).symm
      simp only [pinCountAt, Function.update_of_ne elsewhere]

/-- A page that comes into a vacant frame brings its pins. -/
theorem Vacant.pinsOf_place (isVacant : frames.Vacant frame) :
    (frames.place frame page).pinsOf = Function.update frames.pinsOf page.pageId page.pinCount := by
  ext pageId
  by_cases same : pageId = page.pageId
  · subst same
    rw [Function.update_self]
    exact pinsOf_resident (AList.lookup_insert _) (Function.update_self _ _ _)
  · rw [Function.update_of_ne same]
    unfold pinsOf
    dsimp only [place, setFrame]
    rw [AList.lookup_insert_ne same]
    cases found : frames.pageTable.lookup pageId with
    | none => rfl
    | some other =>
      have elsewhere := (isVacant.mapped found).1
      simp only [pinCountAt, Function.update_of_ne elsewhere]

/-- Taking an unpinned page out of the table changes the pins of no page. -/
theorem Agrees.pinsOf_erase (agrees : frames.Agrees) (held : frames.pages frame = some page)
    (unpinned : page.pinCount = 0) :
    ({ frames with pageTable := frames.pageTable.erase page.pageId }).pinsOf = frames.pinsOf := by
  ext pageId
  by_cases same : pageId = page.pageId
  · subst same
    rw [agrees.pinsOf_held held, unpinned]
    exact pinsOf_absent (AList.lookup_erase _ _)
  · unfold pinsOf
    dsimp only
    rw [AList.lookup_erase_ne same]
    rfl

/-- What is done to a page through a pointer, but for pinning it, pins nothing. -/
theorem Agrees.pinsOf_modifyPage (agrees : frames.Agrees) {change : Page → Page}
    (sameId : ∀ page, (change page).pageId = page.pageId)
    (samePins : ∀ page, (change page).pinCount = page.pinCount) :
    (frames.modifyPage frame change).Agrees ∧
      (frames.modifyPage frame change).pinsOf = frames.pinsOf := by
  unfold modifyPage
  cases held : frames.pages frame with
  | none =>
    have same : frames.setFrame frame none = frames := by
      rw [Frames.setFrame, ← held, Function.update_eq_self]
    rw [Option.map_none, same]
    exact ⟨agrees, rfl⟩
  | some page =>
    rw [Option.map_some]
    refine ⟨agrees.setFrame held (sameId page), ?_⟩
    rw [agrees.pinsOf_setFrame held, samePins, ← agrees.pinsOf_held held, Function.update_eq_self]

variable [IssuesIds D]

/-- Table and frames agree, and every resident page has an id that was issued. -/
structure Sound (frames : Frames D) : Prop where
  agrees : frames.Agrees
  issued : ∀ {pageId : Int} {frame : Nat}, frames.pageTable.lookup pageId = some frame →
    pageId < nextPageId frames.disk

/-- A pool without pages. -/
theorem sound_empty (disk : D) : ({ disk } : Frames D).Sound := by
  refine ⟨agrees_empty disk, ?_⟩
  intro pageId frame found
  cases found

theorem nextPageId_writeBack (frames : Frames D) (pageId : Int) (page : Page) :
    nextPageId (frames.writeBack pageId page).disk = nextPageId frames.disk := by
  unfold writeBack
  split
  · exact IssuesIds.writePage_keeps _ _ _
  · rfl

/-- A step that issues no id and adds no page to the table. -/
theorem Sound.keep (sound : frames.Sound) (agrees : after.Agrees)
    (next : nextPageId after.disk = nextPageId frames.disk)
    (fewer : ∀ {pageId frame}, after.pageTable.lookup pageId = some frame →
      frames.pageTable.lookup pageId ≠ none) : after.Sound := by
  refine ⟨agrees, ?_⟩
  intro pageId frame found
  obtain ⟨before, foundBefore⟩ := Option.ne_none_iff_exists'.mp (fewer found)
  exact next ▸ sound.issued foundBefore

/-- Obtaining a frame issues no id. -/
theorem Obtains.nextPageId_same {result : Option Nat} (obtains : frames.Obtains result obtained) :
    nextPageId obtained.disk = nextPageId frames.disk := by
  cases obtains with
  | refused => rfl
  | free empty => rfl
  | evicted held unpinned => exact nextPageId_writeBack frames _ _

/-- Obtaining a frame issues no id, and what it evicts has no pins. -/
theorem Obtains.keeps_pins (obtains : frames.Obtains (some frame) obtained) (agrees : frames.Agrees) :
    nextPageId obtained.disk = nextPageId frames.disk ∧ obtained.pinsOf = frames.pinsOf := by
  refine ⟨obtains.nextPageId_same, ?_⟩
  cases obtains with
  | free empty => rfl
  | evicted held unpinned =>
    rw [← agrees.pinsOf_erase held unpinned]
    unfold evict
    rw [writeBack_eq]
    rfl

/-- A page that comes in was absent, so it has the pin that it comes in with. -/
theorem Sound.place (sound : frames.Sound) (obtains : frames.Obtains (some frame) obtained)
    (absent : frames.pageTable.lookup page.pageId = none) {disk : D}
    (next : nextPageId frames.disk ≤ nextPageId disk) (issued : page.pageId < nextPageId disk)
    (pinned : page.pinCount = 1) :
    ({ obtained with disk }.place frame page).Sound ∧
      ({ obtained with disk }.place frame page).pinsOf =
        Function.update frames.pinsOf page.pageId (frames.pinsOf page.pageId + 1) := by
  have vacant := (sound.agrees.vacant_obtained obtains).with_disk disk
  have pins := (obtains.keeps_pins sound.agrees).2
  have absentNow := obtains.lookup_none absent
  refine ⟨⟨(vacant.agrees_place_iff page).mpr absentNow, ?_⟩, ?_⟩
  · intro pageId other found
    by_cases same : pageId = page.pageId
    · exact same ▸ issued
    · have before : obtained.pageTable.lookup pageId = some other :=
        (AList.lookup_insert_ne same).symm.trans found
      have resident : frames.pageTable.lookup pageId ≠ none := fun none => by
        cases (obtains.lookup_none none).symm.trans before
      obtain ⟨holder, foundBefore⟩ := Option.ne_none_iff_exists'.mp resident
      exact Int.lt_of_lt_of_le (sound.issued foundBefore) next
  · have same : ({ obtained with disk } : Frames D).pinsOf = obtained.pinsOf := rfl
    rw [vacant.pinsOf_place, same, pins, pinsOf_absent absent, pinned]

/-! ## What one operation does to the pins -/

/-- `FetchPage` adds one pin to the page that it brings. -/
theorem Fetches.sound {result : Option Nat} (fetches : frames.Fetches pageId result after)
    (sound : frames.Sound) (issued : pageId < nextPageId frames.disk) :
    after.Sound ∧ after.pinsOf =
      if result.isSome then Function.update frames.pinsOf pageId (frames.pinsOf pageId + 1)
      else frames.pinsOf := by
  cases fetches with
  | refused => exact ⟨sound, rfl⟩
  | @hit frame resident =>
    obtain ⟨page, held, rfl⟩ := sound.agrees.mapped resident
    rw [modifyPage, held, Option.map_some, sound.agrees.pinsOf_setFrame held,
      sound.agrees.pinsOf_held held]
    exact ⟨⟨sound.agrees.setFrame held rfl, sound.issued⟩, rfl⟩
  | @loaded frame obtained absent obtains =>
    have next : nextPageId (Disk.readPage obtained.disk pageId
        (obtained.preparePage frame pageId).data).2 = nextPageId frames.disk :=
      (IssuesIds.readPage_keeps _ _ _).trans (obtains.keeps_pins sound.agrees).1
    exact sound.place obtains absent (Int.le_of_eq next.symm) (next.symm ▸ issued) rfl

/-- The id of a new page was not resident. -/
theorem Creates.sound {pageId : Int} {frame : Nat} (creates : frames.Creates (some (pageId, frame)) after)
    (sound : frames.Sound) :
    pageId = nextPageId frames.disk ∧ nextPageId after.disk = nextPageId frames.disk + 1 ∧
      after.Sound ∧ after.pinsOf =
        Function.update frames.pinsOf pageId (frames.pinsOf pageId + 1) := by
  cases creates with
  | @added _ obtained obtains =>
    have same := (obtains.keeps_pins sound.agrees).1
    have idIs : (obtained.addPage frame).1 = nextPageId frames.disk :=
      (IssuesIds.allocPage_id _).trans same
    have next : nextPageId (Disk.allocPage obtained.disk).2 = nextPageId frames.disk + 1 := by
      rw [IssuesIds.allocPage_next, same]
    have absent : frames.pageTable.lookup (obtained.addPage frame).1 = none := by
      by_contra resident
      obtain ⟨holder, found⟩ := Option.ne_none_iff_exists'.mp resident
      exact absurd (sound.issued found) (Int.not_lt.mpr (Int.le_of_eq idIs.symm))
    have grown : nextPageId frames.disk ≤ nextPageId (Disk.allocPage obtained.disk).2 := by omega
    have issued : (obtained.addPage frame).1 < nextPageId (Disk.allocPage obtained.disk).2 := by omega
    exact ⟨idIs, next, sound.place obtains absent grown issued rfl⟩

/-- `UnpinPage` returns true just when the page has a pin, and takes it. -/
theorem Unpins.sound {isDirty result : Bool} (unpins : frames.Unpins pageId isDirty result after)
    (sound : frames.Sound) :
    (result = true ↔ 0 < frames.pinsOf pageId) ∧ after.Sound ∧
      after.pinsOf = Function.update frames.pinsOf pageId (frames.pinsOf pageId - 1) := by
  cases unpins with
  | refused unpinned =>
    have none : frames.pinsOf pageId = 0 := by
      cases found : frames.pageTable.lookup pageId with
      | none => exact pinsOf_absent found
      | some frame =>
        obtain ⟨page, held, -⟩ := sound.agrees.mapped found
        rw [pinsOf_resident found held]
        exact unpinned found held
    refine ⟨by simp [none], sound, ?_⟩
    rw [none, Nat.zero_sub, ← none, Function.update_eq_self]
  | @released frame page resident held pinned =>
    obtain rfl := sound.agrees.pageId_eq resident held
    have less : (BufferPool.released page isDirty).pinCount = page.pinCount - 1 := by
      unfold BufferPool.released
      split <;> rfl
    have sameId : (BufferPool.released page isDirty).pageId = page.pageId := by
      unfold BufferPool.released
      split <;> rfl
    rw [sound.agrees.pinsOf_setFrame held, sound.agrees.pinsOf_held held, less]
    exact ⟨iff_of_true rfl (Nat.pos_of_ne_zero pinned),
      ⟨sound.agrees.setFrame held sameId, sound.issued⟩, rfl⟩

/-- `FlushPage` leaves the pins. -/
theorem Flushes.sound (flushes : frames.Flushes pageId after) (sound : frames.Sound) :
    after.Sound ∧ after.pinsOf = frames.pinsOf := by
  have agrees := flushes.agrees sound.agrees
  cases flushes with
  | unchanged => exact ⟨sound, rfl⟩
  | @written frame page resident held dirty =>
    refine ⟨sound.keep agrees (nextPageId_writeBack frames pageId page) ?_, ?_⟩
    · intro other holder found
      rw [setFrame, writeBack_eq] at found
      exact Option.ne_none_iff_exists'.mpr ⟨holder, found⟩
    · have same : ((frames.writeBack pageId page).setFrame frame (some (page.setDirty false))).pinsOf =
          (frames.setFrame frame (some (page.setDirty false))).pinsOf := by
        rw [writeBack_eq]
        rfl
      rw [same, sound.agrees.pinsOf_setFrame held]
      exact (congrArg _ (sound.agrees.pinsOf_held held).symm).trans (Function.update_eq_self _ _)

/-- `DeletePage` leaves the pins. -/
theorem Deletes.sound {result : Bool} (deletes : frames.Deletes pageId result after)
    (sound : frames.Sound) : after.Sound ∧ after.pinsOf = frames.pinsOf := by
  have agrees := deletes.agrees sound.agrees
  cases deletes with
  | refused => exact ⟨sound, rfl⟩
  | @deleted frame page resident held unpinned =>
    obtain rfl := sound.agrees.pageId_eq resident held
    refine ⟨sound.keep agrees (nextPageId_writeBack frames page.pageId page) ?_, ?_⟩
    · intro other holder found
      unfold dropPage at found
      rw [writeBack_eq] at found
      exact Option.ne_none_iff_exists'.mpr ⟨holder, (UnorderedMap.lookup_of_erase found).2⟩
    · rw [← sound.agrees.pinsOf_erase held unpinned]
      unfold dropPage
      rw [writeBack_eq]
      ext other
      unfold pinsOf
      dsimp only [setFrame]
      cases found : (frames.pageTable.erase page.pageId).lookup other with
      | none => rfl
      | some holder =>
        have elsewhere := ((sound.agrees.vacant_erase held).mapped found).1
        simp only [pinCountAt, Function.update_of_ne elsewhere]

end Frames

/-! ## Runs -/

/-- A request and its answer. -/
structure Answered where
  request : PoolRequest
  answer : request.Answer

namespace Answered

/-- A `FetchPage` or `NewPage` that returned the page. -/
def acquires (pageId : Int) : Answered → Bool
  | ⟨.fetchPage fetched, answer⟩ => Option.isSome answer && decide (fetched = pageId)
  | ⟨.newPage, answer⟩ => Option.any (fun created => decide (created.1 = pageId)) answer
  | _ => false

/-- An `UnpinPage` of the page that returned true. -/
def releases (pageId : Int) : Answered → Bool
  | ⟨.unpinPage unpinned _, answer⟩ => and answer (decide (unpinned = pageId))
  | _ => false

variable {D : Type} [Disk D] {pageId : Int} (pool : BufferPool D)

theorem acquires_fetchPage (fetched : Int) :
    acquires pageId ⟨.fetchPage fetched, (pool.handle (.fetchPage fetched)).1⟩ =
      ((pool.fetchPage fetched).1.isSome && decide (fetched = pageId)) := rfl

theorem acquires_newPage :
    acquires pageId ⟨.newPage, (pool.handle .newPage).1⟩ =
      pool.newPage.1.any fun created => decide (created.1 = pageId) := rfl

theorem releases_unpinPage (unpinned : Int) (isDirty : Bool) :
    releases pageId ⟨.unpinPage unpinned isDirty, (pool.handle (.unpinPage unpinned isDirty)).1⟩ =
      ((pool.unpinPage unpinned isDirty).1 && decide (unpinned = pageId)) := rfl

end Answered

namespace BufferPool

variable {D : Type} [IssuesIds D]

/-- The pool after a request. -/
def serve (pool : BufferPool D) (request : PoolRequest) : BufferPool D := (handle request pool).2

/-- The requests of a run with their answers. -/
def answers (pool : BufferPool D) : List PoolRequest → List Answered
  | [] => []
  | request :: requests =>
    ⟨request, (handle request pool).1⟩ :: answers (pool.serve request) requests

/-- How often a page was returned in a run. -/
def acquisitions (pool : BufferPool D) (requests : List PoolRequest) (pageId : Int) : Nat :=
  (pool.answers requests).countP (Answered.acquires pageId)

/-- How often a page was released in a run. -/
def releases (pool : BufferPool D) (requests : List PoolRequest) (pageId : Int) : Nat :=
  (pool.answers requests).countP (Answered.releases pageId)

/-- `FetchPage` is asked only for ids below `next_page_id`. -/
def FetchesIssued (pool : BufferPool D) : PoolRequest → Prop
  | .fetchPage pageId => pageId < nextPageId pool.frames.disk
  | _ => True

variable {pool : BufferPool D} {pageId : Int}

/-- A pin more on one page. -/
theorem update_succ (pins : Int → Nat) (acquired pageId : Int) :
    Function.update pins acquired (pins acquired + 1) pageId =
      pins pageId + (decide (acquired = pageId)).toNat := by
  by_cases same : acquired = pageId
  · simp [same]
  · simp [same, Function.update_of_ne (Ne.symm same)]

/-- A pin less on one page, if it has one. -/
theorem update_pred (pins : Int → Nat) {released : Bool} {unpinned : Int}
    (pinned : released = true ↔ 0 < pins unpinned) (pageId : Int) :
    Function.update pins unpinned (pins unpinned - 1) pageId +
      (released && decide (unpinned = pageId)).toNat = pins pageId := by
  by_cases same : unpinned = pageId
  · subst same
    cases released with
    | true =>
      have positive := pinned.mp rfl
      simp
      omega
    | false =>
      have zero : ¬ 0 < pins unpinned := fun positive => Bool.false_ne_true (pinned.mpr positive)
      simp
      omega
  · simp [same, Function.update_of_ne (Ne.symm same)]

/-- One request keeps the pool sound, and the pins of every page change as the answer says. -/
theorem pinsOf_serve (sound : pool.frames.Sound) {request : PoolRequest}
    (issued : pool.FetchesIssued request) :
    (pool.serve request).frames.Sound ∧ ∀ pageId,
      (pool.serve request).frames.pinsOf pageId +
          (Answered.releases pageId ⟨request, (handle request pool).1⟩).toNat =
        pool.frames.pinsOf pageId +
          (Answered.acquires pageId ⟨request, (handle request pool).1⟩).toNat := by
  -- most requests return no page and release none
  have unchanged : ∀ {after : BufferPool D},
      after.frames.Sound ∧ after.frames.pinsOf = pool.frames.pinsOf →
        after.frames.Sound ∧ ∀ pageId, after.frames.pinsOf pageId + 0 = pool.frames.pinsOf pageId + 0 :=
    fun kept => ⟨kept.1, fun pageId => by rw [kept.2]⟩
  have modified : ∀ (frame : Nat) (change : Page → Page),
      (∀ page, (change page).pageId = page.pageId) → (∀ page, (change page).pinCount = page.pinCount) →
        (pool.modifyPage frame change).frames.Sound ∧
          (pool.modifyPage frame change).frames.pinsOf = pool.frames.pinsOf := by
    intro frame change sameId samePins
    obtain ⟨agrees, pins⟩ := sound.agrees.pinsOf_modifyPage sameId samePins
    exact ⟨⟨agrees, sound.issued⟩, pins⟩
  have flushed := fun pageId => @flush_preserves _ _ pool pageId
    (fun after => after.Sound ∧ after.pinsOf = pool.frames.pinsOf)
    (fun _ _ _ flushes kept => (flushes.sound kept.1).imp_right fun same => same.trans kept.2)
    ⟨sound, rfl⟩
  cases request with
  | fetchPage fetched =>
    obtain ⟨after, pins⟩ := (pool.fetchPage_fetches fetched).sound sound issued
    refine ⟨after, fun pageId => ?_⟩
    have result : (pool.serve (.fetchPage fetched)).frames.pinsOf = _ := pins
    simp only [result, Answered.releases, Answered.acquires_fetchPage]
    cases (pool.fetchPage fetched).1 with
    | none => rfl
    | some frame => exact update_succ pool.frames.pinsOf fetched pageId
  | newPage =>
    have creates := pool.newPage_creates
    simp only [Answered.releases, Answered.acquires_newPage]
    cases made : pool.newPage.1 with
    | none =>
      rw [made] at creates
      have result : (pool.serve .newPage).frames = pool.frames := creates.refused_eq
      rw [result]
      exact ⟨sound, fun _ => rfl⟩
    | some created =>
      rw [made] at creates
      obtain ⟨-, -, after, pins⟩ := creates.sound sound
      have result : (pool.serve .newPage).frames.pinsOf = _ := pins
      refine ⟨after, fun pageId => ?_⟩
      rw [result]
      exact update_succ pool.frames.pinsOf created.1 pageId
  | unpinPage unpinned isDirty =>
    obtain ⟨released, after, pins⟩ := (pool.unpinPage_unpins unpinned isDirty).sound sound
    refine ⟨after, fun pageId => ?_⟩
    have result : (pool.serve (.unpinPage unpinned isDirty)).frames.pinsOf = _ := pins
    simp only [result, Answered.releases_unpinPage, Answered.acquires]
    exact update_pred pool.frames.pinsOf released pageId
  | deletePage deleted => exact unchanged ((pool.deletePage_deletes deleted).sound sound)
  | flushPage flushedId => exact unchanged (flushed flushedId).1
  | flushAllPages => exact unchanged (flushed 0).2
  | getPageId frame => exact unchanged ⟨sound, rfl⟩
  | getData frame => exact unchanged ⟨sound, rfl⟩
  | putData frame data =>
    exact unchanged (modified frame (fun page => page.setData data) (fun _ => rfl) fun _ => rfl)
  | setDirty frame =>
    exact unchanged (modified frame (fun page => page.setDirty true) (fun _ => rfl) fun _ => rfl)

/-- Along a run, acquisitions and releases account for the pins of every page. -/
theorem pinsOf_run {requests : List PoolRequest} (sound : pool.frames.Sound)
    (issued : EachCall serve FetchesIssued pool requests) :
    (run serve pool requests).frames.Sound ∧ ∀ pageId,
      (run serve pool requests).frames.pinsOf pageId + pool.releases requests pageId =
        pool.frames.pinsOf pageId + pool.acquisitions requests pageId := by
  induction requests generalizing pool with
  | nil => exact ⟨sound, fun _ => rfl⟩
  | cons request requests ih =>
    obtain ⟨after, step⟩ := pinsOf_serve sound issued.1
    obtain ⟨final, rest⟩ := ih after issued.2
    refine ⟨final, fun pageId => ?_⟩
    have here := step pageId
    have later := rest pageId
    have counted : ∀ (counts : Answered → Bool) (first : Answered) (others : List Answered),
        (first :: others).countP counts = others.countP counts + (counts first).toNat := by
      intro counts first others
      rw [List.countP_cons]
      cases counts first <;> rfl
    simp only [releases, acquisitions, answers, counted] at later ⊢
    change (run serve (pool.serve request) requests).frames.pinsOf pageId + _ = _
    omega

/-- `DeletePage` returns true just when the page is resident and has no pin. -/
theorem deletePage_iff (sound : pool.frames.Sound) (pageId : Int) :
    (pool.deletePage pageId).1 = true ↔
      pool.frames.pageTable.lookup pageId ≠ none ∧ pool.frames.pinsOf pageId = 0 := by
  unfold deletePage lockGuard
  dsimp only [Guarded.setMutex]
  cases found : pool.frames.pageTable.lookup pageId with
  | none => simp
  | some frame =>
    obtain ⟨page, held, -⟩ := sound.agrees.mapped found
    simp only [held, Frames.pinsOf_resident found held]
    by_cases pinned : page.pinCount > 0
    · rw [if_pos pinned]
      simp
      omega
    · rw [if_neg pinned]
      simp
      omega

/-- From an empty pool on, in every run that fetches only issued ids, the acquisitions of
a page less its releases are its pins, and decide what `UnpinPage` and `DeletePage` return. -/
theorem ledger_exact (poolSize : Nat) (disk : D) (replacerLatch : Mutex) (requests : List PoolRequest)
    (issued : EachCall serve FetchesIssued (new poolSize disk replacerLatch) requests)
    (pageId : Int) :
    let start := new poolSize disk replacerLatch
    let pool := run serve start requests
    let count : Int := start.acquisitions requests pageId - start.releases requests pageId
    count = pool.frames.pinsOf pageId ∧
      (∀ isDirty, (pool.unpinPage pageId isDirty).1 = true ↔ 0 < count) ∧
      ((pool.deletePage pageId).1 = true ↔
        pool.frames.pageTable.lookup pageId ≠ none ∧ count = 0) := by
  have empty : (new poolSize disk replacerLatch).frames.Sound := Frames.sound_empty disk
  obtain ⟨sound, counts⟩ := pinsOf_run empty issued
  have none : (new poolSize disk replacerLatch).frames.pinsOf pageId = 0 := rfl
  have count := counts pageId
  rw [none] at count
  refine ⟨by omega, fun isDirty => ?_, ?_⟩
  · have unpins := (unpinPage_unpins (run serve (new poolSize disk replacerLatch) requests) pageId
      isDirty).sound sound
    rw [unpins.1]
    omega
  · rw [deletePage_iff sound]
    refine and_congr_right fun _ => ?_
    omega

/-- Two frames and three pages: the first is pinned twice and released once, the second is
released and makes room for the third. -/
theorem ledger_exact_evicted :
    EachCall serve FetchesIssued (new 2 (IdealDisk.start 0 fun _ => Bytes.zeros) .noop)
        [.newPage, .fetchPage 0, .newPage, .unpinPage 1 true, .newPage, .unpinPage 0 false] ∧
      ((run serve (new 2 (IdealDisk.start 0 fun _ => Bytes.zeros) .noop)
        [.newPage, .fetchPage 0, .newPage, .unpinPage 1 true, .newPage,
          .unpinPage 0 false]).unpinPage 0 false).1 = true := by
  have issued : EachCall serve FetchesIssued (new 2 (IdealDisk.start 0 fun _ => Bytes.zeros) .noop)
      [.newPage, .fetchPage 0, .newPage, .unpinPage 1 true, .newPage, .unpinPage 0 false] :=
    ⟨trivial, Int.zero_lt_one, trivial, trivial, trivial, trivial, trivial⟩
  refine ⟨issued, ((ledger_exact 2 _ .noop _ issued 0).2.1 false).mpr ?_⟩
  decide +kernel

end BufferPool

end MiniDB.Buffer
