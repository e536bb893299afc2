import MiniDB.Buffer.Residency

/-!
# Whose temperature a page has

`Page::Reset` leaves the temperature alone, so the page that comes into a recycled
frame starts with the temperature of the page that left it. `marked` keeps the pages
that a client has set to `HOT` since they were last loaded. The two differ exactly
from the first time on that a frame is recycled whose page object is still `HOT`.
-/

namespace MiniDB.Buffer

open Foundation Storage

variable {D : Type}

/-- The pool, and the pages set to `HOT` since they were last loaded. -/
structure MarkedPool (D : Type) where
  pool : BufferPool D
  marked : Int → Bool := fun _ => false

/-- A call on the pool, or `SetTemperature` through the pointer to the page in a frame. -/
inductive MarkingCall where
  | call (call : PoolCall)
  | setTemperature (frame : Nat) (temperature : PageTemperature)

/-- What `UnpinPage` passes to `replacer->Unpin`: the frame and `is_hot`. -/
def BufferPool.replacerUnpin (pool : BufferPool D) (pageId : Int) (isDirty : Bool) :
    Option (Nat × Bool) :=
  match pool.frames.pageTable.lookup pageId with
  | none => none
  | some frame =>
    match pool.frames.pages frame with
    | none => none
    | some page =>
      if page.pinCount = 0 then none
      else if (released page isDirty).pinCount = 0 then
        some (frame, decide ((released page isDirty).temperature = .hot))
      else none

/-- The replacer after `UnpinPage` has had just that call. -/
theorem BufferPool.replacer_unpinPage (pool : BufferPool D) (pageId : Int) (isDirty : Bool) :
    (pool.unpinPage pageId isDirty).2.replacer =
      match pool.replacerUnpin pageId isDirty with
      | none => pool.replacer
      | some (frame, isHot) => pool.replacer.unpin frame isHot := by
  unfold unpinPage replacerUnpin lockGuard
  dsimp only [Guarded.setMutex]
  cases pool.frames.pageTable.lookup pageId with
  | none => rfl
  | some frame =>
    dsimp only
    cases pool.frames.pages frame with
    | none => rfl
    | some page =>
      dsimp only
      split
      · rfl
      · split <;> rfl

namespace MarkedPool

/-- An empty pool. -/
def start (poolSize : Nat) (disk : D) (replacerLatch : Mutex) : MarkedPool D :=
  { pool := BufferPool.new poolSize disk replacerLatch }

variable [Disk D]

/-- The marks once a call has returned: a page that is loaded loses its mark. -/
def markedAfter (history : MarkedPool D) : PoolCall → Int → Bool
  | .fetchPage pageId =>
    if history.pool.frames.pageTable.lookup pageId = none ∧
        (history.pool.fetchPage pageId).1 ≠ none then
      Function.update history.marked pageId false
    else history.marked
  | .newPage =>
    match history.pool.newPage.1 with
    | none => history.marked
    | some (pageId, _) => Function.update history.marked pageId false
  | _ => history.marked

/-- One call. Only a page that is pinned can be given a temperature. -/
def step (history : MarkedPool D) : MarkingCall → MarkedPool D
  | .call call => { pool := history.pool.step call, marked := history.markedAfter call }
  | .setTemperature frame temperature =>
    match history.pool.frames.pages frame with
    | none => history
    | some page =>
      if page.pinCount > 0 then
        let frames := history.pool.frames.setFrame frame (some (page.setTemperature temperature))
        { pool := { history.pool with frames }
          marked :=
            if temperature = .hot then Function.update history.marked page.pageId true
            else history.marked }
      else history

/-- A page that `isHotPage` calls hot was set to `HOT` since it was last loaded. -/
def Owned (history : MarkedPool D) : Prop :=
  ∀ pageId, history.pool.isHotPage pageId = true → history.marked pageId = true

/-- The flag that `UnpinPage` passes to the replacer obeys the same rule. -/
def FlagOwned (history : MarkedPool D) : MarkingCall → Prop
  | .call (.unpinPage pageId isDirty) =>
    ∀ frame, history.pool.replacerUnpin pageId isDirty = some (frame, true) →
      history.marked pageId = true
  | _ => True

/-- A page that comes in does not take over a page object that is still `HOT`. -/
def RecyclesUnmarked (history : MarkedPool D) : MarkingCall → Prop
  | .call (.fetchPage pageId) =>
    history.pool.frames.pageTable.lookup pageId = none →
      ∀ frame page, history.pool.obtainFrame.1 = some frame →
        history.pool.frames.pages frame = some page → page.temperature ≠ .hot
  | .call .newPage =>
    ∀ frame page, history.pool.obtainFrame.1 = some frame →
      history.pool.frames.pages frame = some page → page.temperature ≠ .hot
  | _ => True

end MarkedPool

/-! ## Temperatures through the table -/

namespace Frames

/-- The temperature of a resident page. -/
def temperatureAt (frames : Frames D) (pageId : Int) : Option PageTemperature :=
  ((frames.pageTable.lookup pageId).bind frames.pages).map Page.temperature

/-- The table leads to the pages it names. -/
def Mapped (frames : Frames D) : Prop :=
  ∀ pageId frame, frames.pageTable.lookup pageId = some frame →
    ∃ page, frames.pages frame = some page ∧ page.pageId = pageId

/-- The table leads to the pages it names, and to no page in one frame. -/
def MappedElsewhere (frames : Frames D) (frame : Nat) : Prop :=
  ∀ pageId other, frames.pageTable.lookup pageId = some other →
    other ≠ frame ∧ ∃ page, frames.pages other = some page ∧ page.pageId = pageId

/-- A page that changes in its frame and keeps its id and temperature. -/
theorem Mapped.setFrame {frames : Frames D} (mapped : frames.Mapped) {frame : Nat}
    {page changed : Page} (held : frames.pages frame = some page)
    (sameId : changed.pageId = page.pageId) : (frames.setFrame frame (some changed)).Mapped := by
  intro pageId other found
  obtain ⟨present, heldPresent, same⟩ := mapped _ _ found
  by_cases here : other = frame
  · subst here
    obtain rfl := Option.some.inj (held.symm.trans heldPresent)
    exact ⟨changed, Function.update_self _ _ _, sameId.trans same⟩
  · exact ⟨present, (Function.update_of_ne here _ _).trans heldPresent, same⟩

/-- A page that keeps its temperature. -/
theorem temperatureAt_setFrame {frames : Frames D} {frame : Nat} {page changed : Page}
    (held : frames.pages frame = some page) (same : changed.temperature = page.temperature)
    (pageId : Int) :
    (frames.setFrame frame (some changed)).temperatureAt pageId = frames.temperatureAt pageId := by
  unfold temperatureAt
  change ((frames.pageTable.lookup pageId).bind (Function.update frames.pages frame _)).map _ = _
  cases frames.pageTable.lookup pageId with
  | none => rfl
  | some other =>
    by_cases here : other = frame
    · subst here
      simp [held, same]
    · simp [here]

/-- The temperature that a page finds in the frame it comes into. -/
def recycledTemperature (frames : Frames D) (frame : Nat) : PageTemperature :=
  ((frames.pages frame).getD {}).temperature

/-- A frame passes on no heat exactly if its page is not hot. -/
theorem recycledTemperature_ne_hot_iff {frames : Frames D} {frame : Nat} :
    frames.recycledTemperature frame ≠ .hot ↔
      ∀ page, frames.pages frame = some page → page.temperature ≠ .hot := by
  unfold recycledTemperature
  cases frames.pages frame <;> simp

/-- A page put in a frame that nothing leads to. -/
theorem MappedElsewhere.place {frames : Frames D} {frame : Nat}
    (mapped : frames.MappedElsewhere frame) (page : Page) :
    (frames.place frame page).Mapped ∧
      ∀ pageId, (frames.place frame page).temperatureAt pageId =
        if pageId = page.pageId then some page.temperature else frames.temperatureAt pageId := by
  constructor
  · intro pageId other found
    by_cases same : pageId = page.pageId
    · subst same
      obtain rfl : frame = other := Option.some.inj ((AList.lookup_insert _).symm.trans found)
      exact ⟨page, Function.update_self _ _ _, rfl⟩
    · obtain ⟨elsewhere, present, held, sameId⟩ :=
        mapped _ _ ((AList.lookup_insert_ne same).symm.trans found)
      exact ⟨present, (Function.update_of_ne elsewhere _ _).trans held, sameId⟩
  · intro pageId
    unfold temperatureAt Frames.place Frames.setFrame
    split
    · next same =>
      subst same
      simp
    · next different =>
      rw [AList.lookup_insert_ne different]
      cases found : frames.pageTable.lookup pageId with
      | none => rfl
      | some other => simp [(mapped _ _ found).1]

/-- What an operation does when a page comes into the pool: it has the temperature
that the frame was left with. Every other page keeps its own or leaves. -/
structure Loads (before : Frames D) (pageId : Int) (temperature : PageTemperature)
    (after : Frames D) : Prop where
  mapped : after.Mapped
  loaded : after.temperatureAt pageId = some temperature
  others : ∀ other, other ≠ pageId → after.temperatureAt other = before.temperatureAt other ∨
    after.temperatureAt other = none

/-- What every other operation does: pages keep their temperature or leave. -/
structure KeepsTemperatures (before after : Frames D) : Prop where
  mapped : after.Mapped
  temperatures : ∀ pageId, after.temperatureAt pageId = before.temperatureAt pageId ∨
    after.temperatureAt pageId = none

theorem Mapped.keeps {frames : Frames D} (mapped : frames.Mapped) :
    frames.KeepsTemperatures frames :=
  ⟨mapped, fun _ => .inl rfl⟩

/-- A page is replaced by one with its id and its temperature. -/
theorem Mapped.keeps_setFrame {frames : Frames D} (mapped : frames.Mapped) {frame : Nat}
    {page changed : Page} (held : frames.pages frame = some page)
    (sameId : changed.pageId = page.pageId) (same : changed.temperature = page.temperature) :
    frames.KeepsTemperatures (frames.setFrame frame (some changed)) :=
  ⟨mapped.setFrame held sameId, fun pageId => .inl (temperatureAt_setFrame held same pageId)⟩

variable [Disk D]

/-- Obtaining a frame leaves nothing that leads to it, and changes no page. -/
theorem Mapped.obtained {frames obtained : Frames D} (mapped : frames.Mapped) {frame : Nat}
    (obtains : frames.Obtains (some frame) obtained) :
    obtained.MappedElsewhere frame ∧ obtained.pages = frames.pages ∧
      ∀ pageId, obtained.temperatureAt pageId = frames.temperatureAt pageId ∨
        obtained.temperatureAt pageId = none := by
  cases obtains with
  | free empty =>
    refine ⟨?_, rfl, fun _ => .inl rfl⟩
    intro pageId other found
    obtain ⟨page, held, sameId⟩ := mapped _ _ found
    refine ⟨?_, page, held, sameId⟩
    rintro rfl
    rw [empty] at held
    cases held
  | @evicted _ page held unpinned =>
    unfold evict
    rw [writeBack_eq]
    refine ⟨?_, rfl, fun pageId => ?_⟩
    · intro pageId other found
      obtain ⟨different, before⟩ := UnorderedMap.lookup_of_erase found
      obtain ⟨present, heldPresent, sameId⟩ := mapped _ _ before
      refine ⟨?_, present, heldPresent, sameId⟩
      rintro rfl
      obtain rfl := Option.some.inj (held.symm.trans heldPresent)
      exact different sameId.symm
    · unfold temperatureAt
      by_cases same : pageId = page.pageId
      · subst same
        exact .inr (by simp)
      · exact .inl (by simp [AList.lookup_erase_ne same])

/-! ## One operation -/

/-- A page that is loaded has the temperature of the frame's old page. -/
theorem Mapped.loads_place {frames obtained : Frames D} (mapped : frames.Mapped) {frame : Nat}
    (obtains : frames.Obtains (some frame) obtained) (disk : D) (page : Page)
    (same : page.temperature = (obtained.preparePage frame page.pageId).temperature) :
    frames.Loads page.pageId (frames.recycledTemperature frame)
      ({ obtained with disk }.place frame page) := by
  obtain ⟨elsewhere, pagesEq, kept⟩ := mapped.obtained obtains
  have elsewhereOnDisk : ({ obtained with disk } : Frames D).MappedElsewhere frame := elsewhere
  obtain ⟨mappedAfter, temperatures⟩ := elsewhereOnDisk.place page
  have recycled : page.temperature = frames.recycledTemperature frame := by
    rw [same, recycledTemperature, ← pagesEq]
    rfl
  refine ⟨mappedAfter, ?_, fun other different => ?_⟩
  · rw [temperatures, if_pos rfl, recycled]
  · rw [temperatures, if_neg different]
    exact kept other

/-- `FetchPage` loads the page, or keeps all temperatures. -/
theorem Fetches.temperatures {frames after : Frames D} {pageId : Int} {result : Option Nat}
    (fetches : frames.Fetches pageId result after) (mapped : frames.Mapped) :
    (frames.pageTable.lookup pageId = none ∧ ∃ frame, result = some frame ∧
        frames.Loads pageId (frames.recycledTemperature frame) after) ∨
      ((frames.pageTable.lookup pageId ≠ none ∨ result = none) ∧
        frames.KeepsTemperatures after) := by
  cases fetches with
  | @hit frame resident =>
    obtain ⟨page, held, -⟩ := mapped _ _ resident
    rw [modifyPage, held]
    exact .inr ⟨.inl (by simp [resident]), mapped.keeps_setFrame held rfl rfl⟩
  | refused => exact .inr ⟨.inr rfl, mapped.keeps⟩
  | @loaded frame obtained absent obtains =>
    have loads := mapped.loads_place obtains
      (Disk.readPage obtained.disk pageId (obtained.preparePage frame pageId).data).2
      ((obtained.preparePage frame pageId).setData
        (Disk.readPage obtained.disk pageId (obtained.preparePage frame pageId).data).1).pin rfl
    exact .inl ⟨absent, frame, rfl, loads⟩

/-- `NewPage` loads the new page, or keeps all temperatures. -/
theorem Creates.temperatures {frames after : Frames D} {result : Option (Int × Nat)}
    (creates : frames.Creates result after) (mapped : frames.Mapped) :
    (∃ pageId frame, result = some (pageId, frame) ∧
        frames.Loads pageId (frames.recycledTemperature frame) after) ∨
      (result = none ∧ frames.KeepsTemperatures after) := by
  cases creates with
  | refused => exact .inr ⟨rfl, mapped.keeps⟩
  | @added frame obtained obtains =>
    have loads := mapped.loads_place obtains (Disk.allocPage obtained.disk).2
      (((obtained.preparePage frame (Disk.allocPage obtained.disk).1).pin).setDirty false) rfl
    exact .inl ⟨_, frame, rfl, loads⟩

omit [Disk D] in
/-- `UnpinPage` keeps all temperatures. -/
theorem Unpins.temperatures {frames after : Frames D} {pageId : Int} {isDirty result : Bool}
    (unpins : frames.Unpins pageId isDirty result after) (mapped : frames.Mapped) :
    frames.KeepsTemperatures after := by
  cases unpins with
  | refused unpinned => exact mapped.keeps
  | released resident held pinned =>
    refine mapped.keeps_setFrame held ?_ ?_
    · unfold BufferPool.released
      split <;> rfl
    · unfold BufferPool.released
      split <;> rfl

/-- `FlushPage` keeps all temperatures. -/
theorem Flushes.temperatures {frames after : Frames D} {pageId : Int}
    (flushes : frames.Flushes pageId after) (mapped : frames.Mapped) :
    frames.KeepsTemperatures after := by
  cases flushes with
  | unchanged => exact mapped.keeps
  | @written frame page resident held dirty =>
    rw [writeBack_eq]
    have kept := mapped.keeps_setFrame held (rfl : (page.setDirty false).pageId = page.pageId) rfl
    exact ⟨kept.mapped, kept.temperatures⟩

/-- `DeletePage` keeps all temperatures of the pages that stay. -/
theorem Deletes.temperatures {frames after : Frames D} {pageId : Int} {result : Bool}
    (deletes : frames.Deletes pageId result after) (mapped : frames.Mapped) :
    frames.KeepsTemperatures after := by
  cases deletes with
  | refused => exact mapped.keeps
  | @deleted frame page resident held unpinned =>
    unfold dropPage
    rw [writeBack_eq]
    have alone : ∀ {other : Int}, other ≠ pageId →
        frames.pageTable.lookup other ≠ some frame := by
      intro other different found
      obtain ⟨present, heldPresent, sameId⟩ := mapped _ _ found
      obtain ⟨_, heldHere, samePage⟩ := mapped _ _ resident
      obtain rfl := Option.some.inj (heldPresent.symm.trans heldHere)
      exact different (sameId.symm.trans samePage)
    refine ⟨?_, fun other => ?_⟩
    · intro other place found
      obtain ⟨different, before⟩ := UnorderedMap.lookup_of_erase found
      obtain ⟨present, heldPresent, sameId⟩ := mapped _ _ before
      have elsewhere : place ≠ frame := by
        rintro rfl
        exact alone different before
      exact ⟨present, (Function.update_of_ne elsewhere _ _).trans heldPresent, sameId⟩
    · unfold temperatureAt Frames.setFrame
      by_cases same : other = pageId
      · subst same
        exact .inr (by simp)
      · left
        rw [AList.lookup_erase_ne same]
        cases found : frames.pageTable.lookup other with
        | none => rfl
        | some place =>
          have elsewhere : place ≠ frame := by
            rintro rfl
            exact alone same found
          simp [elsewhere]

end Frames

namespace BufferPool

/-- `isHotPage` asks for the temperature in the pool. -/
theorem isHotPage_iff {pool : BufferPool D} {pageId : Int} :
    pool.isHotPage pageId = true ↔ pool.frames.temperatureAt pageId = some .hot := by
  unfold isHotPage Frames.temperatureAt
  cases (pool.frames.pageTable.lookup pageId).bind pool.frames.pages <;> simp

/-- `FetchPage` of an absent page returns the frame that it obtained. -/
theorem fetchPage_frame [Disk D] {pool : BufferPool D} {pageId : Int}
    (absent : pool.frames.pageTable.lookup pageId = none) :
    (pool.fetchPage pageId).1 = pool.obtainFrame.1 := by
  rw [← obtainFrame_latch pool pool.latch.lock]
  unfold fetchPage lockGuard
  dsimp only [Guarded.setMutex, Guarded.mutex]
  simp only [absent]
  rcases ({ pool with latch := pool.latch.lock } : BufferPool D).obtainFrame with
    ⟨frame, obtained⟩
  cases frame <;> rfl

end BufferPool

namespace MarkedPool

variable {history : MarkedPool D}

/-- Owned heat, page by page. -/
theorem owned_iff : history.Owned ↔
    ∀ pageId, history.pool.frames.temperatureAt pageId = some .hot →
      history.marked pageId = true := by
  simp only [Owned, BufferPool.isHotPage_iff]

/-- Where pages keep their temperature or leave, and marks stay, so does ownership. -/
theorem owned_of_keeps {after : MarkedPool D} (owned : history.Owned)
    (keeps : history.pool.frames.KeepsTemperatures after.pool.frames)
    (marks : ∀ pageId, history.marked pageId = true → after.marked pageId = true) :
    after.Owned := by
  rw [owned_iff] at owned ⊢
  intro pageId hot
  refine marks pageId (owned pageId ?_)
  rcases keeps.temperatures pageId with same | left
  · rwa [same] at hot
  · rw [left] at hot
    cases hot

/-- A page that is loaded is not marked, so it must not come in hot. -/
theorem owned_iff_of_loads {after : MarkedPool D} (owned : history.Owned) {pageId : Int}
    {temperature : PageTemperature}
    (loads : history.pool.frames.Loads pageId temperature after.pool.frames)
    (marks : after.marked = Function.update history.marked pageId false) :
    after.Owned ↔ temperature ≠ .hot := by
  rw [owned_iff] at owned ⊢
  constructor
  · rintro ownedAfter rfl
    have mark := ownedAfter pageId loads.loaded
    rw [marks, Function.update_self] at mark
    cases mark
  · intro notHot other hot
    by_cases same : other = pageId
    · subst same
      rw [loads.loaded] at hot
      exact absurd (Option.some.inj hot) notHot
    · rw [marks, Function.update_of_ne same]
      refine owned other ?_
      rcases loads.others other same with kept | left
      · rwa [kept] at hot
      · rw [left] at hot
        cases hot

/-! ## One call -/

variable [Disk D]

/-- `FetchPage` keeps heat owned exactly if it recycles no foreign heat. -/
theorem owned_fetchPage_iff (mapped : history.pool.frames.Mapped) (owned : history.Owned)
    (pageId : Int) :
    (history.step (.call (.fetchPage pageId))).Owned ↔
      history.RecyclesUnmarked (.call (.fetchPage pageId)) := by
  rcases (history.pool.fetchPage_fetches pageId).temperatures mapped with
    ⟨absent, frame, returned, loads⟩ | ⟨unloaded, keeps⟩
  · have marks : (history.step (.call (.fetchPage pageId))).marked =
        Function.update history.marked pageId false := by
      simp [step, markedAfter, absent, returned]
    have obtained : history.pool.obtainFrame.1 = some frame :=
      (BufferPool.fetchPage_frame absent).symm.trans returned
    rw [owned_iff_of_loads owned loads marks, Frames.recycledTemperature_ne_hot_iff]
    constructor
    · intro notHot _ other page same
      obtain rfl := Option.some.inj (obtained.symm.trans same)
      exact notHot page
    · intro recycles page
      exact recycles absent frame page obtained
  · have notLoaded : ¬ (history.pool.frames.pageTable.lookup pageId = none ∧
        (history.pool.fetchPage pageId).1 ≠ none) := by
      rintro ⟨absent, returned⟩
      exact unloaded.elim (fun resident => resident absent) returned
    have marks : (history.step (.call (.fetchPage pageId))).marked = history.marked :=
      if_neg notLoaded
    refine iff_of_true (owned_of_keeps owned keeps fun other mark => by rwa [marks]) ?_
    intro absent frame page obtained
    rw [← BufferPool.fetchPage_frame absent] at obtained
    exact absurd ⟨absent, by simp [obtained]⟩ notLoaded

/-- So does `NewPage`. -/
theorem owned_newPage_iff (mapped : history.pool.frames.Mapped) (owned : history.Owned) :
    (history.step (.call .newPage)).Owned ↔ history.RecyclesUnmarked (.call .newPage) := by
  have frameEq := history.pool.newPage_frame
  rcases history.pool.newPage_creates.temperatures mapped with
    ⟨pageId, frame, returned, loads⟩ | ⟨refused, keeps⟩
  · have marks : (history.step (.call .newPage)).marked =
        Function.update history.marked pageId false := by
      simp [step, markedAfter, returned]
    rw [returned] at frameEq
    rw [owned_iff_of_loads owned loads marks, Frames.recycledTemperature_ne_hot_iff]
    constructor
    · intro notHot other page same
      obtain rfl := Option.some.inj (frameEq.trans same)
      exact notHot page
    · intro recycles page
      exact recycles frame page frameEq.symm
  · have marks : (history.step (.call .newPage)).marked = history.marked := by
      simp [step, markedAfter, refused]
    rw [refused] at frameEq
    refine iff_of_true (owned_of_keeps owned keeps fun other mark => by rwa [marks]) ?_
    intro frame page obtained
    cases frameEq.trans obtained

/-- Setting the temperature of a page to `HOT` marks it. -/
theorem owned_setTemperature (mapped : history.pool.frames.Mapped) (owned : history.Owned)
    (frame : Nat) (temperature : PageTemperature) :
    (history.step (.setTemperature frame temperature)).Owned ∧
      (history.step (.setTemperature frame temperature)).pool.frames.Mapped := by
  cases held : history.pool.frames.pages frame with
  | none =>
    simp only [step, held]
    exact ⟨owned, mapped⟩
  | some page =>
    by_cases pinned : page.pinCount > 0
    · simp only [step, held, if_pos pinned]
      refine ⟨owned_iff.mpr fun pageId hot => ?_, mapped.setFrame held rfl⟩
      rw [owned_iff] at owned
      dsimp only at hot ⊢
      unfold Frames.temperatureAt Frames.setFrame at hot
      cases found : history.pool.frames.pageTable.lookup pageId with
      | none =>
        rw [found] at hot
        cases hot
      | some other =>
        rw [found] at hot
        by_cases here : other = frame
        · subst here
          have isHot : temperature = .hot := by simpa [Page.setTemperature] using hot
          obtain ⟨present, heldPresent, sameId⟩ := mapped _ _ found
          obtain rfl := Option.some.inj (held.symm.trans heldPresent)
          rw [if_pos isHot, sameId, Function.update_self]
        · have before : history.pool.frames.temperatureAt pageId = some .hot := by
            simpa [Frames.temperatureAt, found, here] using hot
          split
          · by_cases same : pageId = page.pageId
            · rw [same, Function.update_self]
            · rw [Function.update_of_ne same]
              exact owned pageId before
          · exact owned pageId before
    · simp only [step, held, if_neg pinned]
      exact ⟨owned, mapped⟩

/-- A flush of one page or of all keeps temperatures. -/
theorem keeps_flush (mapped : history.pool.frames.Mapped) (pageId : Int) :
    history.pool.frames.KeepsTemperatures (history.pool.flushPage pageId).2.frames ∧
      history.pool.frames.KeepsTemperatures history.pool.flushAllPages.frames := by
  refine history.pool.flush_preserves pageId ?_ mapped.keeps
  intro frames flushed after flushes kept
  have next := flushes.temperatures kept.mapped
  refine ⟨next.mapped, fun other => ?_⟩
  rcases next.temperatures other with same | left
  · rw [same]
    exact kept.temperatures other
  · exact .inr left

/-- Every call keeps the table and the frames in step. -/
theorem mapped_step (mapped : history.pool.frames.Mapped) (owned : history.Owned)
    (call : MarkingCall) : (history.step call).pool.frames.Mapped := by
  match call with
  | .setTemperature frame temperature => exact (owned_setTemperature mapped owned frame _).2
  | .call (.fetchPage pageId) =>
    rcases (history.pool.fetchPage_fetches pageId).temperatures mapped with
      ⟨-, _, -, loads⟩ | ⟨-, keeps⟩
    · exact loads.mapped
    · exact keeps.mapped
  | .call .newPage =>
    rcases history.pool.newPage_creates.temperatures mapped with ⟨_, _, -, loads⟩ | ⟨-, keeps⟩
    · exact loads.mapped
    · exact keeps.mapped
  | .call (.unpinPage pageId isDirty) =>
    exact ((history.pool.unpinPage_unpins pageId isDirty).temperatures mapped).mapped
  | .call (.flushPage pageId) => exact (keeps_flush mapped pageId).1.mapped
  | .call .flushAllPages => exact (keeps_flush mapped 0).2.mapped
  | .call (.deletePage pageId) =>
    exact ((history.pool.deletePage_deletes pageId).temperatures mapped).mapped

/-- A call keeps temperatures with their pages exactly when it recycles no hot page. -/
theorem owned_step_iff (mapped : history.pool.frames.Mapped) (owned : history.Owned)
    (call : MarkingCall) : (history.step call).Owned ↔ history.RecyclesUnmarked call := by
  match call with
  | .setTemperature frame temperature =>
    exact iff_of_true (owned_setTemperature mapped owned frame _).1 trivial
  | .call (.fetchPage pageId) => exact owned_fetchPage_iff mapped owned pageId
  | .call .newPage => exact owned_newPage_iff mapped owned
  | .call (.unpinPage pageId isDirty) =>
    have keeps := (history.pool.unpinPage_unpins pageId isDirty).temperatures mapped
    exact iff_of_true (owned_of_keeps owned keeps fun _ mark => mark) trivial
  | .call (.flushPage pageId) =>
    exact iff_of_true (owned_of_keeps owned (keeps_flush mapped pageId).1 fun _ mark => mark)
      trivial
  | .call .flushAllPages =>
    exact iff_of_true (owned_of_keeps owned (keeps_flush mapped 0).2 fun _ mark => mark) trivial
  | .call (.deletePage pageId) =>
    have keeps := (history.pool.deletePage_deletes pageId).temperatures mapped
    exact iff_of_true (owned_of_keeps owned keeps fun _ mark => mark) trivial

omit [Disk D] in
/-- The flag passed to the replacer is the temperature that `isHotPage` reads. -/
theorem flagOwned_of_owned (owned : history.Owned) (call : MarkingCall) :
    history.FlagOwned call := by
  match call with
  | .call (.unpinPage pageId isDirty) =>
    intro frame passed
    refine owned_iff.mp owned pageId ?_
    unfold BufferPool.replacerUnpin at passed
    unfold Frames.temperatureAt
    cases found : history.pool.frames.pageTable.lookup pageId with
    | none =>
      rw [found] at passed
      cases passed
    | some place =>
      simp only [found] at passed
      cases held : history.pool.frames.pages place with
      | none =>
        rw [held] at passed
        cases passed
      | some page =>
        simp only [held] at passed
        split at passed
        · cases passed
        · split at passed
          · have isHot := congrArg Prod.snd (Option.some.inj passed)
            have kept : (BufferPool.released page isDirty).temperature = page.temperature := by
              unfold BufferPool.released
              split <;> rfl
            rw [kept] at isHot
            simpa [held] using isHot
          · cases passed
  | .setTemperature _ _ => trivial
  | .call (.fetchPage _) => trivial
  | .call .newPage => trivial
  | .call (.flushPage _) => trivial
  | .call .flushAllPages => trivial
  | .call (.deletePage _) => trivial

/-! ## Whole runs -/

/-- For every pool size, disk, replacer latch and run: hot pages are marked in every
state, and every `is_hot` flag passed to the replacer belongs to a marked page,
exactly when no page comes into a frame whose page object is still `HOT`. -/
theorem throughout_owned_iff (poolSize : Nat) (disk : D) (replacerLatch : Mutex)
    (calls : List MarkingCall) :
    Throughout step Owned (start poolSize disk replacerLatch) calls ∧
        EachCall step FlagOwned (start poolSize disk replacerLatch) calls ↔
      EachCall step RecyclesUnmarked (start poolSize disk replacerLatch) calls := by
  have mappedStart : (start poolSize disk replacerLatch).pool.frames.Mapped := by
    intro pageId frame found
    simp [start, BufferPool.new] at found
  have ownedStart : (start poolSize disk replacerLatch).Owned := by
    rw [owned_iff]
    intro pageId hot
    simp [start, BufferPool.new, Frames.temperatureAt] at hot
  have exactRun : Throughout step Owned (start poolSize disk replacerLatch) calls ↔
      EachCall step RecyclesUnmarked (start poolSize disk replacerLatch) calls :=
    @throughout_iff_eachCall _ _ step _ (fun history => history.pool.frames.Mapped) _
      (fun _ call mapped owned => owned_step_iff mapped owned call)
      (fun _ call mapped owned _ => mapped_step mapped owned call) _ _ mappedStart ownedStart
  constructor
  · exact fun both => exactRun.mp both.1
  · intro recycles
    refine ⟨exactRun.mpr recycles, ?_⟩
    refine @EachCall.imp _ _ step RecyclesUnmarked
      (fun history => history.pool.frames.Mapped ∧ history.Owned) FlagOwned ?_ ?_ _ _
      ⟨mappedStart, ownedStart⟩ recycles
    · rintro history call ⟨mapped, owned⟩ unmarked
      exact ⟨mapped_step mapped owned call, (owned_step_iff mapped owned call).mpr unmarked⟩
    · rintro history call ⟨-, owned⟩ -
      exact flagOwned_of_owned owned call

/-- One frame: page 0 is set to `HOT`, released and evicted, and page 1 is hot. -/
theorem evicted_temperature_leaks :
    ¬ Throughout step Owned (start 1 (DiskManager.new (some {})) .noop)
      [.call .newPage, .setTemperature 0 .hot, .call (.unpinPage 0 false), .call .newPage] := by
  intro owned
  have mark := owned.last 1 (by decide +kernel)
  revert mark
  decide +kernel

end MarkedPool

end MiniDB.Buffer
