import MiniDB.Buffer.PageService

/-!
# Shortage of pages

A service that refuses what a script says, besides what it refuses by itself, so that
a program meets every pattern of requests for pages that fail; and the pages that a
pool shows as a function of the pool.
-/

namespace MiniDB.Buffer

open Foundation Storage

namespace PageService

variable {State : Type}

/-- Answer a request for a page by the next entry of the script, or else as before. -/
def scripted {Answer : Type} (serve : State → Option Answer × State) :
    State × List Bool → Option Answer × (State × List Bool)
  | (state, true :: script) => (none, state, script)
  | (state, script) => ((serve state).1, (serve state).2, script.tail)

/-- A request that is refused by the script leaves the state as it is. -/
theorem scripted_cases {Answer : Type} (serve : State → Option Answer × State)
    (state : State × List Bool) :
    ((scripted serve state).1 = none ∧ (scripted serve state).2.1 = state.1) ∨
      ((scripted serve state).1 = (serve state.1).1 ∧
        (scripted serve state).2.1 = (serve state.1).2) := by
  obtain ⟨state, script⟩ := state
  cases script with
  | nil => exact .inr ⟨rfl, rfl⟩
  | cons refused script =>
    cases refused with
    | true => exact .inl ⟨rfl, rfl⟩
    | false => exact .inr ⟨rfl, rfl⟩

/-- Requests for pages are refused as the script says. -/
def refusingHandle (handle : (request : PoolRequest) → State → request.Answer × State) :
    (request : PoolRequest) → State × List Bool → request.Answer × (State × List Bool)
  | .fetchPage pageId, state => scripted (handle (.fetchPage pageId)) state
  | .newPage, state => scripted (handle .newPage) state
  | request, (state, script) => ((handle request state).1, (handle request state).2, script)

/-- A service that also refuses as the script says. -/
def refusing (service : PageService State) : PageService (State × List Bool) where
  handle := refusingHandle service.handle
  Shows state pages pins := service.Shows state.1 pages pins
  nonneg shows := service.nonneg shows
  perm shows same := service.perm shows same
  fetchPage {state pages pins pageId} shows allocated := by
    rcases scripted_cases (service.handle (.fetchPage pageId)) state with ⟨refused, kept⟩ | ⟨same, after⟩
    · exact .inl ⟨refused, kept ▸ shows⟩
    · have served := service.fetchPage shows allocated
      dsimp only [refusingHandle]
      rw [same, after]
      exact served
  newPage {state pages pins} shows := by
    rcases scripted_cases (service.handle .newPage) state with ⟨refused, kept⟩ | ⟨same, after⟩
    · exact .inl ⟨refused, kept ▸ shows⟩
    · have served := service.newPage shows
      dsimp only [refusingHandle]
      rw [same, after]
      exact served
  unpinPage shows declared := service.unpinPage shows declared
  deletePage shows member := service.deletePage shows member
  getPageId {state _ _ _} shows member :=
    congrArg (fun outcome => (outcome.1, outcome.2, state.2)) (service.getPageId shows member)
  getData {state _ _ _} shows member :=
    congrArg (fun outcome => (outcome.1, outcome.2, state.2)) (service.getData shows member)
  putData shows data := service.putData shows data
  setDirty shows member := service.setDirty shows member

end PageService

/-! ## The pages of a pool -/

/-- What is mirrored matters for the pages that exist. -/
theorem Mirrors.congr {frames : Frames IdealDisk} {contents others : Int → Bytes}
    {pins : List ClientPin} (mirrors : Mirrors frames contents pins)
    (same : ∀ {pageId}, frames.disk.Allocated pageId → others pageId = contents pageId) :
    Mirrors frames others pins where
  agrees := mirrors.agrees
  allocated := mirrors.allocated
  data held :=
    (mirrors.data held).trans (same (mirrors.allocated (mirrors.agrees.resident held))).symm
  stored absent allocated := (mirrors.stored absent allocated).trans (same allocated).symm
  safe held := by
    rw [same (mirrors.allocated (mirrors.agrees.resident held))]
    exact mirrors.safe held
  counted := mirrors.counted
  pinned := mirrors.pinned
  unwritten := mirrors.unwritten
  nonneg := mirrors.nonneg

namespace BufferPool

/-- The pages that a pool shows: those in its frames, and for the others the disk. -/
def shown (pool : BufferPool IdealDisk) : Pages where
  nextPageId := pool.frames.disk.nextPageId
  contents pageId := (pool.frames.contents pageId).getD (pool.frames.disk.bytes pageId)

namespace ShowsPages

variable {pool : BufferPool IdealDisk} {pages : Pages} {pins : List ClientPin} {pageId : Int}

theorem shown_contents (shows : pool.ShowsPages pages pins) (allocated : pages.Allocated pageId) :
    pool.shown.contents pageId = pages.contents pageId := by
  have onDisk : pool.frames.disk.Allocated pageId := ⟨allocated.1, shows.next ▸ allocated.2⟩
  dsimp only [shown]
  cases found : pool.frames.pageTable.lookup pageId with
  | none =>
    rw [Frames.contents, found, Option.bind_none, Option.map_none, Option.getD_none]
    exact shows.mirrors.stored found onDisk
  | some frame =>
    obtain ⟨page, held, rfl⟩ := shows.mirrors.agrees.mapped found
    rw [Frames.contents_of_lookup found held, Option.getD_some]
    exact shows.mirrors.data held

theorem allocated_shown (shows : pool.ShowsPages pages pins) :
    pool.shown.Allocated pageId ↔ pages.Allocated pageId := by
  rw [Pages.Allocated, Pages.Allocated, ← shows.next]
  exact Iff.rfl

/-- A pool that shows some pages shows its own. -/
theorem toShown (shows : pool.ShowsPages pages pins) : pool.ShowsPages pool.shown pins :=
  ⟨shows.mirrors.congr fun allocated => shows.shown_contents (shows.allocated_shown.mp allocated), rfl⟩

end ShowsPages

end BufferPool

end MiniDB.Buffer
