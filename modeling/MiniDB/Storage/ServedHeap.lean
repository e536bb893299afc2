import MiniDB.Buffer.PageService
import MiniDB.Storage.HeapLayout

/-!
# The heap over a service of pages

What filling a heap makes of the pages of a service that may refuse any request. An
insertion that returns true puts one more slot on the last page, or takes a new page
and puts the first slot there; every RID returned before stays the RID of a slot.
-/

namespace MiniDB.Storage

open Foundation Buffer PoolProgram

namespace TableHeap

/-- The RID of a slot of a page that exists, as `InsertTuple` returns it. -/
structure LiveIn (pages : Pages) (rid : RID) : Prop where
  allocated : pages.Allocated rid.pageId
  lower : 0 ≤ rid.slotNum
  upper : rid.slotNum < getNSlots (pages.contents rid.pageId)

/-- The last page exists and has the header of a heap page. -/
structure OnLastPage (pages : Pages) (heap : TableHeap) : Prop where
  allocated : pages.Allocated heap.lastPageId
  header : ∃ nSlots nextFree, Header (pages.contents heap.lastPageId) nSlots nextFree

/-- Tuples are inserted one after another; `none` if one of the insertions returned
false. -/
def fill : List Tuple → TableHeap → PoolProgram (Option (List RID) × TableHeap)
  | [], heap => return (some [], heap)
  | tuple :: tuples, heap => do
    match ← heap.insertTuple tuple with
    | (none, heap) => return (none, heap)
    | (some rid, heap) =>
      match ← fill tuples heap with
      | (none, heap) => return (none, heap)
      | (some rids, heap) => return (some (rid :: rids), heap)

variable {State : Type} {service : PageService State} {state : State} {pages : Pages}
  {pins : List ClientPin} {heap : TableHeap} {frame : Nat} {tuple : Tuple} {rid : RID}

theorem LiveIn.isValid (live : LiveIn pages rid) : rid.isValid = true := by
  have page := live.allocated.1
  have slot := live.lower
  simp [RID.isValid, page, slot]

/-- Slots stay when a page gets at least as many. -/
theorem LiveIn.write {pageId : Int} {data : Bytes} (live : LiveIn pages rid)
    (more : getNSlots (pages.contents pageId) ≤ getNSlots data) :
    LiveIn (pages.write pageId data) rid := by
  refine ⟨live.allocated, live.lower, ?_⟩
  by_cases same : rid.pageId = pageId
  · subst same
    rw [Pages.contents_write_self]
    exact Int.lt_of_lt_of_le live.upper more
  · rw [Pages.contents_write_of_ne same]
    exact live.upper

theorem LiveIn.add (live : LiveIn pages rid) (data : Bytes) :
    LiveIn (pages.add.write pages.nextPageId data) rid := by
  refine ⟨live.allocated.add, live.lower, ?_⟩
  rw [Pages.contents_write_of_ne live.allocated.ne_next,
    Pages.contents_add_of_ne live.allocated.ne_next]
  exact live.upper

/-- What an insertion that returned a RID has made of the pages. -/
structure Grows (before : Pages) (rid : RID) (heap : TableHeap) (after : Pages) : Prop where
  onLast : OnLastPage after heap
  new : LiveIn after rid
  kept : ∀ {other : RID}, LiveIn before other → LiveIn after other

/-- The last page has room for the tuple. -/
theorem grows_room (onLast : OnLastPage pages heap)
    (room : isFull (pages.contents heap.lastPageId) (copySize tuple) = false) :
    Grows pages { pageId := heap.lastPageId, slotNum := getNSlots (pages.contents heap.lastPageId) }
      heap (pages.write heap.lastPageId (storeTuple (pages.contents heap.lastPageId) tuple)) := by
  obtain ⟨allocated, nSlots, nextFree, header⟩ := onLast
  have stored := header_stored header room
  have slots : getNSlots (storeTuple (pages.contents heap.lastPageId) tuple) =
      getNSlots (pages.contents heap.lastPageId) + 1 := by
    rw [stored.slots, header.slots]
    rfl
  refine ⟨⟨allocated, nSlots + 1, nextFree + copySize tuple, ?_⟩, ⟨allocated, ?_, ?_⟩,
    fun live => live.write (by omega)⟩
  · rw [Pages.contents_write_self]
    exact stored
  · rw [header.slots]
    exact Int.natCast_nonneg nSlots
  · rw [Pages.contents_write_self]
    change getNSlots (pages.contents heap.lastPageId) < _
    omega

/-- The tuple is the first one on a new page. -/
theorem grows_new (nonneg : 0 ≤ pages.nextPageId) (lastIs : heap.lastPageId = pages.nextPageId) :
    Grows pages { pageId := pages.nextPageId, slotNum := 0 } heap
      (pages.add.write pages.nextPageId (storeTuple emptyPage tuple)) := by
  have stored := header_stored header_emptyPage (isFull_emptyPage tuple)
  have allocated : (pages.add.write pages.nextPageId (storeTuple emptyPage tuple)).Allocated
      pages.nextPageId := ⟨nonneg, Int.lt_succ _⟩
  refine ⟨⟨lastIs ▸ allocated, 0 + 1, slotHeader + copySize tuple, ?_⟩,
    ⟨allocated, Int.le_refl 0, ?_⟩, fun live => live.add _⟩
  · rw [lastIs, Pages.contents_write_self]
    exact stored
  · rw [Pages.contents_write_self, stored.slots]
    exact Int.zero_lt_one

/-- The end of `InsertTuple`, with a pin of the last page. -/
theorem served_storeAt {pin : ClientPin} (samePage : pin.pageId = heap.lastPageId)
    (sameFrame : pin.frame = frame) (shows : service.Shows state pages (pin :: pins)) (tuple : Tuple) :
    ∃ after, service.run (heap.storeAt frame tuple) state =
        ((some { pageId := heap.lastPageId
                 slotNum := getNSlots (pages.contents heap.lastPageId) }, heap), after) ∧
      service.Shows after (pages.write heap.lastPageId
        (storeTuple (pages.contents heap.lastPageId) tuple)) pins := by
  subst sameFrame
  have read := service.getData shows List.mem_cons_self
  have written := service.putData shows (storeTuple (pages.contents pin.pageId) tuple)
  have marked := service.setDirty written List.mem_cons_self
  have released := @PageService.unpinPage _ service _ _ _ _ true marked (fun _ => rfl)
  rw [samePage] at read released
  refine ⟨_, ?_, released⟩
  simp only [storeAt, PageService.run_bind, PageService.run_getData, read, PageService.run_putData,
    PageService.run_setDirty, PageService.run_unpinPage, PageService.run_pure]

/-- The end of `InsertTuple` on a page that is new. -/
theorem served_storeNew {created : State}
    (held : service.Shows created pages.add ({ pageId := pages.nextPageId, frame } :: pins))
    (lastIs : heap.lastPageId = pages.nextPageId) (tuple : Tuple) :
    ∃ after, service.run (heap.storeAt frame tuple)
        (service.handle (.putData frame emptyPage) created).2 =
        ((some { pageId := pages.nextPageId, slotNum := 0 }, heap), after) ∧
      service.Shows after (pages.add.write pages.nextPageId (storeTuple emptyPage tuple)) pins := by
  have emptied := service.putData held emptyPage
  obtain ⟨after, stores, showsAfter⟩ :=
    @served_storeAt _ service _ _ _ heap frame _ lastIs.symm rfl emptied tuple
  rw [lastIs, Pages.contents_write_self] at stores showsAfter
  rw [Pages.write_write] at showsAfter
  refine ⟨after, ?_, showsAfter⟩
  rw [stores, header_emptyPage.slots]
  rfl

/-- How `InsertTuple` can end. -/
inductive Inserts (service : PageService State) (pages : Pages) (pins : List ClientPin) :
    (Option RID × TableHeap) × State → Prop where
  | refused {heap : TableHeap} {after : State} : Inserts service pages pins ((none, heap), after)
  | stored {rid : RID} {heap : TableHeap} {grown : Pages} {after : State}
      (grows : Grows pages rid heap grown) (shows : service.Shows after grown pins) :
      Inserts service pages pins ((some rid, heap), after)

/-- `InsertTuple` inserts the tuple or returns false. -/
theorem inserts_insertTuple (shows : service.Shows state pages pins) (onLast : OnLastPage pages heap)
    (tuple : Tuple) :
    Inserts service pages pins (service.run (heap.insertTuple tuple) state) := by
  simp only [insertTuple, PageService.run_bind, PageService.run_fetchPage]
  rcases service.fetchPage shows onLast.allocated with ⟨missed, kept⟩ | ⟨frame, fetched, held⟩
  · simp only [missed, PageService.run_bind, PageService.run_newPage]
    rcases service.newPage kept with ⟨refused, -⟩ | ⟨newFrame, created, fresh⟩
    · simp only [refused, PageService.run_pure]
      exact .refused
    · have emptied := service.putData fresh emptyPage
      have read := service.getData emptied List.mem_cons_self
      simp only [Pages.contents_write_self] at read
      simp only [created, PageService.run_bind, PageService.run_putData, insertInto,
        PageService.run_getData, read, isFull_emptyPage, Bool.false_eq_true, if_false]
      obtain ⟨after, ends, showsAfter⟩ := @served_storeNew _ service pages pins
        { firstPageId := if heap.firstPageId < 0 then pages.nextPageId else heap.firstPageId
          lastPageId := pages.nextPageId } newFrame _ fresh rfl tuple
      rw [ends]
      exact .stored (grows_new (service.nonneg shows) rfl) showsAfter
  · have read := service.getData held List.mem_cons_self
    cases full : isFull (pages.contents heap.lastPageId) (copySize tuple) with
    | false =>
      simp only [fetched, insertInto, PageService.run_bind, PageService.run_getData, read, full,
        Bool.false_eq_true, if_false]
      obtain ⟨after, ends, showsAfter⟩ := served_storeAt rfl rfl held tuple
      rw [ends]
      exact .stored (grows_room onLast full) showsAfter
    | true =>
      have released := @PageService.unpinPage _ service _ _ _ _ false held (by simp)
      simp only [fetched, insertInto, PageService.run_bind, PageService.run_getData, read, full,
        if_true, PageService.run_unpinPage, PageService.run_newPage]
      rcases service.newPage released with ⟨refused, -⟩ | ⟨newFrame, created, fresh⟩
      · simp only [refused, PageService.run_pure]
        exact .refused
      · simp only [created, PageService.run_bind, PageService.run_putData]
        obtain ⟨after, ends, showsAfter⟩ := @served_storeNew _ service pages pins
          { heap with lastPageId := pages.nextPageId } newFrame _ fresh rfl tuple
        rw [ends]
        exact .stored (grows_new (service.nonneg shows) rfl) showsAfter

/-- The constructor, when it obtains a page. -/
theorem served_new (shows : service.Shows state pages pins)
    (obtained : (service.run TableHeap.new state).1.firstPageId ≠ -1) :
    ∃ grown, service.Shows (service.run TableHeap.new state).2 grown pins ∧
      OnLastPage grown (service.run TableHeap.new state).1 := by
  simp only [TableHeap.new, PageService.run_bind, PageService.run_newPage] at obtained ⊢
  rcases service.newPage shows with ⟨refused, -⟩ | ⟨frame, created, fresh⟩
  · simp only [refused, PageService.run_pure] at obtained
    exact absurd rfl obtained
  · have read := service.getData fresh List.mem_cons_self
    have written := service.putData fresh (initPage (pages.add.contents pages.nextPageId))
    have released := @PageService.unpinPage _ service _ _ _ _ true written (fun _ => rfl)
    refine ⟨pages.add.write pages.nextPageId (initPage (pages.add.contents pages.nextPageId)), ?_, ?_⟩
    · simp only [created, PageService.run_bind, PageService.run_getData, read,
        PageService.run_putData, PageService.run_unpinPage, PageService.run_pure]
      exact released
    · simp only [created, PageService.run_bind, PageService.run_pure]
      refine ⟨⟨service.nonneg shows, Int.lt_succ _⟩, 0, slotHeader, ?_⟩
      rw [Pages.contents_write_self]
      exact header_initPage _

/-- A heap is built and filled. -/
def build (tuples : List Tuple) : PoolProgram (Option (List RID) × TableHeap) := do
  let heap ← TableHeap.new
  fill tuples heap

/-- Every RID that filling a heap returned is the RID of a slot. -/
theorem fills (shows : service.Shows state pages pins) (onLast : OnLastPage pages heap)
    {tuples : List Tuple} {rids : List RID}
    (filled : (service.run (fill tuples heap) state).1.1 = some rids) :
    ∃ grown, service.Shows (service.run (fill tuples heap) state).2 grown pins ∧
      (∀ rid ∈ rids, LiveIn grown rid) ∧ ∀ {rid : RID}, LiveIn pages rid → LiveIn grown rid := by
  induction tuples generalizing state pages heap rids with
  | nil =>
    obtain rfl := Option.some.inj filled
    exact ⟨pages, shows, fun _ member => absurd member List.not_mem_nil, id⟩
  | cons tuple tuples ih =>
    have inserts := inserts_insertTuple shows onLast tuple
    simp only [fill, PageService.run_bind] at filled ⊢
    generalize service.run (heap.insertTuple tuple) state = outcome at inserts filled ⊢
    cases inserts with
    | refused => cases filled
    | @stored rid grownHeap grown after grows showsAfter =>
      simp only [PageService.run_bind] at filled ⊢
      cases rest : (service.run (fill tuples grownHeap) after).1 with
      | mk answer last =>
        simp only [rest] at filled ⊢
        cases answer with
        | none => cases filled
        | some others =>
          obtain rfl := Option.some.inj filled
          obtain ⟨final, showsFinal, lives, kept⟩ :=
            ih showsAfter grows.onLast (congrArg Prod.fst rest)
          refine ⟨final, showsFinal, ?_, fun live => kept (grows.kept live)⟩
          intro other member
          rcases List.mem_cons.mp member with rfl | member
          · exact kept grows.new
          · exact lives other member

/-- The same for a heap from its constructor on. -/
theorem builds (shows : service.Shows state pages pins)
    (obtained : (service.run TableHeap.new state).1.firstPageId ≠ -1) {tuples : List Tuple}
    {rids : List RID} (filled : (service.run (build tuples) state).1.1 = some rids) :
    ∃ grown, service.Shows (service.run (build tuples) state).2 grown pins ∧
      ∀ rid ∈ rids, LiveIn grown rid := by
  obtain ⟨opened, showsOpened, onLast⟩ := served_new shows obtained
  simp only [build, PageService.run_bind] at filled ⊢
  obtain ⟨grown, showsGrown, lives, -⟩ := fills showsOpened onLast filled
  exact ⟨grown, showsGrown, lives⟩

end TableHeap

end MiniDB.Storage
