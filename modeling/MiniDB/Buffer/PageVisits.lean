import MiniDB.Buffer.SafePages

/-!
# Visits of a page

An operation that fetches a page, or takes a new one, works on it and releases it leaves
every pin count as it was. `Visiting` describes the pool in between and `Visited` afterwards;
there is one rule for each request of a visit.
-/

namespace MiniDB.Buffer

open Foundation Storage Frames

/-- The pool is in order: its frames, and the candidates of its replacer. -/
structure BufferPool.InOrder (pool : BufferPool IdealDisk) : Prop where
  orderly : pool.frames.Orderly
  tidy : pool.Tidy

/-- The page ids that were issued. -/
def BufferPool.Issued (pool : BufferPool IdealDisk) (pageId : Int) : Prop :=
  pageId < pool.frames.disk.nextPageId

/-- The request does not write the page: bytes are only put behind pointers to others. -/
def BufferPool.SparesPage (pool : BufferPool IdealDisk) (pageId : Int) : PoolRequest → Prop
  | .putData frame _ => ∀ page, pool.frames.pages frame = some page → page.pageId ≠ pageId
  | _ => True

/-- The requests of a visit in progress: the page is in a frame, with one pin more than
before, and `created` pages are new. -/
structure Visiting (pool now : BufferPool IdealDisk) (pageId : Int) (frame : Nat) (data : Bytes)
    (created : Int) : Prop where
  inOrder : now.InOrder
  size : now.poolSize = pool.poolSize
  next : now.frames.disk.nextPageId = pool.frames.disk.nextPageId + created
  resident : now.frames.pageTable.lookup pageId = some frame
  counts : now.frames.pinCountAt =
    Function.update pool.frames.pinCountAt frame (pool.frames.pinCountAt frame + 1)
  pins : now.frames.pinsOf =
    Function.update pool.frames.pinsOf pageId (pool.frames.pinsOf pageId + 1)
  data : now.frames.shown pageId = data
  kept : ∀ other, other ≠ pageId → pool.Issued other → KeepsPage pool.frames now.frames other

/-- What a visit leaves behind. -/
structure Visited (pool after : BufferPool IdealDisk) (pageId : Int) (data : Bytes)
    (created : Int) : Prop where
  inOrder : after.InOrder
  size : after.poolSize = pool.poolSize
  next : after.frames.disk.nextPageId = pool.frames.disk.nextPageId + created
  resident : after.frames.pageTable.lookup pageId ≠ none
  counts : after.frames.pinCountAt = pool.frames.pinCountAt
  pins : after.frames.pinsOf = pool.frames.pinsOf
  data : after.frames.shown pageId = data
  kept : ∀ other, other ≠ pageId → pool.Issued other → KeepsPage pool.frames after.frames other

namespace BufferPool

variable {pool : BufferPool IdealDisk} {pageId : Int} {frame : Nat}

/-- Whether all frames are pinned depends on the pins of the frames. -/
theorem allPinned_congr {D : Type} {pool after : BufferPool D} (size : after.poolSize = pool.poolSize)
    (counts : after.frames.pinCountAt = pool.frames.pinCountAt) :
    after.AllPinned ↔ pool.AllPinned := by
  have counted : ∀ frames : Frames D, ∀ frame,
      (∃ page, frames.pages frame = some page ∧ 0 < page.pinCount) ↔ 0 < frames.pinCountAt frame := by
    intro frames frame
    unfold pinCountAt
    cases held : frames.pages frame with
    | none => simp
    | some page => simp
  unfold BufferPool.AllPinned
  simp only [counted, counts, size]

theorem InOrder.mapped (inOrder : pool.InOrder) : pool.frames.Mapped := by
  intro pageId frame found
  exact inOrder.orderly.sound.agrees.mapped found

/-- The frames are in order, no page id was issued, and every page is as it was. -/
structure KeepsAll (before after : Frames IdealDisk) : Prop where
  next : after.disk.nextPageId = before.disk.nextPageId
  orderly : after.Orderly
  pages : ∀ pageId, KeepsPage before after pageId

variable (pageId) in
/-- Flushing issues no id and changes no page. -/
theorem keepsAll_flush (orderly : pool.frames.Orderly) :
    KeepsAll pool.frames (pool.flushPage pageId).2.frames ∧
      KeepsAll pool.frames pool.flushAllPages.frames := by
  refine flush_preserves pool pageId (fun before _ after flushes here => ?_)
    ⟨rfl, orderly, keepsPage_refl _⟩
  obtain ⟨orderlyAfter, kept⟩ := flushes.keeps here.orderly
  refine ⟨Eq.trans ?_ here.next, orderlyAfter, fun other => (here.pages other).trans (kept other)⟩
  cases flushes with
  | unchanged => rfl
  | written resident held dirty => exact nextPageId_writeBack_ideal _ _ _

/-- A request of another client keeps the pool in order, and every page that it spares. -/
theorem InOrder.serve (inOrder : pool.InOrder) {request : PoolRequest}
    (issued : pool.FetchesIssued request) :
    (pool.serve request).InOrder ∧
      pool.frames.disk.nextPageId ≤ (pool.serve request).frames.disk.nextPageId ∧
      ∀ pageId, pool.Issued pageId → pool.SparesPage pageId request →
        KeepsPage pool.frames (pool.serve request).frames pageId := by
  have orderly := inOrder.orderly
  have tidy : (pool.serve request).Tidy := inOrder.tidy.handle request
  have agrees := orderly.sound.agrees
  -- most requests change no page, whatever they are to spare
  have keeps : KeepsAll pool.frames (pool.serve request).frames → (pool.serve request).InOrder ∧
      pool.frames.disk.nextPageId ≤ (pool.serve request).frames.disk.nextPageId ∧
      ∀ pageId, pool.Issued pageId → pool.SparesPage pageId request →
        KeepsPage pool.frames (pool.serve request).frames pageId := fun kept =>
    ⟨⟨kept.orderly, tidy⟩, Int.le_of_eq kept.next.symm, fun pageId _ _ => kept.pages pageId⟩
  cases request with
  | fetchPage pageId =>
    have fetches := pool.fetchPage_fetches pageId
    obtain ⟨orderlyAfter, kept⟩ := fetches.keeps orderly issued
    exact keeps ⟨fetches.nextPageId_eq, orderlyAfter, kept⟩
  | newPage =>
    have creates := pool.newPage_creates
    cases made : pool.newPage.1 with
    | none =>
      rw [made] at creates
      have same : (pool.serve .newPage).frames = pool.frames := creates.refused_eq
      refine keeps ?_
      rw [same]
      exact ⟨rfl, orderly, keepsPage_refl _⟩
    | some created =>
      rw [made] at creates
      obtain ⟨-, next, -⟩ := creates.sound orderly.sound
      obtain ⟨orderlyAfter, kept⟩ := creates.keeps orderly
      refine ⟨⟨orderlyAfter, tidy⟩, ?_, fun pageId issued _ => kept pageId issued⟩
      exact Int.le_trans (Int.le_of_lt (Int.lt_add_one_of_le (Int.le_refl _))) (Int.le_of_eq next.symm)
  | unpinPage pageId isDirty =>
    have unpins := pool.unpinPage_unpins pageId isDirty
    obtain ⟨orderlyAfter, kept⟩ := unpins.keeps orderly
    refine keeps ⟨?_, orderlyAfter, kept⟩
    change (pool.unpinPage pageId isDirty).2.frames.disk.nextPageId = _
    generalize (pool.unpinPage pageId isDirty).2.frames = after at unpins ⊢
    generalize (pool.unpinPage pageId isDirty).1 = result at unpins
    cases unpins with
    | refused unpinned => rfl
    | released resident held pinned => rfl
  | deletePage pageId =>
    have deletes := pool.deletePage_deletes pageId
    obtain ⟨orderlyAfter, kept⟩ := deletes.keeps orderly
    refine keeps ⟨?_, orderlyAfter, kept⟩
    change (pool.deletePage pageId).2.frames.disk.nextPageId = _
    generalize (pool.deletePage pageId).2.frames = after at deletes ⊢
    generalize (pool.deletePage pageId).1 = result at deletes
    cases deletes with
    | refused => rfl
    | deleted resident held unpinned => exact nextPageId_writeBack_ideal _ _ _
  | flushPage pageId => exact keeps (keepsAll_flush pageId orderly).1
  | flushAllPages => exact keeps (keepsAll_flush 0 orderly).2
  | getPageId frame => exact keeps ⟨rfl, orderly, keepsPage_refl _⟩
  | getData frame => exact keeps ⟨rfl, orderly, keepsPage_refl _⟩
  | putData frame data =>
    have sound := (@pinsOf_serve _ _ _ orderly.sound (.putData frame data) trivial).1
    have next : (pool.serve (.putData frame data)).frames.disk = pool.frames.disk := rfl
    refine ⟨⟨⟨sound, orderly.unwritten⟩, tidy⟩, Int.le_of_eq (by rw [next]), ?_⟩
    intro pageId _ spares
    exact agrees.keepsPage_modifyPage fun page held same => absurd same.symm (spares page held)
  | setDirty frame =>
    have sound := (@pinsOf_serve _ _ _ orderly.sound (.setDirty frame) trivial).1
    refine keeps ⟨rfl, ⟨sound, orderly.unwritten⟩, fun other => ?_⟩
    exact agrees.keepsPage_modifyPage fun _ _ _ => ⟨rfl, fun _ => rfl⟩

theorem Unchanged.allPinned_iff {D : Type} {pool after : BufferPool D}
    (unchanged : pool.Unchanged after) : after.AllPinned ↔ pool.AllPinned := by
  unfold BufferPool.AllPinned
  rw [unchanged.size, unchanged.frames]

theorem Unchanged.inOrder {after : BufferPool IdealDisk} (unchanged : pool.Unchanged after)
    (inOrder : pool.InOrder) : after.InOrder :=
  ⟨by rw [unchanged.frames]; exact inOrder.orderly, unchanged.tidy inOrder.tidy⟩

/-- A new pool on a disk with some pages. -/
theorem inOrder_new (poolSize count : Nat) (initial : Int → Bytes) :
    (new poolSize (IdealDisk.start count initial) .noop).InOrder := by
  refine ⟨orderly_empty fun beyond => if_neg fun inside => ?_, tidy_new poolSize _⟩
  exact Int.not_lt.mpr beyond inside.2

/-- What clients reach from there while they fetch only issued ids. -/
theorem inOrder_run {poolSize count : Nat} {initial : Int → Bytes} {requests : List PoolRequest}
    (fetchesIssued : EachCall serve FetchesIssued (new poolSize (IdealDisk.start count initial) .noop)
      requests) :
    (run serve (new poolSize (IdealDisk.start count initial) .noop) requests).InOrder ∧
      0 ≤ (run serve (new poolSize (IdealDisk.start count initial) .noop)
        requests).frames.disk.nextPageId := by
  apply (@EachCall.throughout _ _ serve FetchesIssued
    (fun pool => pool.InOrder ∧ 0 ≤ pool.frames.disk.nextPageId)
    (fun pool => pool.InOrder ∧ 0 ≤ pool.frames.disk.nextPageId) _ (fun _ => id) _ _ _
    fetchesIssued).last
  · intro pool request here issued
    obtain ⟨inOrder, grown, -⟩ := here.1.serve issued
    exact ⟨inOrder, Int.le_trans here.2 grown⟩
  · exact ⟨inOrder_new poolSize count initial, Int.natCast_nonneg count⟩

end BufferPool

/-! ## The rules of a visit -/

variable {pool now after : BufferPool IdealDisk} {pageId other : Int} {frame : Nat} {data : Bytes}
  {created : Int}

namespace Visiting

/-- A page that `FetchPage` brings, with its bytes. -/
theorem fetchPage (inOrder : pool.InOrder) (issued : pool.Issued pageId)
    (fetched : (pool.fetchPage pageId).1 = some frame) :
    Visiting pool (pool.fetchPage pageId).2 pageId frame (pool.frames.shown pageId) 0 ∧
      KeepsPage pool.frames (pool.fetchPage pageId).2.frames pageId ∧
      (pool.frames.pageTable.lookup pageId ≠ none →
        (pool.fetchPage pageId).2.frames.pageTable = pool.frames.pageTable) := by
  have orderly := inOrder.orderly
  have fetches := pool.fetchPage_fetches pageId
  obtain ⟨orderlyAfter, kept⟩ := fetches.keeps orderly issued
  obtain ⟨soundAfter, pins⟩ := fetches.sound orderly.sound issued
  have next := fetches.nextPageId_eq
  have data : (pool.fetchPage pageId).2.frames.shown pageId = pool.frames.shown pageId := by
    generalize (pool.fetchPage pageId).1 = result at fetches
    generalize (pool.fetchPage pageId).2.frames = after at fetches kept
    cases fetches with
    | @hit holder resident =>
      obtain ⟨page, held, -⟩ := orderly.sound.agrees.mapped resident
      have heldAfter : (pool.frames.modifyPage holder Page.pin).pages holder = some page.pin := by
        rw [Frames.modifyPage, held]
        exact setFrame_pages _ _ _
      exact (shown_resident (by exact resident) heldAfter).trans (shown_resident resident held).symm
    | refused => rfl
    | loaded absent obtains => exact (kept pageId (saved_absent absent)).2
  rw [fetched] at fetches pins
  obtain ⟨resident, counts⟩ := fetches.pins inOrder.mapped
  refine ⟨⟨⟨orderlyAfter, inOrder.tidy.fetchPage pageId⟩, BufferPool.poolSize_fetchPage pool pageId, ?_,
    resident, counts, pins, data, fun other _ _ => kept other⟩, kept pageId, fun found => ?_⟩
  · rw [next, Int.add_zero]
  · obtain ⟨holder, isHolder⟩ := Option.ne_none_iff_exists'.mp found
    rw [BufferPool.fetchPage_hit isHolder]
    rfl

/-- A page that `NewPage` adds. -/
theorem newPage (inOrder : pool.InOrder) (made : pool.newPage.1 = some (pageId, frame)) :
    pageId = pool.frames.disk.nextPageId ∧
      Visiting pool pool.newPage.2 pageId frame Bytes.zeros 1 := by
  have creates := pool.newPage_creates
  rw [made] at creates
  obtain ⟨newIs, next, sound, pins⟩ := creates.sound inOrder.orderly.sound
  obtain ⟨orderlyAfter, kept⟩ := creates.keeps inOrder.orderly
  have resident : pool.newPage.2.frames.pageTable.lookup pageId = some frame ∧
      pool.newPage.2.frames.shown pageId = Bytes.zeros ∧ pool.newPage.2.frames.pinCountAt =
        Function.update pool.frames.pinCountAt frame (pool.frames.pinCountAt frame + 1) := by
    generalize pool.newPage.2.frames = after at creates
    cases creates with
    | @added _ obtained obtains =>
      obtain ⟨pagesEq, none⟩ := obtains.unpinned
      have found : (obtained.addPage frame).2.pageTable.lookup (obtained.addPage frame).1 =
          some frame := AList.lookup_insert _
      have held : (obtained.addPage frame).2.pages frame =
          some (((obtained.preparePage frame (obtained.addPage frame).1).pin).setDirty false) :=
        Function.update_self _ _ _
      have same : obtained.pinCountAt = pool.frames.pinCountAt := by
        unfold pinCountAt
        rw [pagesEq]
      refine ⟨found, shown_resident found held, ?_⟩
      rw [none, ← same]
      exact pinCountAt_setFrame _ _ _
  refine ⟨newIs, ⟨orderlyAfter, inOrder.tidy.newPage⟩, BufferPool.poolSize_newPage pool, next,
    resident.1, resident.2.2, pins, resident.2.1, fun other _ issued => kept other issued⟩

variable (visiting : Visiting pool now pageId frame data created)

include visiting

theorem held : ∃ page, now.frames.pages frame = some page ∧ page.pageId = pageId ∧ page.data = data := by
  obtain ⟨page, held, sameId⟩ := visiting.inOrder.orderly.sound.agrees.mapped visiting.resident
  refine ⟨page, held, sameId, ?_⟩
  rw [← shown_resident visiting.resident held, visiting.data]

/-- What `GetData` leads to. -/
theorem pageAt_data : (now.pageAt frame).data = data := by
  obtain ⟨page, held, -, sameData⟩ := visiting.held
  rw [BufferPool.pageAt, held, Option.getD_some, sameData]

/-- Work on the page through its pointer. -/
theorem modifyPage {change : Page → Page} {changed : Bytes} {request : PoolRequest}
    (serves : now.serve request = now.modifyPage frame change)
    (issued : now.FetchesIssued request) (samePins : ∀ page, (change page).pinCount = page.pinCount)
    (changes : ∀ page : Page, page.data = data → (change page).data = changed) :
    Visiting pool (now.modifyPage frame change) pageId frame changed created := by
  obtain ⟨page, held, sameIdHere, sameData⟩ := visiting.held
  obtain ⟨inOrder, -, kept⟩ := visiting.inOrder.serve issued
  rw [serves] at inOrder kept
  have frames : (now.modifyPage frame change).frames = now.frames.setFrame frame (some (change page)) := by
    rw [BufferPool.modifyPage, Frames.modifyPage, held]
    rfl
  have agrees := visiting.inOrder.orderly.sound.agrees
  refine ⟨inOrder, visiting.size, visiting.next, visiting.resident, ?_, ?_, ?_, ?_⟩
  · rw [frames, pinCountAt_setFrame, samePins, ← pinCountAt_of_held held, Function.update_eq_self]
    exact visiting.counts
  · rw [frames, agrees.pinsOf_setFrame held, samePins, ← agrees.pinsOf_held held,
      Function.update_eq_self]
    exact visiting.pins
  · rw [frames, ← changes page sameData]
    exact shown_resident (by exact visiting.resident) (setFrame_pages _ _ _)
  · intro other different issuedOther
    refine (visiting.kept other different issuedOther).trans ?_
    have stays : now.frames.Saved other →
        (now.modifyPage frame change).frames.Saved other ∧
          (now.modifyPage frame change).frames.shown other = now.frames.shown other := by
      rw [frames]
      exact agrees.keepsPage_setFrame held fun same => absurd (same.trans sameIdHere) different
    exact stays

/-- The bytes are changed. -/
theorem putData (changed : Bytes) :
    Visiting pool (now.modifyPage frame fun page => page.setData changed) pageId frame changed
      created := by
  apply @modifyPage _ _ _ _ _ _ visiting (fun page => page.setData changed) changed
    (.putData frame changed) rfl trivial (fun _ => rfl)
  exact fun _ _ => rfl

/-- The page is marked as dirty. -/
theorem setDirty :
    Visiting pool (now.modifyPage frame fun page => page.setDirty true) pageId frame data created := by
  apply @modifyPage _ _ _ _ _ _ visiting (fun page => page.setDirty true) data (.setDirty frame) rfl
    trivial (fun _ => rfl)
  exact fun page same => same

/-- The page is released: its pin was the one that the visit took. -/
theorem unpinPage (isDirty : Bool) :
    Visited pool (now.unpinPage pageId isDirty).2 pageId data created ∧
      (isDirty = true → (now.unpinPage pageId isDirty).2.frames.Saved pageId) ∧
      KeepsPage now.frames (now.unpinPage pageId isDirty).2.frames pageId ∧
      (now.unpinPage pageId isDirty).2.frames.pageTable = now.frames.pageTable := by
  have unpins := now.unpinPage_unpins pageId isDirty
  have table := BufferPool.pageTable_unpinPage now pageId isDirty
  have size := BufferPool.poolSize_unpinPage now pageId isDirty
  have inOrder := (@BufferPool.InOrder.serve now visiting.inOrder (.unpinPage pageId isDirty) trivial).1
  obtain ⟨pinned, sound, pins⟩ := unpins.sound visiting.inOrder.orderly.sound
  obtain ⟨-, kept⟩ := unpins.keeps visiting.inOrder.orderly
  have counts := unpins.pins visiting.inOrder.mapped visiting.resident
  rw [visiting.pins, Function.update_idem, Function.update_self, Nat.add_sub_cancel,
    Function.update_eq_self] at pins
  rw [visiting.counts, Function.update_idem, Function.update_self, Nat.add_sub_cancel,
    Function.update_eq_self] at counts
  have released : (now.unpinPage pageId isDirty).1 = true := by
    rw [pinned, visiting.pins, Function.update_self]
    exact Nat.succ_pos _
  have next : (now.unpinPage pageId isDirty).2.frames.disk.nextPageId = now.frames.disk.nextPageId ∧
      (now.unpinPage pageId isDirty).2.frames.shown pageId = now.frames.shown pageId ∧
      (isDirty = true → (now.unpinPage pageId isDirty).2.frames.Saved pageId) := by
    rw [released] at unpins
    generalize (now.unpinPage pageId isDirty).2.frames = after at unpins
    cases unpins with
    | @released holder page found held _ =>
      have heldAfter := setFrame_pages now.frames holder (some (BufferPool.released page isDirty))
      refine ⟨rfl, ?_, ?_⟩
      · rw [shown_resident found held, shown_resident (by exact found) heldAfter,
          BufferPool.released_data]
      · rintro rfl
        exact saved_resident (by exact found) heldAfter (.inl rfl)
  refine ⟨⟨inOrder, size.trans visiting.size, next.1.trans visiting.next, ?_, counts, pins,
    next.2.1.trans visiting.data, ?_⟩, next.2.2, kept pageId, table⟩
  · rw [table, visiting.resident]
    exact Option.some_ne_none _
  · exact fun other different issued => (visiting.kept other different issued).trans (kept other)

end Visiting

namespace Visited

/-- All frames are pinned after a visit just when they were before. -/
theorem allPinned_iff (visited : Visited pool after pageId data created) :
    after.AllPinned ↔ pool.AllPinned :=
  BufferPool.allPinned_congr visited.size visited.counts

/-- A visit of a page makes no difference to what the pool can bring. -/
theorem brings_iff (visited : Visited pool after pageId data created) (brought : pool.Brings pageId)
    (table : pool.frames.pageTable.lookup pageId ≠ none →
      after.frames.pageTable = pool.frames.pageTable) (other : Int) :
    after.Brings other ↔ pool.Brings other := by
  unfold BufferPool.Brings
  rw [visited.allPinned_iff]
  rcases brought with resident | notAll
  · rw [table resident]
  · exact iff_of_true (.inr notAll) (.inr notAll)

/-- A visit of a second page, after the first was only read. -/
theorem after_reading {middle : BufferPool IdealDisk} {first : Int}
    (read : Visited pool middle first (pool.frames.shown first) 0)
    (kept : KeepsPage pool.frames middle.frames first)
    (visited : Visited middle after pageId data created) : Visited pool after pageId data created := by
  have next : middle.frames.disk.nextPageId = pool.frames.disk.nextPageId := by
    rw [read.next, Int.add_zero]
  refine ⟨visited.inOrder, visited.size.trans read.size, visited.next.trans (by rw [next]),
    visited.resident, visited.counts.trans read.counts, visited.pins.trans read.pins, visited.data, ?_⟩
  intro other different issued
  have issuedMiddle : middle.Issued other := by
    unfold BufferPool.Issued
    rwa [next]
  refine KeepsPage.trans ?_ (visited.kept other different issuedMiddle)
  by_cases same : other = first
  · exact same ▸ kept
  · exact read.kept other same issued

end Visited

/-- What a visit of a page that exists leaves behind: if the page was in a frame, the table
is as it was, and a page that was saved is saved. -/
structure Revisited (pool after : BufferPool IdealDisk) (pageId : Int) (data : Bytes) : Prop
    extends Visited pool after pageId data 0 where
  table : pool.frames.pageTable.lookup pageId ≠ none →
    after.frames.pageTable = pool.frames.pageTable
  saved : pool.frames.Saved pageId → after.frames.Saved pageId

namespace Revisited

theorem next_eq (revisited : Revisited pool after pageId data) :
    after.frames.disk.nextPageId = pool.frames.disk.nextPageId := by
  rw [revisited.next, Int.add_zero]

/-- A page that was only read is kept. -/
theorem keeps (revisited : Revisited pool after pageId (pool.frames.shown pageId))
    (issued : pool.Issued other) : KeepsPage pool.frames after.frames other := by
  by_cases same : other = pageId
  · subst same
    exact fun saved => ⟨revisited.saved saved, revisited.data⟩
  · exact revisited.kept other same issued

/-- A refused request afterwards makes no difference. -/
theorem unchanged {last : BufferPool IdealDisk} (revisited : Revisited pool after pageId data)
    (unchanged : after.Unchanged last) : Revisited pool last pageId data := by
  refine ⟨⟨unchanged.inOrder revisited.inOrder, unchanged.size.trans revisited.size, ?_, ?_, ?_, ?_,
    ?_, ?_⟩, ?_, ?_⟩
  all_goals rw [unchanged.frames]
  · exact revisited.next
  · exact revisited.resident
  · exact revisited.counts
  · exact revisited.pins
  · exact revisited.data
  · exact revisited.kept
  · exact revisited.table
  · exact revisited.saved

end Revisited

/-- Whatever page `FetchPage` brings, also one that was never issued, has its bytes. -/
theorem data_fetchPage (inOrder : pool.InOrder) (fetched : (pool.fetchPage pageId).1 = some frame) :
    ((pool.fetchPage pageId).2.pageAt frame).data = pool.frames.shown pageId := by
  have agrees := inOrder.orderly.sound.agrees
  have fetches := pool.fetchPage_fetches pageId
  rw [fetched] at fetches
  unfold BufferPool.pageAt
  generalize (pool.fetchPage pageId).2.frames = after at fetches
  cases fetches with
  | hit resident =>
    obtain ⟨page, held, -⟩ := agrees.mapped resident
    rw [shown_resident resident held, Frames.modifyPage, held, Option.map_some,
      Frames.setFrame_pages]
    rfl
  | @loaded _ obtained absent obtains =>
    have same := (obtains.keepsPage agrees pageId (saved_absent absent)).2
    rw [← same, shown_absent (obtains.lookup_none absent), loadPage_ideal, Frames.place,
      Frames.setFrame_pages]
    rfl

/-- `FetchPage` of a page that was issued brings it, or is refused and changes nothing. -/
theorem fetchPage_cases (inOrder : pool.InOrder) (issued : pool.Issued pageId) :
    ¬ pool.Brings pageId ∧ (pool.fetchPage pageId).1 = none ∧
        pool.Unchanged (pool.fetchPage pageId).2 ∨
      pool.Brings pageId ∧ ∃ frame, (pool.fetchPage pageId).1 = some frame ∧
        Visiting pool (pool.fetchPage pageId).2 pageId frame (pool.frames.shown pageId) 0 ∧
        KeepsPage pool.frames (pool.fetchPage pageId).2.frames pageId ∧
        (pool.frames.pageTable.lookup pageId ≠ none →
          (pool.fetchPage pageId).2.frames.pageTable = pool.frames.pageTable) := by
  cases fetched : (pool.fetchPage pageId).1 with
  | some frame =>
    have brings := inOrder.tidy.fetchPage_ne_none_iff.mp (by rw [fetched]; exact Option.some_ne_none _)
    exact .inr ⟨brings, frame, rfl, Visiting.fetchPage inOrder issued fetched⟩
  | none =>
    have refuses : ¬ pool.Brings pageId := fun brings =>
      inOrder.tidy.fetchPage_ne_none_iff.mpr brings fetched
    have absent : pool.frames.pageTable.lookup pageId = none := by
      by_contra resident
      exact refuses (.inl resident)
    rcases inOrder.tidy.fetchPage_cases absent with ⟨-, -, unchanged⟩ | ⟨-, served, -⟩
    · exact .inl ⟨refuses, rfl, unchanged⟩
    · exact absurd fetched served

/-- A page that is only read. -/
theorem revisited_read (visiting : Visiting pool now pageId frame (pool.frames.shown pageId) 0)
    (kept : KeepsPage pool.frames now.frames pageId)
    (table : pool.frames.pageTable.lookup pageId ≠ none →
      now.frames.pageTable = pool.frames.pageTable) (isDirty : Bool) :
    Revisited pool (now.unpinPage pageId isDirty).2 pageId (pool.frames.shown pageId) := by
  obtain ⟨visited, -, keptLast, tableLast⟩ := visiting.unpinPage isDirty
  exact ⟨visited, fun resident => tableLast.trans (table resident),
    fun saved => (kept.trans keptLast saved).1⟩

/-- A page that was changed and is released as dirty. -/
theorem revisited_written (visiting : Visiting pool now pageId frame data 0)
    (table : pool.frames.pageTable.lookup pageId ≠ none →
      now.frames.pageTable = pool.frames.pageTable) :
    Revisited pool (now.unpinPage pageId true).2 pageId data ∧
      (now.unpinPage pageId true).2.frames.Saved pageId := by
  obtain ⟨visited, saved, -, tableLast⟩ := visiting.unpinPage true
  exact ⟨⟨visited, fun resident => tableLast.trans (table resident), fun _ => saved rfl⟩, saved rfl⟩

/-- If all frames are pinned, reading a page that the pool has changes no byte at all. -/
theorem shown_read (inOrder : pool.InOrder) (resident : pool.frames.pageTable.lookup pageId ≠ none)
    (isDirty : Bool) :
    ((pool.fetchPage pageId).2.unpinPage pageId isDirty).2.frames.shown = pool.frames.shown := by
  obtain ⟨frame, found⟩ := Option.ne_none_iff_exists'.mp resident
  have agrees := inOrder.orderly.sound.agrees
  obtain ⟨page, held, rfl⟩ := agrees.mapped found
  have start := BufferPool.OnPage.start held
  obtain ⟨-, fetched⟩ := start.fetchPage found
  obtain ⟨-, released⟩ := fetched.unpinPage found (Nat.succ_ne_zero _) isDirty
  ext1 other
  unfold shown
  rw [released.frames, agrees.contents_setFrame found]
  by_cases same : other = page.pageId
  · subst same
    rw [Function.update_self, contents_of_lookup found held, BufferPool.released_data]
    rfl
  · rw [Function.update_of_ne same]
    rfl

end MiniDB.Buffer
