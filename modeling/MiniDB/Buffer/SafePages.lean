import MiniDB.Buffer.PinLedger
import MiniDB.Buffer.Shortage

/-!
# Pages that no other client writes

Over an ideal disk a page keeps its bytes as long as they are on disk or its page object is
dirty, whatever clients do with the pool: they may release pins that they do not hold, and
write other pages without saying so. Only a write through a pointer to the page changes it.
-/

namespace MiniDB.Buffer

open Foundation Storage

namespace Frames

/-- The bytes of a page: those in its frame, or else those on disk. -/
def shown (frames : Frames IdealDisk) (pageId : Int) : Bytes :=
  (frames.contents pageId).getD (frames.disk.bytes pageId)

/-- If the page is in a frame, it is dirty or its bytes are on disk. -/
def Saved (frames : Frames IdealDisk) (pageId : Int) : Prop :=
  ∀ {frame : Nat} {page : Page}, frames.pageTable.lookup pageId = some frame →
    frames.pages frame = some page → page.isDirty = true ∨ frames.disk.bytes pageId = page.data

/-- A page that is saved keeps its bytes and stays saved. -/
def KeepsPage (before after : Frames IdealDisk) (pageId : Int) : Prop :=
  before.Saved pageId → after.Saved pageId ∧ after.shown pageId = before.shown pageId

/-- The frames are sound, and nothing is written beyond the pages that were issued. -/
structure Orderly (frames : Frames IdealDisk) : Prop where
  sound : frames.Sound
  unwritten : ∀ {pageId : Int}, frames.disk.nextPageId ≤ pageId → frames.disk.written pageId = none

variable {frames before middle after obtained : Frames IdealDisk} {pageId other : Int} {frame : Nat}
  {page changed : Page}

/-- A resident page is shown as it is in its frame. -/
theorem shown_resident (found : frames.pageTable.lookup pageId = some frame)
    (held : frames.pages frame = some page) : frames.shown pageId = page.data := by
  rw [shown, contents_of_lookup found held, Option.getD_some]

/-- Another one is shown as it is on the disk. -/
theorem shown_absent (absent : frames.pageTable.lookup pageId = none) :
    frames.shown pageId = frames.disk.bytes pageId := by
  simp only [shown, contents, absent, Option.bind_none, Option.map_none, Option.getD_none]

/-- A page that is on the disk only is saved. -/
theorem saved_absent (absent : frames.pageTable.lookup pageId = none) : frames.Saved pageId := by
  intro frame page found
  rw [absent] at found
  cases found

/-- A resident page is saved if it is dirty or the disk has its bytes. -/
theorem saved_resident (found : frames.pageTable.lookup pageId = some frame)
    (held : frames.pages frame = some page)
    (safe : page.isDirty = true ∨ frames.disk.bytes pageId = page.data) : frames.Saved pageId := by
  intro other present foundOther heldOther
  obtain rfl := Option.some.inj (found.symm.trans foundOther)
  obtain rfl := Option.some.inj (held.symm.trans heldOther)
  exact safe

theorem keepsPage_refl (frames : Frames IdealDisk) (pageId : Int) : KeepsPage frames frames pageId :=
  fun saved => ⟨saved, rfl⟩

/-- A page that two steps keep. -/
theorem KeepsPage.trans (first : KeepsPage before middle pageId)
    (second : KeepsPage middle after pageId) : KeepsPage before after pageId := by
  intro saved
  obtain ⟨savedMiddle, sameMiddle⟩ := first saved
  obtain ⟨savedAfter, sameAfter⟩ := second savedMiddle
  exact ⟨savedAfter, sameAfter.trans sameMiddle⟩

/-- The page stays where it is, with its bytes, and does not become clean. -/
theorem Agrees.keepsPage (agrees : before.Agrees)
    (table : after.pageTable.lookup pageId = before.pageTable.lookup pageId)
    (disk : after.disk.bytes pageId = before.disk.bytes pageId)
    (pages : ∀ {frame page}, before.pageTable.lookup pageId = some frame →
      before.pages frame = some page → ∃ present, after.pages frame = some present ∧
        present.data = page.data ∧ (page.isDirty = true → present.isDirty = true)) :
    KeepsPage before after pageId := by
  intro saved
  cases found : before.pageTable.lookup pageId with
  | none =>
    have absent := table.trans found
    exact ⟨saved_absent absent, by rw [shown_absent absent, shown_absent found, disk]⟩
  | some frame =>
    obtain ⟨page, held, -⟩ := agrees.mapped found
    obtain ⟨present, heldAfter, data, dirty⟩ := pages found held
    have foundAfter := table.trans found
    refine ⟨saved_resident foundAfter heldAfter ?_, ?_⟩
    · rcases saved found held with isDirty | onDisk
      · exact .inl (dirty isDirty)
      · exact .inr (by rw [disk, onDisk, data])
    · rw [shown_resident foundAfter heldAfter, shown_resident found held, data]

/-- A page changes in its frame: every other page is kept, and so is this one if it has its
bytes and does not become clean. -/
theorem Agrees.keepsPage_setFrame (agrees : frames.Agrees) (held : frames.pages frame = some page)
    (same : other = page.pageId →
      changed.data = page.data ∧ (page.isDirty = true → changed.isDirty = true)) :
    KeepsPage frames (frames.setFrame frame (some changed)) other := by
  refine agrees.keepsPage rfl rfl fun {holder present} found heldPresent => ?_
  by_cases here : holder = frame
  · subst here
    obtain rfl := Option.some.inj (held.symm.trans heldPresent)
    exact ⟨changed, setFrame_pages _ _ _, same (agrees.pageId_eq found held).symm⟩
  · exact ⟨present, (setFrame_pages_of_ne _ here _).trans heldPresent, rfl, id⟩

/-- The same for a change through a pointer, where there may be no page. -/
theorem Agrees.keepsPage_modifyPage (agrees : frames.Agrees) {change : Page → Page}
    (same : ∀ page, frames.pages frame = some page → other = page.pageId →
      (change page).data = page.data ∧ (page.isDirty = true → (change page).isDirty = true)) :
    KeepsPage frames (frames.modifyPage frame change) other := by
  unfold Frames.modifyPage
  cases held : frames.pages frame with
  | none =>
    rw [Option.map_none, Frames.setFrame, ← held, Function.update_eq_self]
    exact keepsPage_refl _ _
  | some page => exact agrees.keepsPage_setFrame held (same page held)

/-- What `WritePage` leaves of the pages on disk. -/
theorem bytes_writeBack (frames : Frames IdealDisk) (pageId : Int) (page : Page) (other : Int) :
    (frames.writeBack pageId page).disk.bytes other =
      if page.isDirty = true ∧ other = pageId then page.data else frames.disk.bytes other := by
  unfold writeBack
  by_cases dirty : page.isDirty = true
  · rw [if_pos dirty]
    by_cases same : other = pageId
    · subst same
      simp [IdealDisk.bytes, Disk.writePage, dirty]
    · simp [IdealDisk.bytes, Disk.writePage, same]
  · simp [dirty]

/-- A page that is written back and leaves the table is found on disk. -/
theorem Agrees.keepsPage_evict (agrees : frames.Agrees) (held : frames.pages frame = some page)
    (pageId : Int) : KeepsPage frames (frames.evict page) pageId := by
  have bytes := bytes_writeBack frames page.pageId page
  have found := agrees.resident held
  unfold evict
  rw [writeBack_eq]
  by_cases same : pageId = page.pageId
  · subst same
    intro saved
    have absent : (frames.pageTable.erase page.pageId).lookup page.pageId = none :=
      AList.lookup_erase _ _
    refine ⟨saved_absent absent, ?_⟩
    rw [shown_absent absent, shown_resident found held]
    dsimp only
    rw [bytes]
    by_cases dirty : page.isDirty = true
    · rw [if_pos ⟨dirty, rfl⟩]
    · rw [if_neg fun here => dirty here.1]
      exact (saved found held).resolve_left dirty
  · apply agrees.keepsPage
    · exact AList.lookup_erase_ne same
    · dsimp only
      rw [bytes, if_neg fun here => same here.2]
    · intro holder present _ heldPresent
      exact ⟨present, heldPresent, rfl, id⟩

/-- Obtaining a frame keeps every page: a dirty victim is written first. -/
theorem Obtains.keepsPage (obtains : frames.Obtains (some frame) obtained) (agrees : frames.Agrees)
    (pageId : Int) : KeepsPage frames obtained pageId := by
  cases obtains with
  | free empty => exact keepsPage_refl _ _
  | evicted held unpinned => exact agrees.keepsPage_evict held pageId

/-- A page that comes into a vacant frame is no other page. -/
theorem Vacant.keepsPage_place (isVacant : frames.Vacant frame) (different : pageId ≠ page.pageId) :
    KeepsPage frames (frames.place frame page) pageId := by
  intro saved
  have table : (frames.place frame page).pageTable.lookup pageId = frames.pageTable.lookup pageId :=
    AList.lookup_insert_ne different
  cases found : frames.pageTable.lookup pageId with
  | none =>
    have absent := table.trans found
    exact ⟨saved_absent absent, by rw [shown_absent absent, shown_absent found]; rfl⟩
  | some holder =>
    obtain ⟨elsewhere, present, held, -⟩ := isVacant.mapped found
    have foundAfter := table.trans found
    have heldAfter : (frames.place frame page).pages holder = some present :=
      (Function.update_of_ne elsewhere _ _).trans held
    refine ⟨saved_resident foundAfter heldAfter (saved found held), ?_⟩
    rw [shown_resident foundAfter heldAfter, shown_resident found held]

/-- Every page comes in with the bytes that it has on disk. -/
theorem loadPage_ideal (frames : Frames IdealDisk) (frame : Nat) (pageId : Int) :
    frames.loadPage frame pageId = frames.place frame
      ((frames.preparePage frame pageId).setData (frames.disk.bytes pageId)).pin := by
  have read : Disk.readPage frames.disk pageId (frames.preparePage frame pageId).data =
      (frames.disk.bytes pageId, frames.disk) := by
    by_cases known : frames.disk.Allocated pageId ∨ frames.disk.written pageId ≠ none
    · simp only [Disk.readPage, if_pos known]
    · have unwritten : frames.disk.written pageId = none := by
        by_contra written
        exact known (.inr written)
      have zeros : frames.disk.bytes pageId = (frames.preparePage frame pageId).data := by
        simp only [IdealDisk.bytes, unwritten, Option.getD_none]
        rfl
      rw [zeros]
      exact congrArg (Prod.mk · frames.disk) (if_neg known)
  simp only [loadPage, read]

/-- Writing an issued page leaves the ids that were not issued. -/
theorem unwritten_writeBack (orderly : frames.Orderly)
    (issued : pageId < frames.disk.nextPageId) (page : Page) {beyond : Int}
    (isBeyond : frames.disk.nextPageId ≤ beyond) :
    (frames.writeBack pageId page).disk.written beyond = none := by
  rw [written_writeBack_of_ne frames (by omega)]
  exact orderly.unwritten isBeyond

/-- A pool without pages. -/
theorem orderly_empty {disk : IdealDisk}
    (unwritten : ∀ {pageId : Int}, disk.nextPageId ≤ pageId → disk.written pageId = none) :
    ({ disk } : Frames IdealDisk).Orderly :=
  ⟨sound_empty disk, unwritten⟩

/-- Obtaining a frame writes issued pages only. -/
theorem Obtains.unwritten (obtains : frames.Obtains (some frame) obtained) (orderly : frames.Orderly)
    (isBeyond : frames.disk.nextPageId ≤ pageId) : obtained.disk.written pageId = none := by
  cases obtains with
  | free empty => exact orderly.unwritten isBeyond
  | evicted held unpinned =>
    exact unwritten_writeBack orderly (orderly.sound.issued (orderly.sound.agrees.resident held)) _
      isBeyond

/-! ## What one operation keeps -/

/-- `FetchPage` keeps every page. -/
theorem Fetches.keeps {result : Option Nat} (fetches : frames.Fetches pageId result after)
    (orderly : frames.Orderly) (issued : pageId < frames.disk.nextPageId) :
    after.Orderly ∧ ∀ other, KeepsPage frames after other := by
  have sound := (fetches.sound orderly.sound issued).1
  cases fetches with
  | refused => exact ⟨orderly, keepsPage_refl _⟩
  | @hit frame resident =>
    obtain ⟨page, held, -⟩ := orderly.sound.agrees.mapped resident
    rw [modifyPage, held, Option.map_some] at sound ⊢
    exact ⟨⟨sound, orderly.unwritten⟩,
      fun other => orderly.sound.agrees.keepsPage_setFrame held fun _ => ⟨rfl, id⟩⟩
  | @loaded frame obtained absent obtains =>
    have next := obtains.nextPageId_eq
    have vacant := orderly.sound.agrees.vacant_obtained obtains
    rw [loadPage_ideal] at sound ⊢
    refine ⟨⟨sound, fun beyond => obtains.unwritten orderly (next ▸ beyond)⟩, fun other => ?_⟩
    apply (obtains.keepsPage orderly.sound.agrees other).trans
    by_cases same : other = pageId
    · subst same
      -- the page itself comes in with its bytes
      intro saved
      have found := AList.lookup_insert (a := other) (b := frame) obtained.pageTable
      have held := setFrame_pages { obtained with pageTable := obtained.pageTable.insert other frame }
        frame (some ((obtained.preparePage frame other).setData (obtained.disk.bytes other)).pin)
      refine ⟨saved_resident found held (.inr rfl), ?_⟩
      rw [shown_absent (obtains.lookup_none absent)]
      exact shown_resident found held
    · exact vacant.keepsPage_place same

/-- `NewPage` keeps every page that was there. -/
theorem Creates.keeps {newId : Int} (creates : frames.Creates (some (newId, frame)) after)
    (orderly : frames.Orderly) :
    after.Orderly ∧ ∀ other, other < frames.disk.nextPageId → KeepsPage frames after other := by
  obtain ⟨newIs, next, sound, -⟩ := creates.sound orderly.sound
  cases creates with
  | @added _ obtained obtains =>
    have vacant := orderly.sound.agrees.vacant_obtained obtains
    have same := obtains.nextPageId_eq
    refine ⟨⟨sound, ?_⟩, fun other issued => ?_⟩
    · intro beyond isBeyond
      have more : obtained.disk.nextPageId + 1 ≤ beyond := isBeyond
      exact obtains.unwritten orderly (by omega)
    · apply (obtains.keepsPage orderly.sound.agrees other).trans
      have disk : KeepsPage obtained { obtained with disk := (Disk.allocPage obtained.disk).2 } other :=
        fun saved => ⟨saved, rfl⟩
      apply disk.trans
      have different : other ≠ obtained.disk.nextPageId := by omega
      exact (vacant.with_disk _).keepsPage_place different

/-- `UnpinPage` keeps every page. -/
theorem Unpins.keeps {isDirty result : Bool} (unpins : frames.Unpins pageId isDirty result after)
    (orderly : frames.Orderly) : after.Orderly ∧ ∀ other, KeepsPage frames after other := by
  have sound := (unpins.sound orderly.sound).2.1
  cases unpins with
  | refused unpinned => exact ⟨orderly, keepsPage_refl _⟩
  | released resident held pinned =>
    refine ⟨⟨sound, orderly.unwritten⟩, fun other => ?_⟩
    apply orderly.sound.agrees.keepsPage_setFrame held
    intro _
    unfold BufferPool.released
    cases isDirty with
    | true => exact ⟨rfl, fun _ => rfl⟩
    | false => exact ⟨rfl, id⟩

/-- `FlushPage` keeps every page. -/
theorem Flushes.keeps (flushes : frames.Flushes pageId after) (orderly : frames.Orderly) :
    after.Orderly ∧ ∀ other, KeepsPage frames after other := by
  have sound := (flushes.sound orderly.sound).1
  cases flushes with
  | unchanged => exact ⟨orderly, keepsPage_refl _⟩
  | @written frame page resident held dirty =>
    obtain rfl := orderly.sound.agrees.pageId_eq resident held
    have next := nextPageId_writeBack_ideal frames page.pageId page
    have written := fun {beyond} => @unwritten_writeBack frames page.pageId orderly
      (orderly.sound.issued resident) page beyond
    have bytes := bytes_writeBack frames page.pageId page
    rw [writeBack_eq] at sound ⊢
    refine ⟨⟨sound, fun beyond => written (next ▸ beyond)⟩, fun other => ?_⟩
    intro saved
    by_cases same : other = page.pageId
    · subst same
      have heldAfter := setFrame_pages { frames with disk := (frames.writeBack page.pageId page).disk }
        frame (some (page.setDirty false))
      refine ⟨saved_resident ?_ heldAfter (.inr ?_), ?_⟩
      · exact resident
      · exact (bytes page.pageId).trans (if_pos ⟨dirty, rfl⟩)
      · exact (shown_resident (by exact resident) heldAfter).trans (shown_resident resident held).symm
    · have kept : KeepsPage frames (frames.setFrame frame (some (page.setDirty false))) other :=
        orderly.sound.agrees.keepsPage_setFrame held fun here => absurd here same
      obtain ⟨savedAfter, shownAfter⟩ := kept saved
      have onDisk : (frames.writeBack page.pageId page).disk.bytes other = frames.disk.bytes other :=
        (bytes other).trans (if_neg fun here => same here.2)
      refine ⟨fun found heldOther => ?_, ?_⟩
      · dsimp only [setFrame_disk]
        rw [onDisk]
        exact savedAfter found heldOther
      · rw [← shownAfter]
        simp only [shown, setFrame_disk, onDisk]
        rfl

/-- `DeletePage` keeps every page. -/
theorem Deletes.keeps {result : Bool} (deletes : frames.Deletes pageId result after)
    (orderly : frames.Orderly) : after.Orderly ∧ ∀ other, KeepsPage frames after other := by
  have sound := (deletes.sound orderly.sound).1
  cases deletes with
  | refused => exact ⟨orderly, keepsPage_refl _⟩
  | @deleted frame page resident held unpinned =>
    obtain rfl := orderly.sound.agrees.pageId_eq resident held
    have next := nextPageId_writeBack_ideal frames page.pageId page
    have dropped : frames.dropPage frame page.pageId page =
        (frames.evict page).setFrame frame none := rfl
    have pages : (frames.evict page).pages = frames.pages := writeBack_pages _ _ _
    refine ⟨⟨sound, fun beyond => ?_⟩, fun other => ?_⟩
    · exact unwritten_writeBack orderly (orderly.sound.issued resident) page (next ▸ beyond)
    · apply (orderly.sound.agrees.keepsPage_evict held other).trans
      have vacant := orderly.sound.agrees.vacant_obtained (.evicted held unpinned)
      rw [dropped]
      intro saved
      -- nothing leads to the frame that becomes null
      have elsewhere : ∀ {holder}, (frames.evict page).pageTable.lookup other = some holder →
          ((frames.evict page).setFrame frame none).pages holder = (frames.evict page).pages holder :=
        fun found => setFrame_pages_of_ne _ (vacant.mapped found).1 _
      refine ⟨fun found heldOther => saved found ((elsewhere found).symm.trans heldOther), ?_⟩
      unfold shown contents
      dsimp only [setFrame_pageTable, setFrame_disk]
      cases found : (frames.evict page).pageTable.lookup other with
      | none => rfl
      | some holder => simp only [Option.bind_some, elsewhere found]

end Frames

end MiniDB.Buffer
