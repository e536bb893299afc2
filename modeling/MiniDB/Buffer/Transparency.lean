import Mathlib.Data.List.Perm.Basic
import MiniDB.Buffer.Residency

/-!
# The pool is transparent

Over an ideal disk the pool behaves like one map from page ids to bytes. A
history carries, next to the pool, the bytes last written to each page and the
pins that clients hold. `Mirrors` is the simulation: a resident page has the
bytes of the map, an absent page has them on disk, and a resident page whose
bytes are not on disk is dirty or pinned by a client that wrote it and has yet
to say so.
-/

namespace MiniDB.Storage

open Foundation

/-- A disk that keeps what it is given. -/
structure IdealDisk where
  nextPageId : Int
  /-- The last bytes given to `WritePage`. -/
  written : Int → Option Bytes

namespace IdealDisk

/-- The bytes of a page: those last written, or zeros. -/
def bytes (disk : IdealDisk) (pageId : Int) : Bytes := (disk.written pageId).getD Bytes.zeros

theorem bytes_congr {disk other : IdealDisk} {pageId : Int}
    (same : disk.written pageId = other.written pageId) :
    disk.bytes pageId = other.bytes pageId := by
  simp only [bytes, same]

/-- The page was handed out by `AllocPage`. -/
def Allocated (disk : IdealDisk) (pageId : Int) : Prop := 0 ≤ pageId ∧ pageId < disk.nextPageId

instance (disk : IdealDisk) (pageId : Int) : Decidable (disk.Allocated pageId) :=
  inferInstanceAs (Decidable (_ ∧ _))

/-- A page that is neither allocated nor written leaves the buffer as it is. -/
instance : Disk IdealDisk where
  readPage disk pageId out :=
    (if disk.Allocated pageId ∨ disk.written pageId ≠ none then disk.bytes pageId else out, disk)
  writePage disk pageId data :=
    { disk with written := Function.update disk.written pageId (some data) }
  allocPage disk := (disk.nextPageId, { disk with nextPageId := disk.nextPageId + 1 })

/-- A disk on which the first `count` pages exist already. -/
def start (count : Nat) (initial : Int → Bytes) : IdealDisk where
  nextPageId := count
  written pageId := if 0 ≤ pageId ∧ pageId < count then some (initial pageId) else none

end IdealDisk

end MiniDB.Storage

namespace MiniDB.Buffer

open Foundation Storage

/-- A pin that a client holds: the page, the frame behind its pointer, and
whether it changed the page through it. -/
structure ClientPin where
  pageId : Int
  frame : Nat
  wrote : Bool := false

/-- The pool, the bytes last written to each page, and the pins held. -/
structure PoolHistory where
  pool : BufferPool IdealDisk
  contents : Int → Bytes
  pins : List ClientPin := []

/-- What clients do. A pin is named by its position in the list of pins. -/
inductive ClientCall where
  | newPage
  | fetchPage (pageId : Int)
  /-- Change the bytes of a page through a pin. -/
  | write (pin : Nat) (data : Bytes)
  /-- `UnpinPage` for a pin that is held. -/
  | unpinPage (pin : Nat) (isDirty : Bool)
  /-- `UnpinPage` for a page that nobody holds a pin of. -/
  | unpinUnheld (pageId : Int) (isDirty : Bool)
  | flushPage (pageId : Int)
  | flushAllPages
  | deletePage (pageId : Int)

namespace PoolHistory

/-- An empty pool on a disk with `count` pages; the replacer's latch is a no-op. -/
def start (poolSize count : Nat) (initial : Int → Bytes) : PoolHistory :=
  let disk := IdealDisk.start count initial
  { pool := BufferPool.new poolSize disk .noop, contents := disk.bytes }

/-- One call. -/
def step (history : PoolHistory) : ClientCall → PoolHistory
  | .newPage =>
    match history.pool.newPage with
    | (none, pool) => { history with pool }
    | (some (pageId, frame), pool) =>
      { pool
        contents := Function.update history.contents pageId Bytes.zeros
        pins := { pageId, frame } :: history.pins }
  | .fetchPage pageId =>
    match history.pool.fetchPage pageId with
    | (none, pool) => { history with pool }
    | (some frame, pool) => { history with pool, pins := { pageId, frame } :: history.pins }
  | .write index data =>
    match history.pins[index]? with
    | none => history
    | some pin =>
      let frames := history.pool.frames.modifyPage pin.frame fun page => page.setData data
      { pool := { history.pool with frames }
        contents := Function.update history.contents pin.pageId data
        pins := history.pins.set index { pin with wrote := true } }
  | .unpinPage index isDirty =>
    match history.pins[index]? with
    | none => history
    | some pin =>
      { history with
        pool := (history.pool.unpinPage pin.pageId isDirty).2
        pins := history.pins.eraseIdx index }
  | .unpinUnheld pageId isDirty =>
    { history with pool := (history.pool.unpinPage pageId isDirty).2 }
  | .flushPage pageId => { history with pool := (history.pool.flushPage pageId).2 }
  | .flushAllPages => { history with pool := history.pool.flushAllPages }
  | .deletePage pageId => { history with pool := (history.pool.deletePage pageId).2 }

/-- The discipline: only allocated pages are fetched, and a pin through which the
page was changed is released as dirty. -/
def Disciplined (history : PoolHistory) : ClientCall → Prop
  | .fetchPage pageId => history.pool.frames.disk.Allocated pageId
  | .unpinPage index isDirty =>
    ∀ pin ∈ history.pins[index]?, pin.wrote = true → isDirty = true
  | .unpinUnheld pageId _ => ∀ pin ∈ history.pins, pin.pageId ≠ pageId
  | _ => True

/-- A `FetchPage` that succeeds returns the page with the bytes last written to it. -/
def Transparent (history : PoolHistory) : ClientCall → Prop
  | .fetchPage pageId =>
    ∀ frame, (history.pool.fetchPage pageId).1 = some frame →
      ∃ page, (history.pool.fetchPage pageId).2.frames.pages frame = some page ∧
        page.pageId = pageId ∧ page.data = history.contents pageId
  | _ => True

end PoolHistory

/-! ## The simulation -/

/-- What the frame held before makes no difference once a page is put there. -/
theorem Frames.place_setFrame {D : Type} (frames : Frames D) (frame : Nat) (page : Page) :
    (frames.setFrame frame none).place frame page = frames.place frame page := by
  simp [Frames.place, Frames.setFrame]

/-- Writing back a page allocates no page. -/
theorem Frames.nextPageId_writeBack_ideal (frames : Frames IdealDisk) (pageId : Int)
    (page : Page) : (frames.writeBack pageId page).disk.nextPageId = frames.disk.nextPageId := by
  unfold Frames.writeBack
  split <;> rfl

/-- Obtaining a frame allocates no page. -/
theorem Frames.Obtains.nextPageId_eq {frames obtained : Frames IdealDisk} {frame : Option Nat}
    (obtains : frames.Obtains frame obtained) :
    obtained.disk.nextPageId = frames.disk.nextPageId := by
  cases obtains with
  | refused => rfl
  | free empty => rfl
  | evicted held unpinned => exact Frames.nextPageId_writeBack_ideal _ _ _

/-- An allocated page comes in with the bytes it has on disk. -/
theorem Frames.loadPage_of_allocated {frames : Frames IdealDisk} {frame : Nat} {pageId : Int}
    (allocated : frames.disk.Allocated pageId) :
    frames.loadPage frame pageId = frames.place frame
      ((frames.preparePage frame pageId).setData (frames.disk.bytes pageId)).pin := by
  have read : Disk.readPage frames.disk pageId (frames.preparePage frame pageId).data =
      (frames.disk.bytes pageId, frames.disk) := by
    simp [Disk.readPage, allocated]
  simp only [Frames.loadPage, read]

/-- The number of pins of a page. -/
def holders (pins : List ClientPin) (pageId : Int) : Nat :=
  pins.countP fun pin => decide (pin.pageId = pageId)

/-- Some client changed the page and has yet to release its pin. -/
def Unsaved (pins : List ClientPin) (pageId : Int) : Prop :=
  ∃ pin ∈ pins, pin.pageId = pageId ∧ pin.wrote = true

theorem holders_eq_zero_iff {pins : List ClientPin} {pageId : Int} :
    holders pins pageId = 0 ↔ ∀ pin ∈ pins, pin.pageId ≠ pageId := by
  simp [holders, List.countP_eq_zero]

theorem holders_cons_self (pin : ClientPin) (pins : List ClientPin) :
    holders (pin :: pins) pin.pageId = holders pins pin.pageId + 1 :=
  List.countP_cons_of_pos (by simp)

theorem holders_cons_of_ne {pin : ClientPin} {pageId : Int} (different : pin.pageId ≠ pageId)
    (pins : List ClientPin) : holders (pin :: pins) pageId = holders pins pageId :=
  List.countP_cons_of_neg (by simpa using different)

theorem Unsaved.cons {pins : List ClientPin} {pageId : Int} (unsaved : Unsaved pins pageId)
    (pin : ClientPin) : Unsaved (pin :: pins) pageId := by
  obtain ⟨other, member, wrote⟩ := unsaved
  exact ⟨other, List.mem_cons_of_mem _ member, wrote⟩

/-- Writing back a page leaves the other pages on disk as they are. -/
theorem Frames.written_writeBack_of_ne (frames : Frames IdealDisk) {pageId other : Int}
    (different : other ≠ pageId) (page : Page) :
    (frames.writeBack pageId page).disk.written other = frames.disk.written other := by
  unfold Frames.writeBack
  split
  · exact Function.update_of_ne different _ _
  · rfl

/-- The frames, the disk and the pins hold the map `contents`. -/
structure Mirrors (frames : Frames IdealDisk) (contents : Int → Bytes) (pins : List ClientPin) :
    Prop where
  agrees : frames.Agrees
  allocated : ∀ {pageId : Int} {frame : Nat}, frames.pageTable.lookup pageId = some frame →
    frames.disk.Allocated pageId
  data : ∀ {frame : Nat} {page : Page}, frames.pages frame = some page →
    page.data = contents page.pageId
  stored : ∀ {pageId : Int}, frames.pageTable.lookup pageId = none →
    frames.disk.Allocated pageId → frames.disk.bytes pageId = contents pageId
  safe : ∀ {frame : Nat} {page : Page}, frames.pages frame = some page →
    page.isDirty = true ∨ Unsaved pins page.pageId ∨
      frames.disk.bytes page.pageId = contents page.pageId
  counted : ∀ {frame : Nat} {page : Page}, frames.pages frame = some page →
    page.pinCount = holders pins page.pageId
  pinned : ∀ {pin : ClientPin}, pin ∈ pins →
    frames.pageTable.lookup pin.pageId = some pin.frame
  unwritten : ∀ {pageId : Int}, frames.disk.nextPageId ≤ pageId →
    frames.disk.written pageId = none
  nonneg : 0 ≤ frames.disk.nextPageId

namespace Mirrors

variable {frames : Frames IdealDisk} {contents : Int → Bytes} {pins : List ClientPin}

theorem start (count : Nat) (initial : Int → Bytes) :
    Mirrors { disk := IdealDisk.start count initial } (IdealDisk.start count initial).bytes [] where
  agrees := Frames.agrees_empty _
  allocated found := by simp at found
  data held := by cases held
  stored _ _ := rfl
  safe held := by cases held
  counted held := by cases held
  pinned member := by cases member
  unwritten beyond := if_neg fun inside => Int.not_lt.mpr beyond inside.2
  nonneg := Int.natCast_nonneg count

/-- The order of the pins does not matter. -/
theorem perm (mirrors : Mirrors frames contents pins) {reordered : List ClientPin}
    (same : reordered.Perm pins) : Mirrors frames contents reordered where
  agrees := mirrors.agrees
  allocated := mirrors.allocated
  data := mirrors.data
  stored := mirrors.stored
  safe held := by
    rcases mirrors.safe held with dirty | ⟨pin, member, unsaved⟩ | onDisk
    · exact .inl dirty
    · exact .inr (.inl ⟨pin, same.mem_iff.mpr member, unsaved⟩)
    · exact .inr (.inr onDisk)
  counted held := (mirrors.counted held).trans (same.countP_eq _).symm
  pinned member := mirrors.pinned (same.mem_iff.mp member)
  unwritten := mirrors.unwritten
  nonneg := mirrors.nonneg

/-- A page beyond those that were allocated is not resident. -/
theorem ne_of_beyond (mirrors : Mirrors frames contents pins) {pageId beyond : Int} {frame : Nat}
    (found : frames.pageTable.lookup pageId = some frame)
    (isBeyond : frames.disk.nextPageId ≤ beyond) : beyond ≠ pageId := by
  have below := (mirrors.allocated found).2
  omega

/-- One resident page changes in its frame, and with it its entry of the map, its
bytes on disk and its pins; all other pages stay as they are. -/
theorem change (mirrors : Mirrors frames contents pins) (disk : IdealDisk)
    {frame : Nat} {page changed : Page} {contents' : Int → Bytes} {pins' : List ClientPin}
    (held : frames.pages frame = some page) (sameId : changed.pageId = page.pageId)
    (data : changed.data = contents' page.pageId)
    (safe : changed.isDirty = true ∨ Unsaved pins' page.pageId ∨
      disk.bytes page.pageId = contents' page.pageId)
    (counted : changed.pinCount = holders pins' page.pageId)
    (elsewhere : ∀ other, other ≠ page.pageId → contents' other = contents other ∧
      disk.written other = frames.disk.written other ∧
      holders pins' other = holders pins other ∧ (Unsaved pins other → Unsaved pins' other))
    (pinned : ∀ {pin : ClientPin}, pin ∈ pins' →
      frames.pageTable.lookup pin.pageId = some pin.frame)
    (next : disk.nextPageId = frames.disk.nextPageId) :
    Mirrors ({ frames with disk }.setFrame frame (some changed)) contents' pins' := by
  have agrees : ({ frames with disk }.setFrame frame (some changed)).Agrees := by
    have kept := mirrors.agrees.setFrame held sameId
    exact ⟨kept.injective, kept.mapped, kept.resident⟩
  have found := mirrors.agrees.resident held
  -- every page is the changed one, or has another id and stands where it stood
  have split : ∀ {other : Nat} {present : Page},
      ({ frames with disk }.setFrame frame (some changed)).pages other = some present →
        present = changed ∨ (frames.pages other = some present ∧ present.pageId ≠ page.pageId) := by
    intro other present here
    rcases update_cases here with ⟨-, written⟩ | ⟨different, before⟩
    · exact .inl (Option.some.inj written).symm
    · exact .inr ⟨before, fun same => different (mirrors.agrees.frame_eq held before same)⟩
  have bytesElsewhere : ∀ other, other ≠ page.pageId →
      disk.bytes other = frames.disk.bytes other := fun other different =>
    IdealDisk.bytes_congr (elsewhere other different).2.1
  refine ⟨agrees, ?_, ?_, ?_, ?_, ?_, pinned, ?_, ?_⟩
  · intro pageId other foundOther
    obtain ⟨nonneg, below⟩ := mirrors.allocated foundOther
    exact ⟨nonneg, next.symm ▸ below⟩
  · intro other present here
    rcases split here with rfl | ⟨before, different⟩
    · rw [sameId]
      exact data
    · rw [(elsewhere _ different).1]
      exact mirrors.data before
  · intro pageId absent allocated
    have different : pageId ≠ page.pageId := by
      rintro rfl
      cases found.symm.trans absent
    have allocatedBefore : frames.disk.Allocated pageId := ⟨allocated.1, next ▸ allocated.2⟩
    rw [(elsewhere _ different).1]
    exact (bytesElsewhere _ different).trans (mirrors.stored absent allocatedBefore)
  · intro other present here
    rcases split here with rfl | ⟨before, different⟩
    · rw [sameId]
      exact safe
    · rcases mirrors.safe before with dirty | unsaved | onDisk
      · exact .inl dirty
      · exact .inr (.inl ((elsewhere _ different).2.2.2 unsaved))
      · refine .inr (.inr ?_)
        rw [(elsewhere _ different).1]
        exact (bytesElsewhere _ different).trans onDisk
  · intro other present here
    rcases split here with rfl | ⟨before, different⟩
    · rw [sameId]
      exact counted
    · rw [(elsewhere _ different).2.2.1]
      exact mirrors.counted before
  · intro pageId beyond
    have beyondBefore : frames.disk.nextPageId ≤ pageId := next ▸ beyond
    have different := mirrors.ne_of_beyond found beyondBefore
    exact (elsewhere _ different).2.1.trans (mirrors.unwritten beyondBefore)
  · exact next.symm ▸ mirrors.nonneg

/-- An unpinned page leaves the pool, written back if it is dirty. -/
theorem dropPage (mirrors : Mirrors frames contents pins) {frame : Nat} {page : Page}
    (held : frames.pages frame = some page) (unpinned : page.pinCount = 0) :
    Mirrors (frames.dropPage frame page.pageId page) contents pins := by
  have found := mirrors.agrees.resident held
  have noPins : ∀ pin ∈ pins, pin.pageId ≠ page.pageId :=
    holders_eq_zero_iff.mp ((mirrors.counted held).symm.trans unpinned)
  -- with no pin left, the bytes are on disk now or the page is dirty and goes there
  have saved : (frames.writeBack page.pageId page).disk.bytes page.pageId =
      contents page.pageId := by
    rw [← mirrors.data held]
    unfold Frames.writeBack
    split
    · simp [IdealDisk.bytes, Disk.writePage]
    · next clean =>
      rcases mirrors.safe held with dirty | ⟨pin, member, same, -⟩ | onDisk
      · exact absurd dirty clean
      · exact absurd same (noPins pin member)
      · exact onDisk.trans (mirrors.data held).symm
  have elsewhere : ∀ other, other ≠ page.pageId →
      (frames.writeBack page.pageId page).disk.written other = frames.disk.written other :=
    fun other different => frames.written_writeBack_of_ne different page
  have next := frames.nextPageId_writeBack_ideal page.pageId page
  unfold Frames.dropPage
  rw [Frames.writeBack_eq]
  generalize (frames.writeBack page.pageId page).disk = disk at saved elsewhere next
  have bytesElsewhere : ∀ other, other ≠ page.pageId →
      disk.bytes other = frames.disk.bytes other := fun other different =>
    IdealDisk.bytes_congr (elsewhere other different)
  have split : ∀ {other : Nat} {present : Page},
      ({ frames with disk, pageTable := frames.pageTable.erase page.pageId }.setFrame frame
        none).pages other = some present →
        frames.pages other = some present ∧ present.pageId ≠ page.pageId := by
    intro other present here
    rcases update_cases here with ⟨-, cleared⟩ | ⟨different, before⟩
    · cases cleared
    · exact ⟨before, fun same => different (mirrors.agrees.frame_eq held before same)⟩
  refine ⟨((mirrors.agrees.vacant_erase held).with_disk disk).agrees_clear, ?_, ?_, ?_, ?_, ?_, ?_,
    ?_, ?_⟩
  · intro pageId other foundOther
    obtain ⟨nonneg, below⟩ := mirrors.allocated (UnorderedMap.lookup_of_erase foundOther).2
    exact ⟨nonneg, next.symm ▸ below⟩
  · exact fun here => mirrors.data (split here).1
  · intro pageId absent allocated
    by_cases same : pageId = page.pageId
    · subst same
      exact saved
    · have absentBefore : frames.pageTable.lookup pageId = none :=
        (AList.lookup_erase_ne same).symm.trans absent
      exact (bytesElsewhere _ same).trans
        (mirrors.stored absentBefore ⟨allocated.1, next ▸ allocated.2⟩)
  · intro other present here
    obtain ⟨before, different⟩ := split here
    rcases mirrors.safe before with dirty | unsaved | onDisk
    · exact .inl dirty
    · exact .inr (.inl unsaved)
    · exact .inr (.inr ((bytesElsewhere _ different).trans onDisk))
  · exact fun here => mirrors.counted (split here).1
  · intro pin member
    exact (AList.lookup_erase_ne (noPins pin member)).trans (mirrors.pinned member)
  · intro pageId beyond
    have beyondBefore : frames.disk.nextPageId ≤ pageId := next ▸ beyond
    have different := mirrors.ne_of_beyond found beyondBefore
    exact (elsewhere _ different).trans (mirrors.unwritten beyondBefore)
  · exact next.symm ▸ mirrors.nonneg

/-- A frame that was obtained holds no page of the map. -/
theorem obtained (mirrors : Mirrors frames contents pins) {frame : Nat} {after : Frames IdealDisk}
    (obtains : frames.Obtains (some frame) after) :
    Mirrors (after.setFrame frame none) contents pins := by
  cases obtains with
  | free empty =>
    have same : frames.setFrame frame none = frames := by
      rw [Frames.setFrame, ← empty, Function.update_eq_self]
    rw [same]
    exact mirrors
  | evicted held unpinned => exact mirrors.dropPage held unpinned

/-- A page comes into an empty frame with the bytes of the map and one pin. -/
theorem place (mirrors : Mirrors frames contents pins) {frame : Nat} {page : Page}
    (empty : frames.pages frame = none)
    (absent : frames.pageTable.lookup page.pageId = none)
    (allocated : frames.disk.Allocated page.pageId)
    (data : page.data = contents page.pageId) (pinCount : page.pinCount = 1) :
    Mirrors (frames.place frame page) contents
      ({ pageId := page.pageId, frame } :: pins) := by
  have onDisk := mirrors.stored absent allocated
  have noPins : ∀ pin ∈ pins, pin.pageId ≠ page.pageId := by
    intro pin member same
    have found := mirrors.pinned member
    rw [same, absent] at found
    cases found
  have split : ∀ {other : Nat} {present : Page},
      (frames.place frame page).pages other = some present →
        present = page ∨ (frames.pages other = some present ∧ present.pageId ≠ page.pageId) := by
    intro other present here
    rcases update_cases here with ⟨-, placed⟩ | ⟨-, before⟩
    · exact .inl (Option.some.inj placed).symm
    · refine .inr ⟨before, fun sameId => ?_⟩
      have found := mirrors.agrees.resident before
      rw [sameId, absent] at found
      cases found
  have lookup : ∀ {pageId : Int}, pageId ≠ page.pageId →
      (frames.place frame page).pageTable.lookup pageId = frames.pageTable.lookup pageId :=
    fun different => AList.lookup_insert_ne different
  refine ⟨((mirrors.agrees.vacant_empty empty).agrees_place_iff page).mpr absent, ?_, ?_, ?_, ?_,
    ?_, ?_, mirrors.unwritten, mirrors.nonneg⟩
  · intro pageId other found
    by_cases same : pageId = page.pageId
    · exact same ▸ allocated
    · exact mirrors.allocated ((lookup same).symm.trans found)
  · intro other present here
    rcases split here with rfl | ⟨before, -⟩
    · exact data
    · exact mirrors.data before
  · intro pageId absentNow allocatedNow
    have different : pageId ≠ page.pageId := by
      rintro rfl
      simp [Frames.place, Frames.setFrame] at absentNow
    exact mirrors.stored ((lookup different).symm.trans absentNow) allocatedNow
  · intro other present here
    rcases split here with rfl | ⟨before, -⟩
    · exact .inr (.inr onDisk)
    · rcases mirrors.safe before with dirty | unsaved | stored
      · exact .inl dirty
      · exact .inr (.inl (unsaved.cons _))
      · exact .inr (.inr stored)
  · intro other present here
    rcases split here with rfl | ⟨before, different⟩
    · rw [holders_cons_self, holders_eq_zero_iff.mpr noPins, pinCount]
    · rw [holders_cons_of_ne different.symm]
      exact mirrors.counted before
  · intro pin member
    rcases List.mem_cons.mp member with rfl | before
    · simp [Frames.place, Frames.setFrame]
    · exact (lookup (noPins pin before)).trans (mirrors.pinned before)

/-- Adding a pin of a resident page. -/
theorem pin (mirrors : Mirrors frames contents pins) {pageId : Int} {frame : Nat}
    (resident : frames.pageTable.lookup pageId = some frame) :
    Mirrors (frames.modifyPage frame Page.pin) contents ({ pageId, frame } :: pins) := by
  obtain ⟨page, held, rfl⟩ := mirrors.agrees.mapped resident
  rw [Frames.modifyPage, held]
  have data : page.data = contents page.pageId := mirrors.data held
  refine mirrors.change frames.disk held rfl data ?_ ?_ ?_ ?_ rfl
  · rcases mirrors.safe held with dirty | unsaved | onDisk
    · exact .inl dirty
    · exact .inr (.inl (unsaved.cons _))
    · exact .inr (.inr onDisk)
  · rw [holders_cons_self, ← mirrors.counted held]
    rfl
  · intro other different
    exact ⟨rfl, rfl, holders_cons_of_ne different.symm pins, fun unsaved => unsaved.cons _⟩
  · intro pin member
    rcases List.mem_cons.mp member with rfl | before
    · exact resident
    · exact mirrors.pinned before

/-- A successful `FetchPage` adds a pin of the page. -/
theorem fetch (mirrors : Mirrors frames contents pins) {pageId : Int} {frame : Nat}
    {after : Frames IdealDisk} (fetches : frames.Fetches pageId (some frame) after)
    (allocated : frames.disk.Allocated pageId) :
    Mirrors after contents ({ pageId, frame } :: pins) := by
  cases fetches with
  | hit resident => exact mirrors.pin resident
  | @loaded frame obtained absent obtains =>
    have cleared := mirrors.obtained obtains
    have next : obtained.disk.Allocated pageId := by
      have same := obtains.nextPageId_eq
      exact ⟨allocated.1, same.symm ▸ allocated.2⟩
    have stillAbsent := obtains.lookup_none absent
    have data : obtained.disk.bytes pageId = contents pageId := cleared.stored stillAbsent next
    rw [Frames.loadPage_of_allocated next, ← Frames.place_setFrame]
    exact cleared.place (by simp [Frames.setFrame]) stillAbsent next data rfl

/-- `AllocPage` makes the next page exist, with zeros. -/
theorem alloc (mirrors : Mirrors frames contents pins) :
    Mirrors { frames with disk := (Disk.allocPage frames.disk).2 }
      (Function.update contents frames.disk.nextPageId Bytes.zeros) pins := by
  have resident : ∀ {pageId : Int} {frame : Nat},
      frames.pageTable.lookup pageId = some frame → pageId ≠ frames.disk.nextPageId :=
    fun found => (mirrors.ne_of_beyond found (Int.le_refl _)).symm
  have present : ∀ {frame : Nat} {page : Page}, frames.pages frame = some page →
      Function.update contents frames.disk.nextPageId Bytes.zeros page.pageId =
        contents page.pageId :=
    fun held => Function.update_of_ne (resident (mirrors.agrees.resident held)) _ _
  refine ⟨⟨mirrors.agrees.injective, mirrors.agrees.mapped, mirrors.agrees.resident⟩, ?_, ?_, ?_,
    ?_, mirrors.counted, mirrors.pinned, ?_, ?_⟩
  · intro pageId frame found
    obtain ⟨nonneg, below⟩ := mirrors.allocated found
    exact ⟨nonneg, Int.lt_add_one_of_le (Int.le_of_lt below)⟩
  · intro frame page held
    rw [present held]
    exact mirrors.data held
  · intro pageId absent allocated
    by_cases new : pageId = frames.disk.nextPageId
    · subst new
      rw [Function.update_self]
      simp [IdealDisk.bytes, Disk.allocPage, mirrors.unwritten (Int.le_refl _)]
    · rw [Function.update_of_ne new]
      have below := Int.le_of_lt_add_one allocated.2
      exact mirrors.stored absent ⟨allocated.1, by omega⟩
  · intro frame page held
    rw [present held]
    exact mirrors.safe held
  · intro pageId beyond
    have beyondBefore : frames.disk.nextPageId + 1 ≤ pageId := beyond
    exact mirrors.unwritten (by omega)
  · have nonneg := mirrors.nonneg
    exact Int.add_nonneg nonneg (by decide)

/-- A successful `NewPage` adds a page of zeros and a pin of it. -/
theorem create (mirrors : Mirrors frames contents pins) {pageId : Int} {frame : Nat}
    {after : Frames IdealDisk} (creates : frames.Creates (some (pageId, frame)) after) :
    Mirrors after (Function.update contents pageId Bytes.zeros) ({ pageId, frame } :: pins) := by
  cases creates with
  | @added _ obtained obtains =>
    have cleared := mirrors.obtained obtains
    have absent : obtained.pageTable.lookup obtained.disk.nextPageId = none := by
      by_contra found
      obtain ⟨holder, found⟩ := Option.ne_none_iff_exists'.mp found
      have below := (cleared.allocated found).2
      exact absurd below (Int.lt_irrefl _)
    have allocated : (Disk.allocPage obtained.disk).2.Allocated obtained.disk.nextPageId :=
      ⟨cleared.nonneg, Int.lt_add_one_of_le (Int.le_refl _)⟩
    have added : obtained.addPage frame = (obtained.disk.nextPageId,
        { obtained with disk := (Disk.allocPage obtained.disk).2 }.place frame
          (((obtained.preparePage frame obtained.disk.nextPageId).pin).setDirty false)) := rfl
    rw [added]
    dsimp only
    rw [← Frames.place_setFrame]
    refine cleared.alloc.place (by simp [Frames.setFrame]) absent allocated ?_ rfl
    exact (Function.update_self obtained.disk.nextPageId Bytes.zeros contents).symm

/-- A pin is released; if the page was changed through it, as dirty. -/
theorem unpin {pin : ClientPin} (mirrors : Mirrors frames contents (pin :: pins)) {isDirty result : Bool}
    {after : Frames IdealDisk} (unpins : frames.Unpins pin.pageId isDirty result after)
    (declared : pin.wrote = true → isDirty = true) : Mirrors after contents pins := by
  have resident := mirrors.pinned List.mem_cons_self
  obtain ⟨page, held, sameId⟩ := mirrors.agrees.mapped resident
  have count : page.pinCount = holders pins page.pageId + 1 := by
    rw [mirrors.counted held, sameId, holders_cons_self]
  cases unpins with
  | refused unpinned =>
    have zero := unpinned resident held
    omega
  | @released frame released found heldReleased pinned =>
    obtain rfl := Option.some.inj (resident.symm.trans found)
    obtain rfl := Option.some.inj (held.symm.trans heldReleased)
    have data : (BufferPool.released page isDirty).data = contents page.pageId := by
      rw [← mirrors.data held]
      unfold BufferPool.released
      split <;> rfl
    have pinCount : (BufferPool.released page isDirty).pinCount = holders pins page.pageId := by
      have less : (BufferPool.released page isDirty).pinCount = page.pinCount - 1 := by
        unfold BufferPool.released
        split <;> rfl
      omega
    refine mirrors.change frames.disk held ?_ data ?_ pinCount ?_ ?_ rfl
    · unfold BufferPool.released
      split <;> rfl
    · cases isDirty with
      | true => exact .inl rfl
      | false =>
        rcases mirrors.safe held with dirty | ⟨other, member, same, wrote⟩ | onDisk
        · exact .inl dirty
        · rcases List.mem_cons.mp member with rfl | before
          · cases declared wrote
          · exact .inr (.inl ⟨other, before, same, wrote⟩)
        · exact .inr (.inr onDisk)
    · intro other different
      refine ⟨rfl, rfl, (holders_cons_of_ne (sameId ▸ different.symm) pins).symm, ?_⟩
      rintro ⟨unsaved, member, same, wrote⟩
      rcases List.mem_cons.mp member with rfl | before
      · exact absurd (same.symm.trans sameId.symm) different
      · exact ⟨unsaved, before, same, wrote⟩
    · exact fun member => mirrors.pinned (List.mem_cons_of_mem _ member)

/-- `UnpinPage` for a page without pins changes nothing. -/
theorem unpin_unheld (mirrors : Mirrors frames contents pins) {pageId : Int} {isDirty result : Bool}
    {after : Frames IdealDisk} (unpins : frames.Unpins pageId isDirty result after)
    (unheld : ∀ pin ∈ pins, pin.pageId ≠ pageId) : Mirrors after contents pins := by
  cases unpins with
  | refused unpinned => exact mirrors
  | released resident held pinned =>
    have count := mirrors.counted held
    rw [mirrors.agrees.pageId_eq resident held, holders_eq_zero_iff.mpr unheld] at count
    exact absurd count pinned

/-- A client changes the bytes of a page through a pin. -/
theorem write {pin : ClientPin} (mirrors : Mirrors frames contents (pin :: pins)) (data : Bytes) :
    Mirrors (frames.modifyPage pin.frame fun page => page.setData data)
      (Function.update contents pin.pageId data) ({ pin with wrote := true } :: pins) := by
  obtain ⟨page, held, sameId⟩ := mirrors.agrees.mapped (mirrors.pinned List.mem_cons_self)
  rw [Frames.modifyPage, held]
  refine mirrors.change frames.disk held rfl ?_ ?_ ?_ ?_ ?_ rfl
  · rw [sameId, Function.update_self]
    rfl
  · exact .inr (.inl ⟨_, List.mem_cons_self, sameId.symm, rfl⟩)
  · have before := mirrors.counted held
    simp only [holders, List.countP_cons] at before ⊢
    exact before
  · intro other different
    refine ⟨Function.update_of_ne (sameId ▸ different) _ _, rfl, ?_, ?_⟩
    · simp only [holders, List.countP_cons]
    · rintro ⟨unsaved, member, same, wrote⟩
      rcases List.mem_cons.mp member with rfl | before
      · exact ⟨_, List.mem_cons_self, same, rfl⟩
      · exact ⟨unsaved, List.mem_cons_of_mem _ before, same, wrote⟩
  · intro other member
    rcases List.mem_cons.mp member with rfl | before
    · have first : frames.pageTable.lookup pin.pageId = some pin.frame :=
        mirrors.pinned List.mem_cons_self
      exact first
    · exact mirrors.pinned (List.mem_cons_of_mem _ before)

/-- A flush puts the bytes on disk and clears the dirty flag. -/
theorem flush (mirrors : Mirrors frames contents pins) {pageId : Int} {after : Frames IdealDisk}
    (flushes : frames.Flushes pageId after) : Mirrors after contents pins := by
  cases flushes with
  | unchanged => exact mirrors
  | @written frame page resident held dirty =>
    obtain rfl := mirrors.agrees.pageId_eq resident held
    have written : frames.writeBack page.pageId page =
        { frames with disk := Disk.writePage frames.disk page.pageId page.data } := by
      simp [Frames.writeBack, dirty]
    have data := mirrors.data held
    have counted := mirrors.counted held
    rw [written]
    refine mirrors.change (Disk.writePage frames.disk page.pageId page.data) held rfl data ?_
      counted ?_ mirrors.pinned rfl
    · simp [IdealDisk.bytes, Disk.writePage, data]
    · intro other different
      exact ⟨rfl, Function.update_of_ne different _ _, rfl, id⟩

theorem delete (mirrors : Mirrors frames contents pins) {pageId : Int} {result : Bool}
    {after : Frames IdealDisk} (deletes : frames.Deletes pageId result after) :
    Mirrors after contents pins := by
  cases deletes with
  | refused => exact mirrors
  | deleted resident held unpinned =>
    obtain rfl := mirrors.agrees.pageId_eq resident held
    exact mirrors.dropPage held unpinned

end Mirrors

namespace PoolHistory

/-- The history's pool mirrors the bytes last written. -/
def Mirrored (history : PoolHistory) : Prop :=
  Mirrors history.pool.frames history.contents history.pins

/-- The pin at a position, in front of the others. -/
theorem pins_perm {pins : List ClientPin} {index : Nat} {pin : ClientPin}
    (at_ : pins[index]? = some pin) : (pin :: pins.eraseIdx index).Perm pins := by
  obtain ⟨inside, rfl⟩ := List.getElem?_eq_some_iff.mp at_
  exact List.getElem_cons_eraseIdx_perm inside

theorem mirrored_newPage (history : PoolHistory) (mirrored : history.Mirrored) :
    (history.step .newPage).Mirrored := by
  have creates := history.pool.newPage_creates
  rcases made : history.pool.newPage with ⟨result, pool⟩
  rw [made] at creates
  cases result with
  | none =>
    have same : pool.frames = history.pool.frames := creates.refused_eq
    simp only [step, made, Mirrored, same]
    exact mirrored
  | some created =>
    simp only [step, made]
    exact mirrored.create creates

theorem mirrored_fetchPage (history : PoolHistory) (pageId : Int) (mirrored : history.Mirrored)
    (allocated : history.pool.frames.disk.Allocated pageId) :
    (history.step (.fetchPage pageId)).Mirrored := by
  have fetches := history.pool.fetchPage_fetches pageId
  rcases made : history.pool.fetchPage pageId with ⟨result, pool⟩
  rw [made] at fetches
  cases result with
  | none =>
    have same : pool.frames = history.pool.frames := fetches.refused_eq
    simp only [step, made, Mirrored, same]
    exact mirrored
  | some frame =>
    simp only [step, made]
    exact mirrored.fetch fetches allocated

theorem mirrored_write (history : PoolHistory) (index : Nat) (data : Bytes)
    (mirrored : history.Mirrored) : (history.step (.write index data)).Mirrored := by
  cases at_ : history.pins[index]? with
  | none =>
    simp only [step, at_]
    exact mirrored
  | some pin =>
    obtain ⟨inside, -⟩ := List.getElem?_eq_some_iff.mp at_
    have front := mirrored.perm (pins_perm at_)
    simp only [step, at_]
    exact (front.write data).perm (List.set_perm_cons_eraseIdx inside _)

theorem mirrored_unpinPage (history : PoolHistory) (index : Nat) (isDirty : Bool)
    (mirrored : history.Mirrored)
    (declared : ∀ pin ∈ history.pins[index]?, pin.wrote = true → isDirty = true) :
    (history.step (.unpinPage index isDirty)).Mirrored := by
  cases at_ : history.pins[index]? with
  | none =>
    simp only [step, at_]
    exact mirrored
  | some pin =>
    have front := mirrored.perm (pins_perm at_)
    simp only [step, at_]
    exact front.unpin (history.pool.unpinPage_unpins pin.pageId isDirty) (declared pin at_)

/-- Every disciplined call keeps the pool a mirror of the bytes last written. -/
theorem mirrored_step (history : PoolHistory) (call : ClientCall) (mirrored : history.Mirrored)
    (disciplined : history.Disciplined call) : (history.step call).Mirrored := by
  have flushed := fun pageId => history.pool.flush_preserves pageId
    (fun _ _ _ flushes (holds : Mirrors _ history.contents history.pins) => holds.flush flushes)
    mirrored
  cases call with
  | newPage => exact history.mirrored_newPage mirrored
  | fetchPage pageId => exact history.mirrored_fetchPage pageId mirrored disciplined
  | write index data => exact history.mirrored_write index data mirrored
  | unpinPage index isDirty => exact history.mirrored_unpinPage index isDirty mirrored disciplined
  | unpinUnheld pageId isDirty =>
    exact mirrored.unpin_unheld (history.pool.unpinPage_unpins pageId isDirty) disciplined
  | flushPage pageId => exact (flushed pageId).1
  | flushAllPages => exact (flushed 0).2
  | deletePage pageId => exact mirrored.delete (history.pool.deletePage_deletes pageId)

/-- A mirror answers `FetchPage` with the bytes last written. -/
theorem transparent_of_mirrored (history : PoolHistory) (call : ClientCall)
    (mirrored : history.Mirrored) (disciplined : history.Disciplined call) :
    history.Transparent call := by
  cases call with
  | fetchPage pageId =>
    intro frame returned
    have fetches := history.pool.fetchPage_fetches pageId
    rw [returned] at fetches
    have after := mirrored.fetch fetches disciplined
    obtain ⟨page, held, sameId⟩ := after.agrees.mapped (after.pinned List.mem_cons_self)
    have data : page.data = history.contents page.pageId := after.data held
    exact ⟨page, held, sameId, data.trans (congrArg history.contents sameId)⟩
  | newPage => trivial
  | write index data => trivial
  | unpinPage index isDirty => trivial
  | unpinUnheld pageId isDirty => trivial
  | flushPage pageId => trivial
  | flushAllPages => trivial
  | deletePage pageId => trivial

/-- For every pool size and every disk, along every disciplined run each
successful `FetchPage` returns the page with the bytes last written to it. -/
theorem fetches_transparent (poolSize count : Nat) (initial : Int → Bytes)
    (calls : List ClientCall)
    (disciplined : EachCall step Disciplined (start poolSize count initial) calls) :
    EachCall step Transparent (start poolSize count initial) calls :=
  EachCall.imp mirrored_step transparent_of_mirrored (Mirrors.start count initial) disciplined

/-- One frame for two pages: the first is changed, evicted by the second and
fetched again. -/
theorem fetches_transparent_evicted :
    EachCall step Disciplined (start 1 0 fun _ => Bytes.zeros)
        [.newPage, .write 0 (fun _ => 7), .unpinPage 0 true, .newPage, .unpinPage 0 true,
          .fetchPage 0] ∧
      EachCall step Transparent (start 1 0 fun _ => Bytes.zeros)
        [.newPage, .write 0 (fun _ => 7), .unpinPage 0 true, .newPage, .unpinPage 0 true,
          .fetchPage 0] := by
  have disciplined : EachCall step Disciplined (start 1 0 fun _ => Bytes.zeros)
      [.newPage, .write 0 (fun _ => 7), .unpinPage 0 true, .newPage, .unpinPage 0 true,
        .fetchPage 0] :=
    ⟨trivial, trivial, fun _ _ _ => rfl, trivial, fun _ _ _ => rfl,
      show IdealDisk.Allocated _ 0 by decide +kernel, trivial⟩
  exact ⟨disciplined, fetches_transparent 1 0 _ _ disciplined⟩

end PoolHistory

end MiniDB.Buffer
