import MiniDB.Buffer.Replacers
import MiniDB.Foundation.UnorderedMap
import MiniDB.Storage.DiskManager

/-!
# The buffer pool

`BufferPoolManager` over a disk. A `Page*` handed to a client is the frame that
holds the page; `none` is the null pointer. The frames are a function from frame
numbers to the page they hold, and `page_table` maps page ids to frames. The
access statistics of `Page` and its own latch are used by no operation below and
are left out.
-/

namespace MiniDB.Buffer

open Foundation Storage

/-- `PageTemperature`. -/
inductive PageTemperature where
  | hot
  | cold
  | normal
deriving DecidableEq, Repr

/-- `Page`; the defaults are those of `new Page()`. -/
structure Page where
  data : Bytes := Bytes.zeros
  pageId : Int := -1
  isDirty : Bool := false
  pinCount : Nat := 0
  temperature : PageTemperature := .normal

namespace Page

/-- `Page::Reset`; the id and the temperature stay. -/
def reset (page : Page) : Page :=
  { page with data := Bytes.zeros, isDirty := false, pinCount := 0 }

/-- `Page::SetPageId`. -/
def setPageId (page : Page) (pageId : Int) : Page := { page with pageId }

/-- `Page::Pin`. -/
def pin (page : Page) : Page := { page with pinCount := page.pinCount + 1 }

/-- `Page::Unpin`. -/
def unpin (page : Page) : Page := { page with pinCount := page.pinCount - 1 }

/-- `Page::SetDirty`. -/
def setDirty (page : Page) (isDirty : Bool) : Page := { page with isDirty }

/-- `Page::SetTemperature`. -/
def setTemperature (page : Page) (temperature : PageTemperature) : Page :=
  { page with temperature }

/-- The bytes behind `Page::GetData()` after a client changed them. -/
def setData (page : Page) (data : Bytes) : Page := { page with data }

end Page

/-- The part of `BufferPoolManager` that holds pages: the frames, the table that
leads to them, and the disk. -/
structure Frames (D : Type) where
  disk : D
  pages : Nat → Option Page := fun _ => none
  pageTable : UnorderedMap Int Nat := ∅

namespace Frames

variable {D : Type}

/-- `pages[frame] = page`. -/
def setFrame (frames : Frames D) (frame : Nat) (page : Option Page) : Frames D :=
  { frames with pages := Function.update frames.pages frame page }

/-- A change made through the pointer to the page in a frame. -/
def modifyPage (frames : Frames D) (frame : Nat) (change : Page → Page) : Frames D :=
  frames.setFrame frame ((frames.pages frame).map change)

/-- The frame's page object, made if there is none, reset and given the id. -/
def preparePage (frames : Frames D) (frame : Nat) (pageId : Int) : Page :=
  (((frames.pages frame).getD {}).reset).setPageId pageId

/-- A page comes into a frame: the table leads to it and the frame holds it. -/
def place (frames : Frames D) (frame : Nat) (page : Page) : Frames D :=
  let pageTable := frames.pageTable.insert page.pageId frame
  { frames with pageTable }.setFrame frame (some page)

variable [Disk D]

/-- `WritePage` of a page if it is dirty. -/
def writeBack (frames : Frames D) (pageId : Int) (page : Page) : Frames D :=
  if page.isDirty then { frames with disk := Disk.writePage frames.disk pageId page.data }
  else frames

/-- The victim's page leaves: it is written back and its table entry erased. -/
def evict (frames : Frames D) (page : Page) : Frames D :=
  let frames := frames.writeBack page.pageId page
  { frames with pageTable := frames.pageTable.erase page.pageId }

/-- `FetchPage` of a page that is read from disk into a frame. -/
def loadPage (frames : Frames D) (frame : Nat) (pageId : Int) : Frames D :=
  let page := frames.preparePage frame pageId
  let (data, disk) := Disk.readPage frames.disk pageId page.data
  { frames with disk }.place frame (page.setData data).pin

/-- `NewPage` once it has a frame: the new id, and the page of zeros in the frame. -/
def addPage (frames : Frames D) (frame : Nat) : Int × Frames D :=
  let (pageId, disk) := Disk.allocPage frames.disk
  let page := ((frames.preparePage frame pageId).pin).setDirty false
  (pageId, { frames with disk }.place frame page)

/-- `DeletePage` of an unpinned page: written back, erased, and the frame null. -/
def dropPage (frames : Frames D) (frame : Nat) (pageId : Int) (page : Page) : Frames D :=
  let frames := frames.writeBack pageId page
  { frames with pageTable := frames.pageTable.erase pageId }.setFrame frame none

/-- `BufferPoolManager::FlushPageInternal`. -/
def flushPageInternal (frames : Frames D) (pageId : Int) : Bool × Frames D :=
  match frames.pageTable.lookup pageId with
  | none => (false, frames)
  | some frame =>
    match frames.pages frame with
    | none => (true, frames)
    | some page =>
      if page.isDirty then
        (true, (frames.writeBack pageId page).setFrame frame (some (page.setDirty false)))
      else (true, frames)

end Frames

/-- `BufferPoolManager` over a disk. -/
structure BufferPool (D : Type) where
  poolSize : Nat
  frames : Frames D
  replacer : LayeredClock
  latch : Mutex := .unlocked

namespace BufferPool

variable {D : Type}

instance : Guarded (BufferPool D) where
  mutex pool := pool.latch
  setMutex pool mutex := { pool with latch := mutex }

/-- `BufferPoolManager::BufferPoolManager`, with the replacer's latch given. Frame ids are
`int`s, so a pool has fewer than 2^31 frames; then the cast of the frame count in the
replacer leaves it as it is (`intFrames_of_lt`). -/
def new (poolSize : Nat) (disk : D) (replacerLatch : Mutex := .unlocked) : BufferPool D :=
  { poolSize, frames := { disk }, replacer := { frameCount := poolSize, latch := replacerLatch } }

/-- The loop that looks for a null frame. -/
def findFree (pool : BufferPool D) : Option Nat :=
  (List.range pool.poolSize).find? fun frame => (pool.frames.pages frame).isNone

variable [Disk D]

/-- The frame for a page that is to come in, which `FetchPage` and `NewPage` find
in the same way: a null frame, or else the victim's, whose page is evicted. No
victim, or a pinned one, is `none`. -/
def obtainFrame (pool : BufferPool D) : Option Nat × BufferPool D :=
  match pool.findFree with
  | some frame => (some frame, pool)
  | none =>
    let (victim, replacer) := pool.replacer.victim
    let pool := { pool with replacer }
    match victim with
    | none => (none, pool)
    | some frame =>
      match pool.frames.pages frame with
      | none => (some frame, pool)
      | some page =>
        if page.pinCount > 0 then (none, pool)
        else (some frame, { pool with frames := pool.frames.evict page })

/-- The frames changed and the frame taken out of the replacer. -/
def pinned (pool : BufferPool D) (frames : Frames D) (frame : Nat) : BufferPool D :=
  { pool with frames, replacer := pool.replacer.pin frame }

/-- `BufferPoolManager::FetchPage`. -/
def fetchPage (pool : BufferPool D) (pageId : Int) : Option Nat × BufferPool D :=
  lockGuard (fun pool =>
    match pool.frames.pageTable.lookup pageId with
    | some frame => (some frame, pool.pinned (pool.frames.modifyPage frame Page.pin) frame)
    | none =>
      match pool.obtainFrame with
      | (none, pool) => (none, pool)
      | (some frame, pool) =>
        (some frame, pool.pinned (pool.frames.loadPage frame pageId) frame)) pool

/-- `BufferPoolManager::NewPage`: the new id and the frame. -/
def newPage (pool : BufferPool D) : Option (Int × Nat) × BufferPool D :=
  lockGuard (fun pool =>
    match pool.obtainFrame with
    | (none, pool) => (none, pool)
    | (some frame, pool) =>
      let (pageId, frames) := pool.frames.addPage frame
      (some (pageId, frame), pool.pinned frames frame)) pool

/-- The page after `UnpinPage` released one pin. -/
def released (page : Page) (isDirty : Bool) : Page :=
  if isDirty then page.unpin.setDirty true else page.unpin

/-- `BufferPoolManager::UnpinPage`: with its last pin the frame enters the replacer. -/
def unpinPage (pool : BufferPool D) (pageId : Int) (isDirty : Bool) : Bool × BufferPool D :=
  lockGuard (fun pool =>
    match pool.frames.pageTable.lookup pageId with
    | none => (false, pool)
    | some frame =>
      match pool.frames.pages frame with
      | none => (false, pool)
      | some page =>
        if page.pinCount = 0 then (false, pool)
        else
          let page := released page isDirty
          let pool := { pool with frames := pool.frames.setFrame frame (some page) }
          if page.pinCount = 0 then
            let isHot := decide (page.temperature = .hot)
            (true, { pool with replacer := pool.replacer.unpin frame isHot })
          else (true, pool)) pool

/-- `BufferPoolManager::FlushPage`. -/
def flushPage (pool : BufferPool D) (pageId : Int) : Bool × BufferPool D :=
  lockGuard (fun pool =>
    let (flushed, frames) := pool.frames.flushPageInternal pageId
    (flushed, { pool with frames })) pool

/-- `BufferPoolManager::FlushAllPages`, in the iteration order of the table. -/
def flushAllPages (pool : BufferPool D) : BufferPool D :=
  lockGuard' (fun pool =>
    let frames := pool.frames.pageTable.keys.foldl
      (fun frames pageId => (frames.flushPageInternal pageId).2) pool.frames
    { pool with frames }) pool

/-- `BufferPoolManager::DeletePage`: the frame becomes null and leaves the replacer. -/
def deletePage (pool : BufferPool D) (pageId : Int) : Bool × BufferPool D :=
  lockGuard (fun pool =>
    match pool.frames.pageTable.lookup pageId with
    | none => (false, pool)
    | some frame =>
      match pool.frames.pages frame with
      | none => (false, pool)
      | some page =>
        if page.pinCount > 0 then (false, pool)
        else (true, pool.pinned (pool.frames.dropPage frame pageId page) frame)) pool

/-- `BufferPoolManager::isHotPage`, which takes no latch. -/
def isHotPage (pool : BufferPool D) (pageId : Int) : Bool :=
  match (pool.frames.pageTable.lookup pageId).bind pool.frames.pages with
  | none => false
  | some page => decide (page.temperature = .hot)

end BufferPool

end MiniDB.Buffer
