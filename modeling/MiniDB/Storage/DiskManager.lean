import MiniDB.Common.Types
import MiniDB.Foundation.FileStream
import MiniDB.Foundation.Mutex

/-!
# The disk manager

`DiskManager` keeps one stream for the database file. The constructor leaves it
open; `WritePage` opens it again, writes and closes it, and `ReadPage` uses it as
it finds it. `Disk` is the interface through which the buffer pool uses a disk.
The member `page_id` is never read and is left out.
-/

namespace MiniDB.Storage

open Foundation

/-- What the buffer pool asks of a disk. -/
class Disk (D : Type) where
  /-- `ReadPage`: the buffer after the call. -/
  readPage : D → Int → Bytes → Bytes × D
  /-- `WritePage` with `PAGE_SIZE` bytes. -/
  writePage : D → Int → Bytes → D
  /-- `AllocPage`. -/
  allocPage : D → Int × D

/-- `DiskManager`. -/
structure DiskManager where
  dbFile : FileStream
  nextPageId : Int := 0
  fileSize : Int := 0
  latch : Mutex := .unlocked

namespace DiskManager

instance : Guarded DiskManager where
  mutex manager := manager.latch
  setMutex manager mutex := { manager with latch := mutex }

/-- `static_cast<int>`. -/
def toInt (value : Int) : Int := value.bmod 4294967296

/-- `DiskManager::OpenManager`: a missing file is created empty. -/
def openManager (manager : DiskManager) : DiskManager :=
  let opened := manager.dbFile.openInOut
  let opened := if opened.isOpen then opened else opened.openOut.close.openInOut
  let dbFile := opened.seekEnd
  let fileSize := toInt dbFile.tellg
  { manager with dbFile, fileSize, nextPageId := fileSize.tdiv pageSize }

/-- `DiskManager::DiskManager(path)`, given the file at the path. -/
def new (file : Option File) : DiskManager := openManager { dbFile := { file } }

/-- `DiskManager::ReadPage`; the offset is an `int`. -/
def readPage (manager : DiskManager) (pageId : Int) (pageData : Bytes) : Bytes × DiskManager :=
  lockGuard (fun manager =>
    let offset := toInt (pageId * pageSize)
    let (data, dbFile) := (manager.dbFile.seekg offset).read pageData pageSize
    (data, { manager with dbFile })) manager

/-- `DiskManager::WritePage` with `PAGE_SIZE` bytes; the offset is a `size_t`,
which the stream takes as a signed 64-bit offset. -/
def writePage (manager : DiskManager) (pageId : Int) (buffer : Bytes) : DiskManager :=
  lockGuard' (fun manager =>
    let dbFile := manager.dbFile.openInOut
    let offset := (pageId * pageSize).bmod 18446744073709551616
    let dbFile := ((dbFile.seekp offset).write buffer pageSize).close
    { manager with dbFile }) manager

/-- `DiskManager::AllocPage`. -/
def allocPage (manager : DiskManager) : Int × DiskManager :=
  lockGuard (fun manager =>
    (manager.nextPageId,
      { manager with
        nextPageId := manager.nextPageId + 1
        fileSize := manager.fileSize + pageSize })) manager

/-- `DiskManager::FlushPage`, which does nothing. -/
def flushPage (manager : DiskManager) : DiskManager := manager

/-- `DiskManager::FlushAllPages`: the stream is flushed, which moves no byte here. -/
def flushAllPages (manager : DiskManager) : DiskManager := lockGuard' (fun manager => manager) manager

instance : Disk DiskManager where
  readPage := readPage
  writePage := writePage
  allocPage := allocPage

end DiskManager

end MiniDB.Storage
