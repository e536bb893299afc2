import MiniDB.Foundation.BlockWrites
import MiniDB.Foundation.Run
import MiniDB.Storage.PageOffsets

/-!
# The database file over restarts

The process may end at any call, and the next one opens the file that it leaves. The first
`WritePage` of a process finds the stream open, fails to open it and closes it, so its page
does not reach the file; every later one opens the file anew and does. The file is thus what
the later writes of each process have made of it.
-/

namespace MiniDB.Storage.DiskManager

open Foundation

/-- The ids of the pages whose place and count are an `int`. -/
abbrev AddressedPage := Fin 524287

/-- What happens to the disk manager of one database file. -/
inductive LifeCall where
  | allocPage
  | writePage (page : AddressedPage) (buffer : Bytes)
  | readPage (page : AddressedPage) (out : Bytes)
  | flushAllPages
  /-- The process ends, and the next one builds a manager for the same path. -/
  | restart

/-- One call. -/
def live (manager : DiskManager) : LifeCall → DiskManager
  | .allocPage => manager.allocPage.2
  | .writePage page buffer => manager.writePage (page : Nat) buffer
  | .readPage page out => (manager.readPage (page : Nat) out).2
  | .flushAllPages => manager.flushAllPages
  | .restart => new manager.dbFile.file

/-- The writes that reach the file, oldest first: all but the first one of each process.
`fresh` says that the process has not written yet. -/
def keptWrites : (fresh : Bool) → List LifeCall → List BlockWrite
  | _, [] => []
  | true, .writePage _ _ :: calls => keptWrites false calls
  | false, .writePage page buffer :: calls => (page, buffer) :: keptWrites false calls
  | _, .restart :: calls => keptWrites true calls
  | fresh, .allocPage :: calls | fresh, .readPage _ _ :: calls | fresh, .flushAllPages :: calls =>
    keptWrites fresh calls

/-- The stream is open until the first write, and the file is there. -/
structure Lives (fresh : Bool) (file : File) (manager : DiskManager) : Prop where
  isOpen : manager.dbFile.isOpen = fresh
  file : manager.dbFile.file = some file

variable {manager : DiskManager} {fresh : Bool} {file : File}

theorem new_dbFile (file : Option File) :
    (new file).dbFile.file = some (file.getD {}) ∧ (new file).dbFile.Good := by
  cases file with
  | none => exact ⟨rfl, rfl, rfl, rfl⟩
  | some file => exact ⟨rfl, rfl, rfl, rfl⟩

theorem lives_new (file : Option File) : Lives true (file.getD {}) (new file) :=
  ⟨(new_dbFile file).2.1, (new_dbFile file).1⟩

theorem readPage_bytes (manager : DiskManager) (pageId : Int) (out : Bytes) :
    (manager.readPage pageId out).1 =
      ((manager.dbFile.seekg (readOffset pageId)).read out pageSize).1 := rfl

theorem Lives.readPage (lives : Lives fresh file manager) (pageId : Int) (out : Bytes) :
    Lives fresh file (manager.readPage pageId out).2 := by
  obtain ⟨sameOpen, sameFile⟩ := manager.dbFile.seekg_same (readOffset pageId)
  obtain ⟨isOpen, kept⟩ := (manager.dbFile.seekg (readOffset pageId)).read_same out pageSize
  exact ⟨isOpen.trans (sameOpen.trans lives.isOpen), kept.trans (sameFile.trans lives.file)⟩

/-- The first write of a process closes the stream, and the file stays as it is. -/
theorem Lives.writePage_first (lives : Lives true file manager) (pageId : Int) (buffer : Bytes) :
    Lives false file (manager.writePage pageId buffer) := by
  have failed : manager.dbFile.openInOut = { manager.dbFile with failbit := true } := by
    rw [FileStream.openInOut, if_pos (by rw [lives.isOpen]; rfl)]
  have dbFile : (manager.writePage pageId buffer).dbFile =
      { manager.dbFile with failbit := true, isOpen := false } := by
    rw [writePage_eq]
    change (((manager.dbFile.openInOut).seekp _).write buffer pageSize).close = _
    rw [failed]
    simp [FileStream.seekp, FileStream.write, FileStream.close, lives.isOpen]
  exact ⟨by rw [dbFile], by rw [dbFile, lives.file]⟩

/-- A later write reaches the file. -/
theorem Lives.writePage_later (lives : Lives false file manager) (page : AddressedPage)
    (buffer : Bytes) :
    Lives false (file.write (page * pageSize) buffer pageSize)
      (manager.writePage (page : Nat) buffer) := by
  have opened : manager.dbFile.openInOut = { file := some file, isOpen := true } := by
    rw [FileStream.openInOut, lives.isOpen, lives.file]
    rfl
  have offset : writeOffset (page : Nat) = ((page * pageSize : Nat) : Int) := by
    have inRange := page.isLt
    rw [writeOffset_eq (by omega) (by omega)]
    rfl
  have dbFile : (manager.writePage (page : Nat) buffer).dbFile =
      { file := some (file.write (page * pageSize) buffer pageSize)
        position := page * pageSize + pageSize } := by
    rw [writePage_eq]
    change (((manager.dbFile.openInOut).seekp (writeOffset (page : Nat))).write buffer
      pageSize).close = _
    rw [opened, offset]
    generalize page * pageSize = place
    simp [FileStream.seekp, FileStream.write, FileStream.close]
  exact ⟨by rw [dbFile], by rw [dbFile]⟩

/-- The file after any calls is made of the writes that are kept. -/
theorem Lives.run (lives : Lives fresh file manager) (calls : List LifeCall) :
    (Foundation.run live manager calls).dbFile.file =
      some (file.writeBlocks pageSize (keptWrites fresh calls)) := by
  induction calls generalizing fresh file manager with
  | nil =>
    rw [keptWrites]
    exact lives.file
  | cons call calls ih =>
    cases call with
    | allocPage =>
      rw [keptWrites]
      exact ih ⟨lives.isOpen, lives.file⟩
    | writePage page buffer =>
      cases fresh with
      | true => exact ih (lives.writePage_first page buffer)
      | false => exact ih (lives.writePage_later page buffer)
    | readPage page out =>
      rw [keptWrites]
      exact ih (lives.readPage page out)
    | flushAllPages =>
      rw [keptWrites]
      exact ih ⟨lives.isOpen, lives.file⟩
    | restart =>
      rw [keptWrites]
      have next : Lives true file (new manager.dbFile.file) := by
        rw [lives.file]
        exact lives_new (some file)
      exact ih next

/-- The pages that are kept are addressed. -/
theorem blocksUpTo_keptWrites (fresh : Bool) (calls : List LifeCall) :
    blocksUpTo (keptWrites fresh calls) ≤ 524287 := by
  induction calls generalizing fresh with
  | nil =>
    rw [keptWrites]
    exact Nat.zero_le _
  | cons call calls ih =>
    cases call with
    | writePage page buffer =>
      cases fresh with
      | true => exact ih false
      | false => exact Nat.max_le.mpr ⟨page.isLt, ih false⟩
    | allocPage | readPage _ _ | flushAllPages =>
      rw [keptWrites]
      exact ih fresh
    | restart =>
      rw [keptWrites]
      exact ih true

/-- The bytes of a page in the file that is left: those of the last write that was kept, or
those that were there before. -/
def storedPage (file : File) (kept : List BlockWrite) (page : AddressedPage) : Bytes := fun i =>
  match lastWrite page kept with
  | some buffer => buffer i
  | none => file.byteAt (page * pageSize + i)

/-- The number of whole pages in a file that is not too large is the id issued next. -/
theorem new_nextPageId {file : File} (fits : file.size < 2147483648) :
    (new (some file)).nextPageId = ((file.size / pageSize : Nat) : Int) := by
  have counted : (new (some file)).fileSize = toInt (file.size : Int) := by
    simp [new, openManager, FileStream.openInOut, FileStream.seekEnd, FileStream.tellg]
  rw [(new_counts (some file)).2.2, counted, toInt, Int.bmod_eq_of_le (by omega) (by omega), Int.tdiv_eq_ediv_of_nonneg (by omega)]
  exact (Int.natCast_ediv _ _).symm

/-- The manager of a file reads the bytes of a page that the file has. -/
theorem readPage_new (file : File) (page : AddressedPage) (out : Bytes) :
    ((new (some file)).readPage (page : Nat) out).1 =
      Bytes.copy out 0 (fun i => file.byteAt (page * pageSize + i))
        (min pageSize (file.size - page * pageSize)) := by
  obtain ⟨holds, good⟩ := new_dbFile (some file)
  have inRange := page.isLt
  have offset : readOffset (page : Nat) = ((page * pageSize : Nat) : Int) := by
    rw [(readOffset_eq_iff (by omega) (by omega)).mpr (by omega)]
    rfl
  rw [readPage_bytes, offset, good.read_byteAt holds, Option.getD_some]

/-- Into a buffer of zeros it reads what the page shows, also behind the end. -/
theorem readPage_new_zeros (file : File) (page : AddressedPage) {i : Nat} (inside : i < pageSize) :
    ((new (some file)).readPage (page : Nat) Bytes.zeros).1 i =
      file.byteAt (page * pageSize + i) := by
  rw [readPage_new, Bytes.copy, Nat.zero_add]
  by_cases reached : i < file.size - page * pageSize
  · rw [if_pos (by omega), Nat.sub_zero]
  · rw [if_neg (by omega), File.byteAt, if_neg (by omega)]
    rfl

/-- Whatever was called in however many processes, the next one issues the ids behind the
pages that were whole or kept, and finds in each page what was last kept of it. -/
theorem restart_finds_kept (file : Option File) (fits : (file.getD {}).size < 2147483648)
    (calls : List LifeCall) :
    let manager := (Foundation.run live (new file) calls).live .restart
    let kept := keptWrites true calls
    let pages := max ((file.getD {}).size / pageSize) (blocksUpTo kept)
    manager.nextPageId = (pages : Nat) ∧
      ∀ (page : AddressedPage) (out : Bytes),
        (manager.readPage (page : Nat) out).1 =
          Bytes.copy out 0 (storedPage (file.getD {}) kept page)
            (min pageSize (max (file.getD {}).size (blocksUpTo kept * pageSize) -
              page * pageSize)) := by
  intro manager kept pages
  have left : manager = new (some ((file.getD {}).writeBlocks pageSize kept)) :=
    congrArg new ((lives_new file).run calls)
  have size := (file.getD {}).size_writeBlocks pageSize kept
  constructor
  · have upTo : blocksUpTo kept ≤ 524287 := blocksUpTo_keptWrites true calls
    rw [left, new_nextPageId (by rw [size, pageSize]; omega), size]
    simp only [pages, pageSize]
    omega
  · intro page out
    rw [left, readPage_new, size]
    refine Bytes.copy_congr fun i inside => ?_
    rw [File.byteAt_writeBlocks _ (by omega), storedPage]
    cases lastWrite page kept with
    | none => rfl
    | some buffer => rfl

/-- Of two pages that a process writes, the next process finds the second one. -/
theorem restart_finds_kept_second :
    let calls := [.allocPage, .writePage 0 fun _ => 1, .allocPage, .writePage 1 fun _ => 2]
    let manager := (Foundation.run live (new none) calls).live .restart
    manager.nextPageId = 2 ∧ (manager.readPage 0 fun _ => 9).1 0 = 0 ∧
      (manager.readPage 1 fun _ => 9).1 0 = 2 := by
  have found := restart_finds_kept none (by decide)
    [.allocPage, .writePage 0 fun _ => 1, .allocPage, .writePage 1 fun _ => 2]
  refine ⟨found.1, ?_, ?_⟩
  · exact (congrFun (found.2 0 fun _ => 9) 0).trans (by decide)
  · exact (congrFun (found.2 1 fun _ => 9) 0).trans (by decide)

end MiniDB.Storage.DiskManager
